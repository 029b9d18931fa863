import LoopbackLock.Proofs.Estate.Filing
import LoopbackLock.Proofs.World.Evolving
import LoopbackLock.Proofs.World.Keeping
import LoopbackLock.Proofs.World.Run

/-!
# Worlds that come about

All that holds of every world in which locks and callers are the only ones at work (`Regular`).
A holder that no lock stores any more is never stored again (`Unstored.happened`), so its release,
once begun, is the only one.
-/

namespace LoopbackLock.World

variable {w w' w₁ : World} {t t' : ThreadId} {i j : LockId} {h : HolderId} {l : PortLock}
variable {W W' : Work} {e : Event}

/-! ## Works of calls -/

theorem call_of_work (hW : w.estate.works[t]? = some (some W)) :
    ∃ i c, w.callOn i t = some c ∧ c.work? = some W := by
  have hW : (w.threads.map Activity.work?)[t]? = some (some W) := hW
  rw [List.getElem?_map] at hW
  obtain ⟨a, ha, hw⟩ := Option.map_eq_some_iff.mp hW
  rcases a with last | ⟨i, c⟩
  · cases hw
  · exact ⟨i, c, callOn_eq_some.mpr ha, hw⟩

theorem work_of_call {c : Call} (hc : w.callOn i t = some c) (hw : c.work? = some W) :
    w.estate.works[t]? = some (some W) := by
  show (w.threads.map Activity.work?)[t]? = _
  rw [List.getElem?_map, callOn_eq_some.mp hc]
  exact congrArg some hw

/-- A work is a release of its holder, or the drop of the lock that stores it. -/
theorem keeper_of_work (ho : w.Orderly) (hW : w.estate.works[t]? = some (some W)) :
    (W.orderly = true ∧ ∃ i, w.callOn i t = some (.dismantling W.holder W.stage)) ∨
      W.orderly = false ∧ ∃ i l, w.callOn i t = some (.dropping W.holder W.stage) ∧
        w.lock? i = some l ∧ l.state = .holding W.holder := by
  obtain ⟨i, c, hc, hw⟩ := call_of_work hW
  rcases c with _ | _ | c | _ | _ | _ | _ | ⟨holder, d⟩ | _ | _ | ⟨holder, d⟩
  case dismantling =>
    cases hw
    exact .inl ⟨rfl, i, hc⟩
  case dropping =>
    cases hw
    obtain ⟨l, hl⟩ := ho.present hc
    have hstands := ho.stands hl t
    rw [hc] at hstands
    exact .inr ⟨rfl, i, l, hc, hl, hstands⟩
  all_goals cases hw

/-- A holder has one work. -/
theorem Kept.work_unique (hk : w.Kept) (ho : w.Orderly)
    (hW : w.estate.works[t]? = some (some W)) (hW' : w.estate.works[t']? = some (some W'))
    (hsame : W'.holder = W.holder) : t' = t := by
  rcases keeper_of_work ho hW with ⟨-, i, hc⟩ | ⟨-, i, l, hc, hl, hs⟩
  · rcases keeper_of_work ho hW' with ⟨-, i', hc'⟩ | ⟨-, i', l', hc', hl', hs'⟩
    · exact (hk.call_unique hc hc' (h := W.holder) rfl (by rw [hsame]; rfl)).symm
    · rw [hsame] at hs'
      exact absurd rfl (hk.lock_not_call hl' hs' hc)
  · rcases keeper_of_work ho hW' with ⟨-, i', hc'⟩ | ⟨-, i', l', hc', hl', hs'⟩
    · rw [hsame] at hc'
      exact absurd rfl (hk.lock_not_call hl hs hc')
    · rw [hsame] at hs'
      have hii := hk.lock_unique hl hl' hs hs'
      subst hii
      refine Decidable.byContradiction fun hne => ?_
      have := ho.alone hc rfl t' hne
      rw [hc'] at this
      cases this

/-! ## Holders that no lock stores -/

/-- No lock stores the holder, and no contender is about to. -/
structure Unstored (w : World) (h : HolderId) : Prop where
  founded : h < w.holders.length
  lock : ¬ w.Stores h
  call : ∀ i t, w.callOn i t ≠ some (.contending (.installing h))

/-- A holder that is being released is not stored. -/
theorem Kept.unstored (hk : w.Kept) (ho : w.Orderly) (hW : w.estate.works[t]? = some (some W))
    (hord : W.orderly = true) : w.Unstored W.holder := by
  obtain ⟨-, i, hc⟩ | ⟨hdrop, -⟩ := keeper_of_work ho hW
  · constructor
    · have hpos := le_total (f := Activity.keeps W.holder) (callOn_eq_some.mp hc)
      rw [keeps_of_holder rfl] at hpos
      rcases Nat.lt_or_ge W.holder w.holders.length with hlt | hge
      · exact hlt
      · have hzero := hk.founded W.holder (by rw [fronts, List.length_map]; exact hge)
        unfold keepers at hzero
        omega
    · rintro ⟨i', l, hl, hs⟩
      exact hk.lock_not_call hl hs hc rfl
    · intro i' t' hc'
      have htt := hk.call_unique hc hc' (h := W.holder) rfl rfl
      subst htt
      have hbusy := (callOn_eq_some.mp hc).symm.trans (callOn_eq_some.mp hc')
      cases hbusy
  · rw [hord] at hdrop
    cases hdrop

theorem Unstored.congr (hu : w.Unstored h) (hl : w'.locks = w.locks) (ht : w'.threads = w.threads)
    (hlen : w.holders.length ≤ w'.holders.length) : w'.Unstored h where
  founded := Nat.lt_of_lt_of_le hu.founded hlen
  lock := by unfold Stores; rw [lock?_congr hl]; exact hu.lock
  call := by rw [callOn_congr ht]; exact hu.call

theorem Served.holders_length {s : Settings} {q : Request} {r : Reply} (hs : w.Served s q r w₁) :
    (∀ h, r = .founded h → h = w.holders.length) ∧ w.holders.length ≤ w₁.holders.length := by
  obtain ⟨hfounded, hle⟩ := hs.fronts_length
  simp only [fronts, List.length_map] at hfounded hle
  exact ⟨fun h hr => (hfounded h hr).1, hle⟩

theorem Unstored.threadStep {c : Call} {r : Reply} (hu : w.Unstored h)
    (ht : w.threads[t]? = some (.busy i c)) (hl : w.lock? i = some l)
    (hs : w.Served l.settings (c.request l.settings) r w₁) :
    (w₁.settle t i (l.step t c r).1 (l.step t c r).2).Unstored h := by
  obtain ⟨hfounded, hle⟩ := hs.holders_length
  have hc : w.callOn i t = some c := callOn_eq_some.mpr ht
  have hcall := callOn_settle (hs.threads.symm ▸ ht) (l.step t c r).1 (l.step t c r).2
  have hlock := lock?_settle (l := l) (by rw [hs.lock?]; exact hl) t (l.step t c r).1
    (l.step t c r).2
  constructor
  · rw [settle_eq]
    exact Nat.lt_of_lt_of_le hu.founded hle
  · rintro ⟨j, l', hl', hst⟩
    rw [hlock] at hl'
    split at hl'
    · rw [Progress.slot_eq_some hl'] at hst
      rcases PortLock.holding_of_step hst with hst | rfl
      · exact hu.lock ⟨i, l, hl, hst⟩
      · exact hu.call i t hc
    · rw [hs.lock?] at hl'
      exact hu.lock ⟨j, l', hl', hst⟩
  · intro j t' hc'
    rw [hcall] at hc'
    split at hc'
    · split at hc'
      · rcases PortLock.installing_of_step (Progress.call?_eq_some hc') with rfl | hr
        · exact hu.call i t hc
        · exact Nat.lt_irrefl _ (hfounded h hr ▸ hu.founded)
      · cases hc'
    · rw [hs.callOn] at hc'
      exact hu.call j t' hc'

theorem Unstored.happened (hu : w.Unstored h) (hocc : w.occupants = []) (he : w.Happened e w') :
    w'.Unstored h := by
  rcases he with ⟨ht, hl, hs⟩ | ⟨hh, hp⟩ | ⟨hh, ha⟩ | ⟨ho', -⟩ | ⟨hl, ht, hfree⟩ | ⟨hl⟩ | s | _ |
    ⟨hc⟩ | ⟨x, d⟩ | ⟨⟨hh, hperm⟩⟩
  case threadStep => exact hu.threadStep ht hl (served_of_serve? hs)
  case workerStep => exact hu.congr rfl rfl (by simp [World.setHolder])
  case attendantStep => exact hu.congr rfl rfl (by simp [World.setHolder])
  case occupantStep => simp [hocc] at ho'
  case begun t i kind _ _ =>
    refine ⟨hu.founded, hu.lock, fun j t' hc' => ?_⟩
    rw [callOn_set ht] at hc'
    split at hc'
    · simp only at hc'
      split at hc'
      · cases kind <;> cases hc'
      · cases hc'
    · exact hu.call j t' hc'
  case stirred =>
    refine ⟨hu.founded, ?_, hu.call⟩
    rintro ⟨j, l', hl', hst⟩
    obtain ⟨l₀, hl₀, asleep, rfl⟩ := lock?_stirred hl hl'
    exact hu.lock ⟨j, l₀, hl₀, hst⟩
  case lockMade =>
    refine ⟨hu.founded, ?_, hu.call⟩
    rintro ⟨j, l', hl', hst⟩
    rcases lock?_lockMade hl' with hl' | ⟨-, rfl⟩
    · exact hu.lock ⟨j, l', hl', hst⟩
    · cases hst
  case threadMade =>
    refine ⟨hu.founded, hu.lock, fun j t' hc' => ?_⟩
    rw [callOn_threadMade w] at hc'
    exact hu.call j t' hc'
  case called => exact hu.congr rfl rfl (Nat.le_refl _)
  case done =>
    obtain ⟨_, hd⟩ := deed_eq w x d
    rw [hd]
    exact hu.congr rfl rfl (Nat.le_refl _)
  case shuffled => exact hu.congr rfl rfl (by simp [World.setHolder])

/-! ## All that holds -/

/-- The release of the holder has been under way for longer than its first step. -/
structure Spoken (w : World) (h : HolderId) : Prop where
  unstored : w.Unstored h
  drained : ∀ (t : ThreadId) (W : Work), w.estate.works[t]? = some (some W) → W.holder = h →
    W.stage ≠ .draining

theorem Spoken.happened (hs : w.Spoken h) (hocc : w.occupants = []) (he : w.Happened e w') :
    w'.Spoken h := by
  refine ⟨hs.unstored.happened hocc he, fun t W' hW' hwh => ?_⟩
  obtain ⟨W₀, hW₀, hworks⟩ := (moves_of_happened hocc he).works hW'
  cases hworks
  case same => exact hs.drained t W' hW₀ hwh
  case began hst _ => exact absurd (hwh ▸ hst) hs.unstored.lock
  case laboured W E₁ _ hl hE =>
    exact (hl.onward (hs.drained t W hW₀ (hl.same_holder.1.symm.trans hwh))).1

/-- What holds of every world that comes about. -/
structure Regular (w : World) : Prop where
  orderly : w.Orderly
  kept : w.Kept
  unoccupied : w.occupants = []
  accounted : w.estate.Accounted
  answered : w.estate.Answered
  /-- Nothing is said but the answer and the announcement. -/
  scripted : ∀ x, w.network.said x <+: script
  ported : w.estate.Ported
  registered : w.estate.Registered
  stopped : w.estate.Stopped
  plain : w.estate.Plain
  sound : w.network.Sound
  /-- Nothing but answers is said before a release has drained its holder. -/
  discreet : ∀ h, w.estate.Reticent h [] ∨ w.Spoken h

theorem Regular.blank (terrain : Terrain) : (World.blank terrain).Regular where
  orderly := .blank terrain
  kept := .blank terrain
  unoccupied := rfl
  accounted := .blank terrain
  answered := .blank terrain
  scripted _ := List.nil_prefix
  ported := .blank terrain
  registered := .blank terrain
  stopped := .blank terrain
  plain := .blank terrain
  sound := fun _ hl => nomatch hl
  discreet _ := .inl fun _ hh => by cases hh

theorem Regular.moves (hw : w.Regular) (he : w.Happened e w') :
    w.estate.Moves w.Stores e w'.estate := moves_of_happened hw.unoccupied he

theorem Regular.happened (hw : w.Regular) (he : w.Happened e w') : w'.Regular where
  orderly := hw.orderly.happened he
  kept := hw.kept.happened hw.orderly hw.unoccupied he
  unoccupied := occupants_happened hw.unoccupied he
  accounted := hw.accounted.moves (hw.moves he)
  answered := hw.answered.moves hw.accounted (hw.moves he)
  scripted x := by
    rcases hw.answered.said hw.accounted (hw.moves he) x with hsame | ⟨-, hans | ⟨hann, -⟩⟩
    · have hsame : w'.network.said x = w.network.said x := hsame
      rw [hsame]
      exact hw.scripted x
    · exact hans.trans (List.prefix_append ..)
    · exact hann
  ported := hw.ported.moves hw.accounted (hw.moves he) (he.evolves hw.unoccupied hw.accounted)
  registered := hw.registered.moves (hw.moves he)
  stopped := hw.stopped.moves (hw.moves he)
  plain := hw.plain.moves (hw.moves he)
  sound := hw.sound.evolves (he.evolves hw.unoccupied hw.accounted)
  discreet h := by
    rcases hw.discreet h with hret | hspoken
    · by_cases hann : ∃ W x, w.estate.Announces W x ∧ W.holder = h
      · -- The work that announces is the only one for its holder, and past draining.
        obtain ⟨W, x, ⟨⟨t, hW⟩, rest, queue, hs⟩, rfl⟩ := hann
        have hord : W.orderly = true := by
          rcases hord : W.orderly with _ | _
          · have := hw.plain t W hW hord
            rw [hs] at this
            simp at this
          · rfl
        refine .inr (Spoken.happened ⟨hw.kept.unstored hw.orderly hW hord, ?_⟩ hw.unoccupied he)
        intro t' W' hW' hsame
        have htt := hw.kept.work_unique hw.orderly hW hW' hsame
        subst htt
        obtain rfl := Option.some.inj (Option.some.inj (hW.symm.trans hW'))
        rw [hs]
        simp
      · exact .inl (hret.moves hw.accounted hw.answered (hw.moves he)
          fun hann' hwh => absurd ⟨_, _, hann', hwh⟩ hann)
    · exact .inr (hspoken.happened hw.unoccupied he)

theorem Regular.run {es : List Event} (hw : w.Regular) (hr : w.run? es = some w') : w'.Regular :=
  foldlM_invariant (fun _ _ _ _ hs he => hs.happened (happened_of_happen? he)) hw hr

/-- What every event in a regular world keeps holds at the end of a run. -/
theorem Regular.run_invariant {P : World → Prop} {es : List Event}
    (hstep : ∀ v e v', v.Regular → P v → v.Happened e v' → P v') (hw : w.Regular) (hP : P w)
    (hr : w.run? es = some w') : P w' := by
  have hboth : w'.Regular ∧ P w' :=
    foldlM_invariant (P := fun v : World => v.Regular ∧ P v)
      (fun v e v' _ hv he => by
        have hhappened := happened_of_happen? he
        exact ⟨hv.1.happened hhappened, hstep v e v' hv.1 hv.2 hhappened⟩)
      ⟨hw, hP⟩ hr
  exact hboth.2

end LoopbackLock.World
