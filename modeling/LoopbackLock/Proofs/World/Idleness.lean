import LoopbackLock.Proofs.Estate.Clearing
import LoopbackLock.Proofs.World.Origins
import LoopbackLock.Proofs.World.Readiness

/-!
# What an idle lock still has

A lock stores that it is idle before its holder is dismantled. So while a release is under way the
lock says that it is idle, and has the port all the same until the accepting worker is gone, and
waiters until the registry has been swept. At all other times an idle lock has neither
(`World.idle_unowned_iff`).
-/

namespace LoopbackLock

/-- The accepting worker has not been told to stop. -/
def Dismantling.isEarly : Dismantling → Bool
  | draining | notifying .. | shutting .. | discarding .. | stopping => true
  | joining | sweeping | clearing .. | abandoning => false

namespace Dismantling

variable {d d' : Dismantling} {r : Reply}

theorem isEarly_clear (links : List LinkId) : (clear links).isEarly = false := by
  cases links <;> rfl

/-- A release is early until it has told the worker to stop. -/
theorem isEarly_of_step (h : d.step true r = .going d') (hd' : d'.isEarly = true) :
    d.isEarly = true ∧ (d = stopping → r ≠ .done) := by
  revert h
  fun_cases Dismantling.step true d r
  case case9 | case10 => intro h; cases h; cases hd'
  case case11 | case12 =>
    intro h
    cases h
    rw [isEarly_clear] at hd'
    cases hd'
  case case14 =>
    -- the reply is none that this stage waits for
    intro h
    cases h
    refine ⟨hd', ?_⟩
    rintro rfl rfl
    exact (by simp_all : False).elim
  case case13 => intro h; cases h
  all_goals exact fun _ => ⟨rfl, fun hs => by cases hs⟩

end Dismantling

/-- A release of a holder has just begun, or goes on. -/
theorem PortLock.dismantling_of_step {l : PortLock} {t : ThreadId} {c : Call} {r : Reply}
    {h : HolderId} {d' : Dismantling} (hs : (l.step t c r).2 = .going (.dismantling h d')) :
    c = .resetting ∧ l.state = .holding h ∨
      ∃ d, c = .dismantling h d ∧ d.step true r = .going d' := by
  revert hs
  fun_cases PortLock.step l t c r
  case case1 =>
    obtain ⟨_, _, heq, rfl | rfl | rfl⟩ := l.enter_cases t <;> rw [heq] <;> intro hs <;> cases hs
  case case3 k =>
    rcases contend_cases l k r with ⟨_, hp⟩ | ⟨_, hp⟩ | ⟨_, hp, -⟩ <;> rw [hp] <;> intro hs <;>
      cases hs
  case case6 =>
    rcases l.count_cases t with heq | heq | heq <;> rw [heq] <;> intro hs <;> cases hs
  case case7 next =>
    intro hs
    rcases hst : l.state with _ | _ | _ | k | _ <;> simp only [next, hst] at hs <;> cases hs
    exact .inl ⟨rfl, rfl⟩
  case case8 k d d' hd => intro hs; cases hs; exact .inr ⟨d, rfl, hd⟩
  case case15 =>
    intro hs
    cases hs
    exact (by simp_all : False).elim
  all_goals intro hs; cases hs

theorem PortLock.idle_of_phase {l : PortLock} (h : l.phase = .idle) : l.state = .idle := by
  rcases hs : l.state <;> rw [PortLock.phase, hs] at h <;> first | rfl | cases h

namespace World

variable {w w' w₀ w₁ : World} {t : ThreadId} {i : LockId} {h : HolderId} {l : PortLock}
  {c : Call} {d : Dismantling} {e : Event} {es : List Event} {r : Reply}

/-! ## The worker of a release that is early -/

/-- A release that has not come to stop its holder leaves it serving. -/
def Unstopped (w : World) : Prop :=
  ∀ i t h d, w.callOn i t = some (.dismantling h d) → d.isEarly = true → w.IsServing h

theorem Unstopped.threadStep (hu : w.Unstopped) (hw : w.Regular) (hserving : w.Serving)
    (ht : w.threads[t]? = some (.busy i c)) (hl : w.lock? i = some l)
    (hs : w.Served l.settings (c.request l.settings) r w₁) :
    (w₁.settle t i (l.step t c r).1 (l.step t c r).2).Unstopped := by
  have hc : w.callOn i t = some c := callOn_eq_some.mpr ht
  have hstands : l.Stands t (some c) := hc ▸ hw.orderly.stands hl t
  have hfronts : (w₁.settle t i (l.step t c r).1 (l.step t c r).2).fronts = w₁.fronts := by
    rw [settle_eq]; rfl
  intro j t' h d' hc' hearly
  unfold IsServing
  rw [hfronts]
  show w₁.IsServing h
  rw [callOn_settle (by rwa [hs.threads])] at hc'
  by_cases htt : t' = t
  · rw [if_pos htt] at hc'
    split at hc'
    · rcases PortLock.dismantling_of_step (Progress.call?_eq_some hc') with ⟨rfl, hst⟩ |
        ⟨d, rfl, hd⟩
      · have hret := hw.orderly.not_isRetiring hc rfl
        exact hs.deal.isServing (hserving.lock hl hst hret) (by simp [Call.request])
      · obtain ⟨hearly₀, hstop⟩ := Dismantling.isEarly_of_step hd hearly
        have hserve := hu i t h d hc hearly₀
        by_cases hd₀ : d = .stopping
        · -- the request to stop the holder has not been served
          subst hd₀
          have hs : w.Served l.settings (.stop h) r w₁ := hs
          cases hs
          case failed => exact hserve
          case stopped => exact absurd rfl (hstop rfl)
        · refine hs.deal.isServing hserve fun hq => hd₀ ?_
          cases d <;> cases hq
          rfl
    · cases hc'
  · rw [if_neg htt, hs.callOn] at hc'
    refine hs.deal.isServing (hu j t' h d' hc' hearly) fun hq => ?_
    rcases stop_keeper hstands hq with hh | ⟨-, hst⟩
    · exact htt (hw.kept.call_unique hc' hc rfl hh)
    · exact hw.kept.lock_not_call hl hst hc' rfl

/-- Only the steps of threads stop holders. -/
theorem Happened.isServing_quiet (he : w.Happened e w') (hocc : w.occupants = [])
    (hquiet : ∀ t chance, e ≠ .step (.thread t) chance) (h₁ : w.IsServing h) :
    w'.IsServing h := by
  rcases he with ⟨ht, hl, hs⟩ | ⟨hh, hp⟩ | ⟨hh, ha⟩ | ⟨ho', -⟩ | ⟨hl, ht, hfree⟩ | ⟨hl⟩ | s | _ |
    ⟨hc⟩ | ⟨x, d⟩ | ⟨⟨hh, hperm⟩⟩
  case threadStep => exact absurd rfl (hquiet _ _)
  case workerStep => exact h₁.workerStep hh (Holder.polled_of_poll? hp)
  case attendantStep =>
    obtain ⟨a, -, ha⟩ := Holder.attended_of_attend? ha
    unfold IsServing
    rw [fronts_setHolder_same hh ha.front]
    exact h₁
  case occupantStep => simp [hocc] at ho'
  case done =>
    obtain ⟨_, hd⟩ := deed_eq w x d
    rw [hd]
    exact h₁
  case shuffled =>
    unfold IsServing
    rw [fronts_setHolder_same hh rfl]
    exact h₁
  all_goals exact h₁

theorem Unstopped.happened (hu : w.Unstopped) (hw : w.Regular) (hserving : w.Serving)
    (he : w.Happened e w') : w'.Unstopped := by
  obtain ⟨t, chance, rfl⟩ | hquiet := thread_or_quiet e
  · rcases he with ⟨ht, hl, hs⟩
    exact hu.threadStep hw hserving ht hl (served_of_serve? hs)
  intro i t h d hc hearly
  rcases he.activity_of hw.unoccupied (callOn_eq_some.mp hc) with ⟨hsame, -⟩ |
    ⟨chance, _, _, _, _, _, rfl, -⟩ | ⟨j, kind, heq⟩ | heq
  · exact he.isServing_quiet hw.unoccupied hquiet (hu i t h d (callOn_eq_some.mpr hsame) hearly)
  · exact absurd rfl (hquiet _ _)
  · cases kind <;> cases heq
  · cases heq

/-! ## Whose registry it is -/

/-- A holder has a keeper, or its registry is swept, or it was of a lock that was dropped. -/
def Attributed (w₀ : World) (es : List Event) (w : World) : Prop :=
  ∀ h holder, w.holders[h]? = some holder →
    1 ≤ w.keepers h ∨ holder.Swept ∨ ∃ i, w₀.HasBound es i holder.listener ∧ w.lock? i = none

/-- A step that takes a holder from its last keeper ends a release that has swept, or drops the
lock. -/
theorem keepers_threadStep (hw : w.Regular) (hcleared : w.estate.Cleared)
    (ht : w.threads[t]? = some (.busy i c)) (hl : w.lock? i = some l)
    (hs : w.Served l.settings (c.request l.settings) r w₁) (hk : 1 ≤ w.keepers h) :
    1 ≤ (w₁.settle t i (l.step t c r).1 (l.step t c r).2).keepers h ∨ w.estate.Swept h ∨
      w.Employs i h ∧ (w₁.settle t i (l.step t c r).1 (l.step t c r).2).lock? i = none := by
  have hc : w.callOn i t = some c := callOn_eq_some.mpr ht
  have hstands : l.Stands t (some c) := hc ▸ hw.orderly.stands hl t
  have ht₁ : w₁.threads[t]? = some (.busy i c) := by rwa [hs.threads]
  have hl₁ : w₁.lock? i = some l := by rwa [hs.lock?]
  have hkeepers : w₁.keepers h = w.keepers h := by unfold keepers; rw [hs.locks, hs.threads]
  have hsettle := keepers_settle ht₁ hl₁ (l.step t c r).1 (l.step t c r).2 h
  have hcall := callOn_settle ht₁ (l.step t c r).1 (l.step t c r).2
  have hlock := lock?_settle hl₁ t (l.step t c r).1 (l.step t c r).2
  by_cases hj : c.joined? = some h
  · rcases c with _ | _ | _ | _ | _ | _ | _ | ⟨k, d⟩ | _ | _ | ⟨k, d⟩
    case dismantling =>
      obtain ⟨-, heq⟩ := Option.ite_none_right_eq_some.mp hj
      cases heq
      rcases hd : d.step true r with d' | _
      · have hstep : (l.step t (.dismantling h d) r).2 = .going (.dismantling h d') := by
          simp only [PortLock.step, hd]
        refine .inl (Employs.keepers (i := i) (.inr ⟨t, .dismantling h d', ?_, rfl⟩))
        rw [hcall, if_pos rfl, if_pos rfl, hstep]
        rfl
      · refine .inr (.inl (hcleared t _ (work_of_call hc rfl) rfl ?_))
        exact Dismantling.hasSwept_over hd
    case dropping =>
      obtain ⟨-, heq⟩ := Option.ite_none_right_eq_some.mp hj
      cases heq
      have hst : l.state = .holding h := hstands
      rcases hd : d.step false r with d' | _
      · have hstep : l.step t (.dropping h d) r = (l, .going (.dropping h d')) := by
          simp only [PortLock.step, hd]
        refine .inl (Employs.keepers (i := i) (.inl ⟨l, ?_, hst⟩))
        rw [hlock, if_pos rfl, hstep]
        rfl
      · have hstep : l.step t (.dropping h d) r = (l, .over .dropped) := by
          simp only [PortLock.step, hd]
        refine .inr (.inr ⟨.inl ⟨l, hl, hst⟩, ?_⟩)
        rw [hlock, if_pos rfl, hstep]
        rfl
    all_goals cases hj
  · have hpass := PortLock.keeps_of_step (r := r) hstands hj
    left
    omega

theorem Attributed.happened (h₁ : Attributed w₀ es w) (hw : w.Regular) (ho : Origins w₀ es w)
    (hcleared : w.estate.Cleared) (hm' : w'.Minded) (hr : w₀.run? es = some w)
    (hstep : w.happen? e = some w') : Attributed w₀ (es ++ [e]) w' := by
  have he := happened_of_happen? hstep
  have hocc := hw.unoccupied
  intro h holder' hh'
  rcases (hw.moves he).holder_of hh' with ⟨holder, hh, hturns⟩ | ⟨-, s, ℓ, rfl⟩
  · have hstays {i : LockId} (hb : w₀.HasBound es i holder.listener) :
        w₀.HasBound (es ++ [e]) i holder'.listener := by
      rw [hturns.listener, hasBound_concat hr hstep]
      exact .inl hb
    rcases h₁ h holder hh with hkeepers | hswept | ⟨i, hbound, hdropped⟩
    · obtain ⟨t, chance, rfl⟩ | hquiet := thread_or_quiet e
      · rcases he with ⟨ht, hl, hs⟩
        rcases keepers_threadStep hw hcleared ht hl (served_of_serve? hs) hkeepers with hk | hsw |
          ⟨hemploys, hdropped⟩
        · exact .inl hk
        · obtain ⟨holder₁, hh₁, hsw⟩ := hsw
          obtain rfl := Option.some.inj (hh₁.symm.trans hh)
          exact .inr (.inl (hturns.swept hsw))
        · refine .inr (.inr ⟨_, hstays (ho.runs (.inr ⟨h, _, hemploys, fronts_getElem? hh, rfl⟩)), ?_⟩)
          exact hdropped
      · exact .inl ((keepers_quiet hocc he hquiet h).symm ▸ hkeepers)
    · exact .inr (.inl (hturns.swept hswept))
    · exact .inr (.inr ⟨i, hstays hbound, (he.dropped hocc (ho.lock hbound)).2 hdropped⟩)
  · exact .inl (hm'.keeper h ⟨_, fronts_getElem? hh', by simp [Holder.front, Holder.found]⟩)

/-! ## Idle locks -/

/-- What holds at the end of a run of locks and callers. -/
structure Watched (w₀ : World) (es : List Event) (w : World) : Prop where
  regular : w.Regular
  claimed : w.Claimed
  serving : w.Serving
  minded : w.Minded
  origins : Origins w₀ es w
  cleared : w.estate.Cleared
  unstopped : w.Unstopped
  attributed : Attributed w₀ es w

theorem Watched.blank (terrain : Terrain) : Watched (.blank terrain) [] (.blank terrain) where
  regular := .blank terrain
  claimed _ := rfl
  serving :=
    { lock := fun hl => by cases hl
      call := fun hc => by cases hc
      alive := fun f hf => by cases hf }
  minded := .blank terrain
  origins := .blank terrain
  cleared := .blank terrain
  unstopped _ _ _ _ hc := by cases hc
  attributed _ _ hh := by cases hh

theorem Watched.happened (h : Watched w₀ es w) (hr : w₀.run? es = some w)
    (hstep : w.happen? e = some w') : Watched w₀ (es ++ [e]) w' := by
  have he := happened_of_happen? hstep
  obtain ⟨hw, hclaimed, hserving, hminded, horigins, hcleared, hunstopped, hattributed⟩ := h
  have hminded' := hminded.happened hw.kept hw.orderly hw.unoccupied he
  exact {
    regular := hw.happened he
    claimed := hclaimed.happened hw.unoccupied he
    serving := hserving.happened hw.kept hw.orderly hw.unoccupied he
    minded := hminded'
    origins := horigins.happened hw hr hstep
    cleared := hcleared.moves hw.registered hw.stopped (hw.moves he)
    unstopped := hunstopped.happened hw hserving he
    attributed := hattributed.happened hw horigins hcleared hminded' hr hstep }

theorem watched_of_run {terrain : Terrain} (hr : (World.blank terrain).run? es = some w) :
    Watched (.blank terrain) es w :=
  run_history (P := Watched (.blank terrain)) (fun _ _ _ _ hr h hstep => h.happened hr hstep) rfl
    (.blank terrain) hr

/-- A listener that the lock has bound along the run is open. -/
def HasPort (w₀ : World) (es : List Event) (w : World) (i : LockId) : Prop :=
  ∃ ℓ, w₀.HasBound es i ℓ ∧ w.network.isListening ℓ = true

/-- A connection is registered with a holder whose listener the lock has bound along the run. -/
def HasWaiter (w₀ : World) (es : List Event) (w : World) (i : LockId) : Prop :=
  ∃ holder ∈ w.holders, w₀.HasBound es i holder.listener ∧ holder.registry ≠ []

/-- The accepting worker of the holder is gone, and nothing is registered with it. -/
def Vacated (w : World) (h : HolderId) : Prop :=
  ∃ holder, w.holders[h]? = some holder ∧ holder.worker = .gone ∧ holder.registry = []

/-- An idle lock has a holder only while it is released. -/
theorem Watched.releasing_of_employs (h : Watched w₀ es w) (hl : w.lock? i = some l)
    (hidle : l.state = .idle) {k : HolderId} (hemploys : w.Employs i k) :
    ∃ t d, w.callOn i t = some (.dismantling k d) := by
  rcases hemploys with ⟨l', hl', hst⟩ | ⟨t, c, hc, hk⟩
  · cases hl.symm.trans hl'
    cases hidle.symm.trans hst
  · have hstands := h.regular.orderly.stands hl t
    rw [hc] at hstands
    rcases c with _ | _ | c | _ | _ | _ | _ | ⟨k', d⟩ | _ | _ | _
    case contending =>
      cases c
      case installing => cases hidle.symm.trans hstands.2
      all_goals cases hk
    case dismantling =>
      cases hk
      exact ⟨t, d, hc⟩
    all_goals cases hk

theorem Watched.holder_of_release (h : Watched w₀ es w) {k : HolderId}
    (hc : w.callOn i t = some (.dismantling k d)) :
    ∃ holder, w.holders[k]? = some holder ∧ w₀.HasBound es i holder.listener := by
  have hemploys : w.Employs i k := .inr ⟨t, _, hc, rfl⟩
  have hlt := hemploys.founded h.regular.kept
  rw [fronts, List.length_map] at hlt
  have hh := List.getElem?_eq_getElem hlt
  exact ⟨_, hh, h.origins.runs (.inr ⟨k, _, hemploys, fronts_getElem? hh, rfl⟩)⟩

/-- The port is open while the accepting worker of a release is at work. -/
theorem Watched.hasPort_of_release (h : Watched w₀ es w) {k : HolderId} {holder : Holder}
    (hc : w.callOn i t = some (.dismantling k d)) (hh : w.holders[k]? = some holder)
    (hworker : holder.worker ≠ .gone) : HasPort w₀ es w i := by
  obtain ⟨holder', hh', hbound⟩ := h.holder_of_release hc
  obtain rfl := Option.some.inj (hh.symm.trans hh')
  exact ⟨_, hbound, h.claimed.isListening (fronts_getElem? hh) hworker⟩

/-- A port is that of a contender, or of a holder that the lock employs and whose worker is not
gone. -/
theorem Watched.owner_of_hasPort (h : Watched w₀ es w) (hport : HasPort w₀ es w i) :
    (∃ ℓ, w.Grips i ℓ) ∨
      ∃ k holder, w.holders[k]? = some holder ∧ holder.worker ≠ .gone ∧ w.Employs i k := by
  obtain ⟨ℓ, hbound, hopen⟩ := hport
  rcases h.claimed.claimant hopen with ⟨t, j, c, ht, hℓ⟩ | ⟨k, holder, hh, rfl, hworker⟩
  · have hgrips : w.Grips j ℓ := ⟨t, c, callOn_eq_some.mpr ht, hℓ⟩
    obtain rfl := h.origins.one (h.origins.runs (.inl hgrips)) hbound
    exact .inl ⟨ℓ, hgrips⟩
  · have hf := fronts_getElem? hh
    obtain ⟨j, hemploys⟩ := employs_of_keepers (h.minded.keeper k ⟨_, hf, hworker⟩)
    obtain rfl := h.origins.one (h.origins.runs (.inr ⟨k, _, hemploys, hf, rfl⟩)) hbound
    exact .inr ⟨k, holder, hh, hworker, hemploys⟩

/-- While an idle lock is not released, it has no port. -/
theorem Watched.not_hasPort (h : Watched w₀ es w) (hl : w.lock? i = some l)
    (hidle : l.state = .idle)
    (hvacated : ∀ t k d, w.callOn i t = some (.dismantling k d) → w.Vacated k) :
    ¬ HasPort w₀ es w i := by
  intro hport
  rcases h.owner_of_hasPort hport with ⟨ℓ, t, c, hc, hℓ⟩ | ⟨k, holder, hh, hworker, hemploys⟩
  · have hstands := h.regular.orderly.stands hl t
    rw [hc] at hstands
    rcases c with _ | _ | c | _ | _ | _ | _ | _ | _ | _ | _
    case contending =>
      cases c
      case unblocking | founding | unbinding => cases hidle.symm.trans hstands.2
      all_goals cases hℓ
    all_goals cases hℓ
  · obtain ⟨t, d, hc⟩ := h.releasing_of_employs hl hidle hemploys
    obtain ⟨holder', hh', hgone, -⟩ := hvacated t k d hc
    obtain rfl := Option.some.inj (hh.symm.trans hh')
    exact hworker hgone

/-- While an idle lock is not released, it has no waiter. -/
theorem Watched.not_hasWaiter (h : Watched w₀ es w) (hl : w.lock? i = some l)
    (hidle : l.state = .idle)
    (hvacated : ∀ t k d, w.callOn i t = some (.dismantling k d) → w.Vacated k) :
    ¬ HasWaiter w₀ es w i := by
  rintro ⟨holder, hmem, hbound, hregistry⟩
  obtain ⟨k, hh⟩ := List.getElem?_of_mem hmem
  rcases h.attributed k holder hh with hkeepers | hswept | ⟨j, hbound', hdropped⟩
  · obtain ⟨j, hemploys⟩ := employs_of_keepers hkeepers
    obtain rfl :=
      h.origins.one (h.origins.runs (.inr ⟨k, _, hemploys, fronts_getElem? hh, rfl⟩)) hbound
    obtain ⟨t, d, hc⟩ := h.releasing_of_employs hl hidle hemploys
    obtain ⟨holder', hh', -, hempty⟩ := hvacated t k d hc
    obtain rfl := Option.some.inj (hh.symm.trans hh')
    exact hregistry hempty
  · exact hregistry hswept.empty
  · obtain rfl := h.origins.one hbound' hbound
    cases hdropped.symm.trans hl

/-- While the holder of a lock is dismantled the lock says that it is idle, though the port is open
as long as the worker has not been told to stop; once the registry is swept nothing is left. An idle
lock has no open port and no registered waiter if and only if no release of it has a holder left with
a worker or a waiter. -/
theorem idle_unowned_iff {terrain : Terrain} (hr : (World.blank terrain).run? es = some w)
    (hl : w.lock? i = some l) :
    (∀ (t : ThreadId) k d, w.threads[t]? = some (.busy i (.dismantling k d)) → l.phase = .idle ∧
      (d.isEarly = true → HasPort (.blank terrain) es w i) ∧ (d.hasSwept = true → w.Vacated k)) ∧
    (l.phase = .idle →
      (¬ HasPort (.blank terrain) es w i ∧ ¬ HasWaiter (.blank terrain) es w i ↔
        ∀ (t : ThreadId) k d, w.threads[t]? = some (.busy i (.dismantling k d)) →
          w.Vacated k)) := by
  have h := watched_of_run hr
  constructor
  · intro t k d ht
    have hc : w.callOn i t = some (.dismantling k d) := callOn_eq_some.mpr ht
    obtain ⟨holder, hh, hbound⟩ := h.holder_of_release hc
    refine ⟨?_, fun hearly => ?_, fun hswept => ?_⟩
    · have hstands := h.regular.orderly.stands hl t
      rw [hc] at hstands
      rw [PortLock.phase, hstands.2]
      rfl
    · obtain ⟨f, hf, hstop⟩ := h.unstopped i t k d hc hearly
      obtain rfl := Option.some.inj ((fronts_getElem? hh).symm.trans hf)
      exact h.hasPort_of_release hc hh (h.serving.alive _ (List.mem_of_getElem? hf) hstop)
    · obtain ⟨holder', hh', hsw⟩ := h.cleared t _ (work_of_call hc rfl) rfl hswept
      obtain rfl := Option.some.inj (hh.symm.trans hh')
      refine ⟨holder, hh, ?_, hsw.empty⟩
      have hjoined : (Call.dismantling k d).joined? = some k := by
        cases d <;> first | rfl | cases hswept
      have hdone := (h.minded.joined t i _ k ht hjoined).2
      exact Decidable.byContradiction fun hne => hdone ⟨_, fronts_getElem? hh, hne⟩
  · intro hphase
    have hidle := PortLock.idle_of_phase hphase
    constructor
    · rintro ⟨hport, hwaiter⟩ t k d ht
      have hc : w.callOn i t = some (.dismantling k d) := callOn_eq_some.mpr ht
      obtain ⟨holder, hh, hbound⟩ := h.holder_of_release hc
      refine ⟨holder, hh, ?_, ?_⟩
      · exact Decidable.byContradiction fun hne => hport (h.hasPort_of_release hc hh hne)
      · exact Decidable.byContradiction fun hne =>
          hwaiter ⟨holder, List.mem_of_getElem? hh, hbound, hne⟩
    · intro hvacated
      have hvacated : ∀ t k d, w.callOn i t = some (.dismantling k d) → w.Vacated k :=
        fun t k d hc => hvacated t k d (callOn_eq_some.mp hc)
      exact ⟨h.not_hasPort hl hidle hvacated, h.not_hasWaiter hl hidle hvacated⟩

/-- A thread acquires a lock, and begins to release it. -/
def premature : List Event :=
  [.newLock {}, .newThread, .begins 0 0 .acquire] ++ turns 6 (.thread 0) ++
  [.begins 0 0 .release] ++ turns 2 (.thread 0)

theorem premature_has_port : ∃ w l, (World.blank .usual).run? premature = some w ∧
    w.lock? 0 = some l ∧ w.threads[0]? = some (.busy 0 (.dismantling 0 .draining)) ∧
    l.phase = .idle ∧ HasPort (.blank .usual) premature w 0 ∧ ¬ w.Vacated 0 := by
  obtain ⟨w, hr⟩ := Option.isSome_iff_exists.mp
    (by decide +kernel : ((World.blank .usual).run? premature).isSome = true)
  have hbegun : ((World.blank .usual).run? premature).all (fun w => (w.lock? 0).isSome ∧
      w.threads = [.busy 0 (.dismantling 0 .draining)]) = true := by decide +kernel
  rw [hr, Option.all_some, decide_eq_true_eq] at hbegun
  obtain ⟨hlock, hthreads⟩ := hbegun
  obtain ⟨l, hl⟩ := Option.isSome_iff_exists.mp hlock
  have ht : w.threads[0]? = some (.busy 0 (.dismantling 0 .draining)) := by rw [hthreads]; rfl
  obtain ⟨hreleased, hiff⟩ := idle_unowned_iff hr hl
  obtain ⟨hphase, hport, -⟩ := hreleased 0 0 .draining ht
  refine ⟨w, l, hr, hl, ht, hphase, hport rfl, fun hvacated => ?_⟩
  refine ((hiff hphase).mpr fun t k d hbusy => ?_).1 (hport rfl)
  rw [hthreads] at hbusy
  rcases t with _ | t <;> cases hbusy
  exact hvacated

end World

end LoopbackLock
