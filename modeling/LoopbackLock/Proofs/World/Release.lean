import LoopbackLock.Proofs.World.Regular

/-!
# What a release leaves behind

When a release is over, its holder has nothing registered and never will again; each connection it
ever accepted is closed, or is with an attendant that closes it. Everybody who was registered when
the release began was told of it before the connection was shut or closed, and nobody else was
(`release_strands_none`).
-/

namespace LoopbackLock.World

variable {w w' w₁ w₂ w₃ : World} {t : ThreadId} {i : LockId} {h : HolderId} {e : Event}
variable {es es₁ es₂ es₃ : List Event} {chance : Chance} {x : LinkId} {holder : Holder}
variable {C : LinkId → Prop}

/-- The system cuts an announcement on a connection short: the write fails, or takes nothing. -/
def isCut (w : World) (x : LinkId) : Event → Bool
  | .step (.thread t) chance =>
    match w.threads[t]? with
    | some (.busy _ (.dismantling _ (.notifying y rest _))) =>
      y = x && w.network.cuts x rest chance
    | _ => false
  | _ => false

/-- Nothing is registered with a holder or about to be, and each connection is as open as its
attendant has it. Outside `B` nothing was said but answers. -/
structure Unstranded (w : World) (h : HolderId) (B : List LinkId) (holder : Holder) : Prop where
  there : w.holders[h]? = some holder
  empty : holder.registry = []
  barred : ∀ a ∈ holder.attendants, a.stage ≠ .admitting
  owned : ∀ a ∈ holder.attendants, w.network.handles a.link = a.stage.handles
  /-- A peer whose connection was closed does not wait for anything. -/
  woken : ∀ a ∈ holder.attendants, a.stage = .gone → ∀ most,
    w.network.read? a.link .caller most ≠ none
  unannounced : ∀ a ∈ holder.attendants, a.link ∉ B →
    w.network.said a.link <+: Attendance.answer
  accepted : ∀ x ∈ B, ∃ a ∈ holder.attendants, a.link = x

theorem Regular.isCut_of_cuts (hw : w.Regular) (hc : w.estate.Cuts e x) : w.isCut x e = true := by
  obtain ⟨t, chance, W, rest, queue, rfl, hW, hs, hcut⟩ := hc
  rcases keeper_of_work hw.orderly hW with ⟨-, i, hcall⟩ | ⟨hdrop, -⟩
  · rw [hs] at hcall
    have hcut : w.network.cuts x rest chance = true := hcut
    simp [isCut, callOn_eq_some.mp hcall, hcut]
  · have := hw.plain t W hW hdrop
    rw [hs] at this
    simp at this

/-- The first step of a dismantling empties the registry. -/
theorem estate_drain (he : w.happen? (.step (.thread t) chance) = some w')
    (ht : w.threads[t]? = some (.busy i (.dismantling h .draining)))
    (hh : w.holders[h]? = some holder) :
    w'.estate = (w.estate.setHolder h ({ holder with registry := [] }, w.network)).setWork t
      (some { holder := h, orderly := true, stage := .notify holder.registry.links }) := by
  obtain ⟨l, r, w₁, hl, hs, rfl⟩ := stepThread?_busy ht he
  obtain ⟨holder', hh', hs⟩ := Option.bind_eq_some_iff.mp hs
  obtain rfl := Option.some.inj (hh.symm.trans hh')
  split at hs
  · cases hs
  · cases hs
    rw [estate_settle]
    rfl

/-- What holds from the first step of a release on. -/
structure AfterDrain (B : List LinkId) (C : LinkId → Prop) (h : HolderId) (t : ThreadId)
    (w : World) : Prop where
  regular : w.Regular
  unstored : w.Unstored h
  releasing : w.estate.Releasing B C h t

theorem AfterDrain.happened {B : List LinkId} (ha : w.AfterDrain B C h t)
    (hcut : ∀ x, w.isCut x e = true → C x) (he : w.Happened e w') : w'.AfterDrain B C h t where
  regular := ha.regular.happened he
  unstored := ha.unstored.happened ha.regular.unoccupied he
  releasing := ha.releasing.moves ha.regular.accounted ha.regular.answered ha.regular.registered
    ha.regular.stopped (ha.regular.moves he) ha.unstored.lock
    fun x hx => hcut x (ha.regular.isCut_of_cuts hx)

theorem Regular.afterDrain (hw : w.Regular)
    (ht : w.threads[t]? = some (.busy i (.dismantling h .draining)))
    (hh : w.holders[h]? = some holder) (he : w.happen? (.step (.thread t) chance) = some w') :
    w'.AfterDrain holder.registry.links C h t := by
  have hW : w.estate.works[t]? = some (some { holder := h, orderly := true, stage := .draining }) :=
    work_of_call (callOn_eq_some.mpr ht) rfl
  have hhappened := happened_of_happen? he
  refine ⟨hw.happened hhappened,
    (hw.kept.unstored hw.orderly hW rfl).happened hw.unoccupied hhappened, ?_⟩
  rw [estate_drain he ht hh]
  refine Estate.Releasing.start hW rfl rfl hh (fun t' W' hW' hsame => ?_) ?_
  · exact hw.kept.work_unique hw.orderly hW hW' hsame
  · rcases hw.discreet h with hret | hspoken
    · exact hret
    · exact absurd rfl (hspoken.drained t _ hW rfl)

theorem afterDrain_of_run (hw : w.Regular)
    (ht : w.threads[t]? = some (.busy i (.dismantling h .draining)))
    (hh : w.holders[h]? = some holder) (hr : w.run? (.step (.thread t) chance :: es) = some w')
    (hcut : Along (fun w e => ∀ x, w.isCut x e = true → C x) w (.step (.thread t) chance :: es)) :
    w'.AfterDrain holder.registry.links C h t := by
  rw [run?_cons] at hr
  obtain ⟨w₁, he, hr⟩ := Option.bind_eq_some_iff.mp hr
  exact (hcut.2 w₁ he).invariant
    (fun w e w' ha hc he => AfterDrain.happened ha hc (happened_of_happen? he))
    (hw.afterDrain ht hh he) hr

/-- Who has been accepted is there. -/
theorem Regular.link_of_attendant {a : Attendant} (hw : w.Regular)
    (hh : w.holders[h]? = some holder) (ha : a ∈ holder.attendants) :
    ∃ l, w.network.links[a.link]? = some l := by
  rcases hl : w.network.links[a.link]? with _ | l
  · have habsent := hw.accounted.absent a.link (List.getElem?_eq_none_iff.mp hl)
    have hcame := Estate.came_of_attendant (E := w.estate) hh ha
    have hle := Estate.measure_le_total (Holder.came a.link) w.estate h
    unfold Estate.came at habsent
    omega
  · exact ⟨l, rfl⟩

/-- A peer whose connection was closed finds that out with its next read. -/
theorem Regular.woken (hw : w.Regular) {l : Link} (hl : w.network.links[x]? = some l)
    (hclosed : w.network.handles x = 0) (most : Nat) :
    w.network.read? x .caller most ≠ none := by
  have hzero : l.callee.handles = 0 := by
    unfold Network.handles at hclosed
    rwa [Network.view_some hl] at hclosed
  have hover := (hw.sound l (List.mem_of_getElem? hl)).woken hzero
  have hfound : ∃ answer, l.caller.found most = some answer := by
    unfold End.found
    by_cases hinbox : l.caller.inbox = []
    · rcases hover with hended | hreset
      · simp [hinbox, hended]
      · rcases hended : l.caller.ended with _ | _ <;> simp [hinbox, hreset]
    · simp [hinbox]
  obtain ⟨answer, hans⟩ := hfound
  unfold Network.read?
  rw [hl]
  show (l.caller.found most).bind _ ≠ none
  rw [hans]
  cases answer <;> simp

/-- A holder whose release is over has no work any more. -/
structure AfterRelease (B : List LinkId) (h : HolderId) (t : ThreadId) (w : World) : Prop where
  drained : w.AfterDrain B (fun _ => True) h t
  idle : ∀ (t' : ThreadId) (W : Work), w.estate.works[t']? = some (some W) → W.holder ≠ h

theorem AfterDrain.afterRelease {B : List LinkId} (ha : w.AfterDrain B (fun _ => True) h t)
    (hret : ∀ i d, w.threads[t]? ≠ some (.busy i (.dismantling h d))) :
    w.AfterRelease B h t where
  drained := ha
  idle t' W hW hwh := by
    obtain ⟨rfl, -⟩ := ha.releasing.sole t' W hW hwh
    rcases keeper_of_work ha.regular.orderly hW with ⟨-, i, hc⟩ | ⟨-, i, l, -, hl, hs⟩
    · rw [hwh] at hc
      exact hret i _ (callOn_eq_some.mp hc)
    · exact ha.unstored.lock ⟨i, l, hl, hwh ▸ hs⟩

theorem AfterRelease.happened {B : List LinkId} (ha : w.AfterRelease B h t)
    (he : w.Happened e w') : w'.AfterRelease B h t where
  drained := ha.drained.happened (fun _ _ => trivial) he
  idle t' W' hW' hwh := by
    obtain ⟨W₀, hW₀, hworks⟩ := (ha.drained.regular.moves he).works hW'
    cases hworks
    case same => exact ha.idle t' W' hW₀ hwh
    case began hst _ => exact ha.drained.unstored.lock (hwh ▸ hst)
    case laboured hl _ => exact ha.idle t' _ hW₀ (hl.same_holder.1.symm.trans hwh)

/-- Who has been accepted has an attendant. -/
theorem attendant_of_came (hh : w.holders[h]? = some holder)
    (hcame : 0 < w.estate.measure (Holder.came x) h) : ∃ a ∈ holder.attendants, a.link = x := by
  rw [Estate.measure_some hh] at hcame
  obtain ⟨a, hmem, hpos⟩ := exists_of_total_pos hcame
  refine ⟨a, hmem, Decidable.byContradiction fun hne => ?_⟩
  rw [Attendant.came_of_ne hne] at hpos
  cases hpos

theorem AfterRelease.unstranded {B : List LinkId} (ha : w.AfterRelease B h t)
    (hB : ∀ x ∈ B, 0 < w.estate.measure (Holder.came x) h) :
    ∃ holder, w.Unstranded h B holder := by
  have hrel := ha.drained.releasing
  rcases hrel.phase with ⟨W, hW, hwh, -⟩ | ⟨holder, hh, hs⟩
  · exact absurd hwh (ha.idle t W hW)
  · have howned : ∀ a ∈ holder.attendants, w.network.handles a.link = a.stage.handles :=
      fun a hmem => hrel.owned ha.drained.regular.accounted (fun W hW => ha.idle t W hW) hh hs.empty
        hmem
    refine ⟨holder, hh, hs.empty, hs.barred, howned, fun a hmem hgone => ?_, hrel.late holder hh,
      fun x hx => ?_⟩
    · obtain ⟨l, hl⟩ := ha.drained.regular.link_of_attendant hh hmem
      exact ha.drained.regular.woken hl (by rw [howned a hmem, hgone]; rfl)
    · exact attendant_of_came hh (hB x hx)

/-- Who was registered has been accepted. -/
theorem Regular.came_of_registered (hw : w.Regular) (hh : w.holders[h]? = some holder)
    (hx : x ∈ holder.registry.links) : 0 < w.estate.measure (Holder.came x) h := by
  have hpos := (Holder.Has.filed hx).pos
  have hpens := Estate.pens_of_holder (E := w.estate) hh x
  exact hw.accounted.came_of_pens (k := h) (by omega)

/-- Who has been accepted stays accepted. -/
theorem came_le_run (hw : w.Regular) (hr : w.run? es = some w') (h : HolderId) (x : LinkId) :
    w.estate.measure (Holder.came x) h ≤ w'.estate.measure (Holder.came x) h :=
  hw.run_invariant (P := fun v => w.estate.measure (Holder.came x) h ≤ v.estate.measure (Holder.came x) h)
    (fun _ _ _ hv hle he => Nat.le_trans hle ((hv.moves he).came_le h x)) (Nat.le_refl _) hr

/-- Who is registered is open. -/
theorem Regular.open_of_registered (hw : w.Regular) (hh : w.holders[h]? = some holder)
    (hx : x ∈ holder.registry.links) :
    w.network.isShut x = false ∧ w.network.handles x ≠ 0 := by
  refine ⟨(hw.answered (.holder hh (.filed hx))).2, ?_⟩
  have hle : holder.owns x ≤ w.network.handles x := hw.accounted.owns_le hh x
  have hcount := List.count_pos_iff.mpr hx
  unfold Holder.owns at hle
  omega

/-- After a release its holder has nothing registered, and never again; each connection it accepted
is closed, or still its attendant's; and those registered when the release began, they alone, were
told of it before they were shut or closed, but for writes that the system cut short. -/
theorem release_strands_none {terrain : Terrain} (h₁ : (World.blank terrain).run? es₁ = some w₁)
    (ht : w₁.threads[t]? = some (.busy i (.dismantling h .draining)))
    (hh : w₁.holders[h]? = some holder)
    (h₂ : w₁.run? (.step (.thread t) chance :: es₂) = some w₂)
    (hret : ∀ i d, w₂.threads[t]? ≠ some (.busy i (.dismantling h d)))
    (h₃ : w₂.run? es₃ = some w₃) :
    (∃ holder', w₃.Unstranded h holder.registry.links holder') ∧
      ∀ x ∈ holder.registry.links,
        Along (fun w e => w.isCut x e = false) w₁ (.step (.thread t) chance :: (es₂ ++ es₃)) →
          w₃.network.said x = script ∧
          w₁.Always (fun w => w.network.isShut x = true ∨ w.network.handles x = 0 →
            w.network.said x = script) (.step (.thread t) chance :: (es₂ ++ es₃)) := by
  have hreg : w₁.Regular := (Regular.blank terrain).run h₁
  have hrun : w₁.run? (.step (.thread t) chance :: (es₂ ++ es₃)) = some w₃ := by
    rw [← List.cons_append, run?_append, h₂]
    exact h₃
  have hover : w₃.AfterRelease holder.registry.links h t := by
    have hdrained := afterDrain_of_run (C := fun _ => True) hreg ht hh h₂
      (.of_forall fun _ _ _ _ => trivial)
    exact foldlM_invariant (fun w e w' _ ha he => ha.happened (happened_of_happen? he))
      (hdrained.afterRelease hret) h₃
  refine ⟨hover.unstranded fun x hx => ?_, fun x hx huncut => ?_⟩
  · exact Nat.lt_of_lt_of_le (hreg.came_of_registered hh hx) (came_le_run hreg hrun h x)
  -- Cuts elsewhere do not matter for this connection.
  have hcut : Along (fun w e => ∀ y, w.isCut y e = true → y ≠ x) w₁
      (.step (.thread t) chance :: (es₂ ++ es₃)) := by
    refine huncut.mono fun w e hnot y hy heq => ?_
    rw [heq, hnot] at hy
    cases hy
  constructor
  · have hdrained := afterDrain_of_run (C := (· ≠ x)) hreg ht hh hrun hcut
    rcases hdrained.releasing.told x hx with ⟨W, hW, hwh, -⟩ | hne | hfull
    · exact absurd hwh (hover.idle t W hW)
    · exact absurd rfl hne
    · exact hfull
  · intro es' es'' w hsplit hr hgone
    rcases es' with _ | ⟨e, es'⟩
    · cases hr
      obtain ⟨hshut, hopen⟩ := hreg.open_of_registered hh hx
      rcases hgone with hgone | hgone
      · rw [hshut] at hgone; cases hgone
      · exact absurd hgone hopen
    · rw [hsplit] at hcut
      obtain ⟨rfl, -⟩ := List.cons.inj hsplit
      have hdrained := afterDrain_of_run (C := (· ≠ x)) hreg ht hh hr hcut.left
      rcases hdrained.releasing.announced hdrained.regular.accounted hdrained.regular.answered hx
        hgone with hne | hfull
      · exact absurd rfl hne
      · exact hfull

/-- Two peers ask whether the port is held. One is registered, the other one answered; then the
release begins. -/
def lateFiling : List Event :=
  [.newLock {}, .newThread, .begins 0 0 .acquire] ++ turns 6 (.thread 0) ++
  [.call { host := .loopback, port := 40000 } ({} : Settings).endpoint,
    .call { host := .loopback, port := 40001 } ({} : Settings).endpoint,
    .deed 0 (.write (Text.encode Message.check.line)),
    .deed 1 (.write (Text.encode Message.check.line))] ++
  turns 4 (.worker 0) ++ turns 6 (.attendant 0 0) ++ turns 3 (.attendant 0 1) ++
  [.begins 0 0 .release] ++ turns 2 (.thread 0)

/-- The second peer is filed after the registry was emptied, and swept. -/
def lateSweep : List Event :=
  turns 3 (.attendant 0 1) ++ turns 4 (.thread 0) ++ turns 1 (.worker 0) ++ turns 4 (.thread 0)

/-- Both attendants end. -/
def lateEnd : List Event := turns 1 (.attendant 0 0) ++ turns 1 (.attendant 0 1)

theorem late_filing_stranded_none :
    ∃ w holder, (World.blank .usual).run?
        (lateFiling ++ .step (.thread 0) .plain :: (lateSweep ++ lateEnd)) = some w ∧
      w.Unstranded 0 [0] holder ∧ w.network.said 0 = script := by
  obtain ⟨w₁, h₁⟩ := Option.isSome_iff_exists.mp
    (by decide +kernel : ((World.blank .usual).run? lateFiling).isSome = true)
  have hbegun : ((World.blank .usual).run? lateFiling).all (fun w =>
      w.threads[0]? = some (.busy 0 (.dismantling 0 .draining)) ∧
      (w.holders[0]?).map (·.registry.links) = some [0] ∧
      Along (fun w e => w.isCut 0 e = false) w
        (.step (.thread 0) .plain :: (lateSweep ++ lateEnd))) = true := by decide +kernel
  rw [h₁, Option.all_some, decide_eq_true_eq] at hbegun
  obtain ⟨ht, hlinks, huncut⟩ := hbegun
  obtain ⟨holder, hh, hlinks⟩ := Option.map_eq_some_iff.mp hlinks
  obtain ⟨w₂, h₂⟩ := Option.isSome_iff_exists.mp (by decide +kernel :
    ((World.blank .usual).run? (lateFiling ++ .step (.thread 0) .plain :: lateSweep)).isSome = true)
  have hdone : ((World.blank .usual).run?
      (lateFiling ++ .step (.thread 0) .plain :: lateSweep)).all (fun w =>
      w.threads[0]? = some (.busy 0 .leaving) ∧ (w.run? lateEnd).isSome) = true := by
    decide +kernel
  rw [h₂, Option.all_some, decide_eq_true_eq] at hdone
  obtain ⟨w₃, h₃⟩ := Option.isSome_iff_exists.mp hdone.2
  rw [run?_append, h₁] at h₂
  have h₂ : w₁.run? (.step (.thread 0) .plain :: lateSweep) = some w₂ := h₂
  obtain ⟨⟨holder', hun⟩, htold⟩ := release_strands_none h₁ ht hh h₂
    (fun i d hbusy => by cases hdone.1.symm.trans hbusy) h₃
  rw [hlinks] at hun htold
  refine ⟨w₃, holder', ?_, hun, (htold 0 List.mem_cons_self huncut).1⟩
  rw [run?_append, h₁, ← List.cons_append]
  show w₁.run? (_ ++ _) = _
  rw [run?_append, h₂]
  exact h₃

end LoopbackLock.World
