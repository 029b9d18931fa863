import LoopbackLock.Proofs.Estate.Speech

/-!
# The lock of a registry

Whoever decides about a connection or files it has the registry locked (`Registered`), and nobody
else is said to have it locked (`Manned`). A release tells the workers to stop before it empties the
registry for the second time, and it can do so only when nobody has the registry locked. From then
on the registry stays empty: an attendant that was let in is gone, and no other one is let in
(`Swept`).
-/

namespace LoopbackLock

/-- The attendant has the registry locked. -/
def Attendance.isRegistrar : Attendance → Bool
  | deciding | admitting => true
  | _ => false

theorem Attendance.isRegistrar_turn (t : Turn) : (turn t).isRegistrar = false := by
  unfold turn
  split <;> rfl

theorem Attendance.isRegistrar_written (rest : Bytes) (r : Reply) :
    (written rest r).isRegistrar = false := by
  unfold written
  split
  · split
    · rfl
    · split <;> rfl
  · split <;> rfl
  · rfl

theorem Attendance.isRegistrar_of_admitting {s : Attendance} (h : s = admitting) :
    s.isRegistrar = true := by
  rw [h]; rfl

namespace Holder

variable {h h' : Holder} {n n' : Network} {k : Nat} {a : Attendant} {s : Attendance}
  {chance : Chance}

/-- An attendant that has the registry locked is the registrar. -/
def Registered (h : Holder) : Prop :=
  ∀ k a, h.attendants[k]? = some a → a.stage.isRegistrar = true → h.registrar = some k

/-- Whoever is the registrar has the registry locked. -/
def Manned (h : Holder) : Prop :=
  ∀ k, h.registrar = some k → ∃ a, h.attendants[k]? = some a ∧ a.stage.isRegistrar = true

/-- The workers were told to stop, and nothing is or gets registered any more. -/
structure Swept (h : Holder) : Prop where
  stopping : h.stopping = true
  empty : h.registry = []
  barred : ∀ a ∈ h.attendants, a.stage ≠ .admitting

theorem Registered.move (hk : h.attendants[k]? = some a)
    (hrest : ∀ j a, j ≠ k → h.attendants[j]? = some a → a.stage.isRegistrar = true →
      h.registrar = some j)
    (hmine : s.isRegistrar = true → h.registrar = some k) : (h.move k s).Registered := by
  intro j a' hj hreg
  show h.registrar = some j
  rw [attendants_move hk] at hj
  by_cases hjk : j = k
  · rw [if_pos hjk] at hj
    cases hj
    rw [hjk]
    exact hmine hreg
  · rw [if_neg hjk] at hj
    exact hrest j a' hjk hj hreg

theorem Registered.settle (hr : h.Registered) (n : Network) : (h.settle n).1.Registered := by
  obtain ⟨registry, he⟩ := h.settle_eq n
  rw [he]
  exact hr

theorem Registered.attended (hr : h.Registered) (ha : h.Attended n k a chance h' n')
    (hk : h.attendants[k]? = some a) : h'.Registered := by
  have hcalm : ∀ {s : Attendance}, s.isRegistrar = false → (h.move k s).Registered := by
    intro s hs
    exact Registered.move hk (fun j a' _ => hr j a') fun hm => by rw [hs] at hm; cases hm
  -- When the registrar leaves the registry, nobody else has it locked.
  have hleft : a.stage.isRegistrar = true → ∀ j a', j ≠ k → h.attendants[j]? = some a' →
      a'.stage.isRegistrar = true → none = some j := by
    intro hmine j a' hjk hj hreg
    have hsame := (hr k a hk hmine).symm.trans (hr j a' hj hreg)
    exact absurd (Option.some.inj hsame).symm hjk
  rcases ha with hs | hs | ⟨hs, hh⟩ | ⟨hs, hh⟩ | ⟨hs, hw⟩ | ⟨hs, hfree⟩ | ⟨hs, hstop⟩ | ⟨hs, hstop⟩ |
    hs | hs
  case refused => exact hcalm rfl
  case prepared => exact hcalm rfl
  case heard => exact hcalm (Attendance.isRegistrar_turn _)
  case missed => exact hcalm (Attendance.isRegistrar_turn _)
  case answered => exact hcalm (Attendance.isRegistrar_written ..)
  case queued =>
    refine Registered.move (h := { h with registrar := some k }) hk (fun j a' hjk hj hreg => ?_)
      fun _ => rfl
    cases hfree.symm.trans (hr j a' hj hreg)
  case dismissed =>
    exact Registered.move (h := { h with registrar := none }) hk (hleft (by rw [hs]; rfl))
      fun hm => Bool.noConfusion hm
  case welcomed => exact Registered.move hk (fun j a' _ => hr j a') fun _ => hr k a hk (by rw [hs]; rfl)
  case admitted =>
    exact Registered.move (h := (h.enroll n a chance).1) hk (hleft (by rw [hs]; rfl))
      fun hm => Bool.noConfusion hm
  case parted => exact (hcalm rfl).settle _

theorem Registered.attach (hr : h.Registered) (n : Network) (x : LinkId) :
    (h.attach n x).Registered := by
  intro j a hj hreg
  have hj : (h.attendants ++ [_])[j]? = some a := hj
  rcases getElem?_concat_cases hj with ⟨-, rfl⟩ | hold
  · cases hreg
  · exact hr j a hold hreg

theorem Registered.polled (hr : h.Registered) (hp : h.Polled n h' n') : h'.Registered := by
  rcases hp with ⟨hw, hs⟩ | ⟨hw, hwork⟩ | ⟨hw, hx⟩
  case stopped =>
    have hgone : ({ h with worker := .gone } : Holder).Registered := hr
    exact hgone.settle _
  case turned => exact hr
  case attached => exact hr.attach _ _

theorem Manned.move (hk : h.attendants[k]? = some a)
    (hrest : ∀ j, j ≠ k → h.registrar = some j →
      ∃ a, h.attendants[j]? = some a ∧ a.stage.isRegistrar = true)
    (hmine : h.registrar = some k → s.isRegistrar = true) : (h.move k s).Manned := by
  intro j hj
  have hj : h.registrar = some j := hj
  rw [attendants_move hk]
  by_cases hjk : j = k
  · subst hjk
    exact ⟨_, if_pos rfl, hmine hj⟩
  · rw [if_neg hjk]
    exact hrest j hjk hj

theorem Manned.settle (hm : h.Manned) (n : Network) : (h.settle n).1.Manned := by
  obtain ⟨registry, he⟩ := h.settle_eq n
  rw [he]
  exact hm

theorem Manned.attended (hm : h.Manned) (ha : h.Attended n k a chance h' n')
    (hk : h.attendants[k]? = some a) : h'.Manned := by
  -- An attendant that is not at the registry is not the registrar.
  have hcalm : ∀ {s : Attendance}, a.stage.isRegistrar = false → (h.move k s).Manned := by
    intro s hs
    refine Manned.move hk (fun j _ => hm j) fun hreg => ?_
    obtain ⟨a', hk', ha'⟩ := hm k hreg
    obtain rfl := Option.some.inj (hk.symm.trans hk')
    cases hs.symm.trans ha'
  have hfree : ∀ {h₁ : Holder} {s : Attendance}, h₁.registrar = none →
      (h₁.move k s).Manned := by
    intro h₁ s hnone j hj
    cases hnone.symm.trans hj
  rcases ha with hs | hs | ⟨hs, hh⟩ | ⟨hs, hh⟩ | ⟨hs, hw⟩ | ⟨hs, hr⟩ | ⟨hs, hstop⟩ | ⟨hs, hstop⟩ |
    hs | hs
  case queued =>
    refine Manned.move (h := { h with registrar := some k }) hk (fun j hjk hj => ?_) fun _ => rfl
    exact absurd (Option.some.inj hj).symm hjk
  case dismissed => exact hfree rfl
  case welcomed => exact Manned.move hk (fun j _ => hm j) fun _ => rfl
  case admitted => exact hfree rfl
  case parted => exact (hcalm (s := .gone) (by rw [hs]; rfl)).settle _
  all_goals exact hcalm (by rw [hs]; rfl)

theorem Manned.polled (hm : h.Manned) (hp : h.Polled n h' n') : h'.Manned := by
  rcases hp with ⟨hw, hs⟩ | ⟨hw, hwork⟩ | ⟨hw, hx⟩
  case stopped =>
    have hgone : ({ h with worker := .gone } : Holder).Manned := hm
    exact hgone.settle _
  case turned => exact hm
  case attached =>
    intro j hj
    obtain ⟨a, ha, hreg⟩ := hm j hj
    refine ⟨a, ?_, hreg⟩
    show (h.attendants ++ [_])[j]? = some a
    rw [List.getElem?_append_left (List.getElem?_eq_some_iff.mp ha).1]
    exact ha

theorem Swept.move (hs : h.Swept) (hne : s ≠ .admitting) : (h.move k s).Swept where
  stopping := hs.stopping
  empty := hs.empty
  barred a ha := by
    obtain ⟨j, hj⟩ := List.getElem?_of_mem ha
    have hj : (h.attendants.modify k _)[j]? = some a := hj
    rw [List.getElem?_modify] at hj
    obtain ⟨a₀, ha₀, rfl⟩ := Option.map_eq_some_iff.mp hj
    split
    · exact hne
    · exact hs.barred a₀ (List.mem_of_getElem? ha₀)

theorem Swept.settle (hs : h.Swept) (n : Network) : (h.settle n).1.Swept := by
  unfold Holder.settle
  split
  · exact ⟨hs.stopping, rfl, hs.barred⟩
  · exact hs

theorem Swept.attended (hs : h.Swept) (ha : h.Attended n k a chance h' n')
    (hk : h.attendants[k]? = some a) : h'.Swept := by
  have hcalm : ∀ {s : Attendance}, s.isRegistrar = false → s ≠ .admitting := by
    rintro s hs rfl
    cases hs
  rcases ha with hst | hst | ⟨hst, hh⟩ | ⟨hst, hh⟩ | ⟨hst, hw⟩ | ⟨hst, hr⟩ | ⟨hst, hstop⟩ |
    ⟨hst, hstop⟩ | hst | hst
  case queued =>
    exact (⟨hs.stopping, hs.empty, hs.barred⟩ : ({ h with registrar := some k } : Holder).Swept).move
      (by simp)
  case dismissed =>
    exact (⟨hs.stopping, hs.empty, hs.barred⟩ : ({ h with registrar := none } : Holder).Swept).move
      (by simp)
  case welcomed => cases hs.stopping.symm.trans hstop
  case admitted => exact absurd hst (hs.barred a (List.mem_of_getElem? hk))
  case parted => exact (hs.move (by simp)).settle _
  case heard => exact hs.move (hcalm (Attendance.isRegistrar_turn _))
  case missed => exact hs.move (hcalm (Attendance.isRegistrar_turn _))
  case answered => exact hs.move (hcalm (Attendance.isRegistrar_written ..))
  case refused => exact hs.move (by simp)
  case prepared => exact hs.move (by simp)

theorem Swept.polled (hs : h.Swept) (hp : h.Polled n h' n') : h'.Swept := by
  rcases hp with ⟨hw, hst⟩ | ⟨hw, hwork⟩ | ⟨hw, hx⟩
  case stopped =>
    exact (⟨hs.stopping, hs.empty, hs.barred⟩ : ({ h with worker := .gone } : Holder).Swept).settle _
  case turned => exact ⟨hs.stopping, hs.empty, hs.barred⟩
  case attached =>
    refine ⟨hs.stopping, hs.empty, fun a ha => ?_⟩
    rcases List.mem_append.mp ha with ha | ha
    · exact hs.barred a ha
    · rw [List.mem_singleton.mp ha]
      simp

theorem Attended.stopping (ha : h.Attended n k a chance h' n') : h'.stopping = h.stopping := by
  cases ha
  case parted => exact settle_stopping ..
  all_goals rfl

theorem Polled.stopping (hp : h.Polled n h' n') : h'.stopping = h.stopping := by
  cases hp
  case stopped => exact settle_stopping ..
  all_goals rfl

end Holder

namespace Estate

variable {E E' : Estate} {stored : HolderId → Prop} {k : HolderId} {holder holder' : Holder}
variable {e : Event} {t : ThreadId} {W : Work}

/-- The locks of all registries are with their registrars. -/
def Registered (E : Estate) : Prop :=
  ∀ (k : HolderId) (holder : Holder), E.holders[k]? = some holder → holder.Registered

theorem Registered.blank (terrain : Terrain) : (World.blank terrain).estate.Registered := by
  intro k holder hh
  cases hh

theorem Turns.registered (ht : E.Turns k holder e E' holder') (hr : holder.Registered) :
    holder'.Registered := by
  cases ht
  case left =>
    have hleft : ({ holder with kept := false } : Holder).Registered := hr
    exact hleft.settle _
  case polled hp => exact hr.polled hp
  case attended hj ha => exact hr.attended ha hj
  all_goals exact hr

theorem Registered.moves (hr : E.Registered) (hm : E.Moves stored e E') : E'.Registered := by
  intro k holder' hh'
  rcases hm.holder_of hh' with ⟨holder, hh, ht⟩ | ⟨-, s, ℓ, rfl⟩
  · exact ht.registered (hr k holder hh)
  · intro j a hj
    cases hj

/-- All registrars have their registries locked. -/
def Manned (E : Estate) : Prop :=
  ∀ (k : HolderId) (holder : Holder), E.holders[k]? = some holder → holder.Manned

theorem Manned.blank (terrain : Terrain) : (World.blank terrain).estate.Manned := by
  intro k holder hh
  cases hh

theorem Turns.manned (ht : E.Turns k holder e E' holder') (hm : holder.Manned) :
    holder'.Manned := by
  cases ht
  case left =>
    have hleft : ({ holder with kept := false } : Holder).Manned := hm
    exact hleft.settle _
  case polled hp => exact hm.polled hp
  case attended hj ha => exact hm.attended ha hj
  all_goals exact hm

theorem Manned.moves (hm' : E.Manned) (hm : E.Moves stored e E') : E'.Manned := by
  intro k holder' hh'
  rcases hm.holder_of hh' with ⟨holder, hh, ht⟩ | ⟨-, s, ℓ, rfl⟩
  · exact ht.manned (hm' k holder hh)
  · intro j hj
    cases hj

theorem Turns.swept (ht : E.Turns k holder e E' holder') (hs : holder.Swept) : holder'.Swept := by
  cases ht
  case same => exact hs
  case emptied => exact ⟨hs.stopping, rfl, hs.barred⟩
  case halted => exact ⟨rfl, hs.empty, hs.barred⟩
  case left =>
    exact (⟨hs.stopping, hs.empty, hs.barred⟩ : ({ holder with kept := false } : Holder).Swept).settle
      _
  case polled hp => exact hs.polled hp
  case attended hj ha => exact hs.attended ha hj
  case shuffled hperm =>
    exact ⟨hs.stopping, (hs.empty ▸ hperm).eq_nil, hs.barred⟩

theorem Turns.stopping (ht : E.Turns k holder e E' holder') (hs : holder.stopping = true) :
    holder'.stopping = true := by
  cases ht
  case halted => rfl
  case left => exact (Holder.settle_stopping ..).trans hs
  case polled hp => exact hp.stopping.trans hs
  case attended ha => exact ha.stopping.trans hs
  all_goals exact hs

/-- The holder of a number is swept. -/
def Swept (E : Estate) (k : HolderId) : Prop := ∃ holder, E.holders[k]? = some holder ∧ holder.Swept

theorem Swept.moves (h : E.Swept k) (hm : E.Moves stored e E') : E'.Swept k := by
  obtain ⟨holder, hh, hs⟩ := h
  obtain ⟨holder', hh', ht⟩ := hm.turns hh
  exact ⟨holder', hh', ht.swept hs⟩

/-- The workers of a holder were told to stop. -/
def IsStopping (E : Estate) (k : HolderId) : Prop :=
  ∃ holder, E.holders[k]? = some holder ∧ holder.stopping = true

theorem IsStopping.moves (h : E.IsStopping k) (hm : E.Moves stored e E') : E'.IsStopping k := by
  obtain ⟨holder, hh, hstop⟩ := h
  obtain ⟨holder', hh', ht⟩ := hm.turns hh
  exact ⟨holder', hh', ht.stopping hstop⟩

/-- A work that joins or sweeps has told the workers to stop. -/
def Stopped (E : Estate) : Prop :=
  ∀ (t : ThreadId) (W : Work), E.works[t]? = some (some W) → W.stage = .joining ∨ W.stage = .sweeping →
    E.IsStopping W.holder

theorem Stopped.blank (terrain : Terrain) : (World.blank terrain).estate.Stopped := by
  intro t W hW
  cases hW

theorem Dismantling.calm_notify (xs : List LinkId) :
    ¬ (Dismantling.notify xs = .joining ∨ Dismantling.notify xs = .sweeping) := by
  cases xs <;> simp [Dismantling.notify]

theorem Dismantling.calm_clear (xs : List LinkId) :
    ¬ (Dismantling.clear xs = .joining ∨ Dismantling.clear xs = .sweeping) := by
  cases xs <;> simp [Dismantling.clear]

/-- A work that comes to joining or sweeping has just stopped the workers, or had done so. -/
theorem Labour.told_to_stop {chance : Chance} {W' : Work} (hl : E.Labour W chance (some W') E')
    (hs' : W'.stage = .joining ∨ W'.stage = .sweeping) :
    W'.holder = W.holder ∧
      ((W.stage = .joining ∨ W.stage = .sweeping) ∨ E'.IsStopping W.holder) := by
  generalize hW' : some W' = W₁ at hl
  cases hl
  case stuck => cases hW'; exact ⟨rfl, .inl hs'⟩
  case drained => cases hW'; exact absurd hs' (Dismantling.calm_notify _)
  case wrote => cases hW'; simp at hs'
  case announced => cases hW'; simp at hs'
  case cut => cases hW'; simp at hs'
  case shut => cases hW'; simp at hs'
  case discarded => cases hW'; exact absurd hs' (Dismantling.calm_notify _)
  case stopped holder hs hh =>
    cases hW'
    refine ⟨rfl, .inr ⟨{ holder with stopping := true }, ?_, rfl⟩⟩
    rw [getElem?_setHolder hh, if_pos rfl]
  case joined hs _ _ => cases hW'; exact ⟨rfl, .inl (.inl hs)⟩
  case swept => cases hW'; exact absurd hs' (Dismantling.calm_clear _)
  case cleared => cases hW'; exact absurd hs' (Dismantling.calm_clear _)
  case abandoned => cases hW'

theorem Stopped.moves (h : E.Stopped) (hm : E.Moves stored e E') : E'.Stopped := by
  intro t W' hW' hs'
  obtain ⟨W, hW, hworks⟩ := hm.works hW'
  cases hworks
  case same => exact (h t W' hW hs').moves hm
  case began hstage =>
    rw [hstage] at hs'
    split at hs' <;> simp at hs'
  case laboured hl hE =>
    obtain ⟨hholder, hs | hstop⟩ := hl.told_to_stop hs'
    · rw [hholder]; exact (h t _ hW hs).moves hm
    · rw [hholder, hE]; exact hstop

end Estate

end LoopbackLock
