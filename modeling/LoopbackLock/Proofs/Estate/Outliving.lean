import LoopbackLock.Proofs.Estate.Filing

/-!
# Holders whose lock is gone

A lock that is dropped gives its holder up, but the registry is its attendants' too. So what is
registered stays so until the last attendant is gone, whoever that is, and is given up then
(`Holder.Outlived.attended`). Nobody is registered any more but who was being filed when the lock
gave the holder up.
-/

namespace LoopbackLock

/-- The entries of attendants that are filing their connection. -/
def Holder.incoming (h : Holder) : Registry :=
  (h.attendants.filter (·.stage = .admitting)).map fun a => (a.port, a.link)

namespace Holder

variable {h h' : Holder} {n n' : Network} {k : Nat} {a : Attendant} {s : Attendance}
  {chance : Chance} {R J : Registry} {seen : LinkId → Prop}

theorem mem_incoming (ha : a ∈ h.attendants) (hs : a.stage = .admitting) :
    (a.port, a.link) ∈ h.incoming :=
  List.mem_map.mpr ⟨a, List.mem_filter.mpr ⟨ha, decide_eq_true hs⟩, rfl⟩

/-- A holder whose accepting worker is gone and whose lock has given it up when `R` was registered
and `J` was being filed. Since then no look at those that were `seen` has failed. -/
structure Outlived (R J : Registry) (seen : LinkId → Prop) (n : Network) (h : Holder) : Prop where
  stopping : h.stopping = true
  unkept : h.kept = false
  unworked : h.worker = .gone
  /-- Nothing new is registered. -/
  filed : ∀ e ∈ h.registry, e ∈ R ∨ e ∈ J
  barred : ∀ a ∈ h.attendants, a.stage = .admitting → (a.port, a.link) ∈ J
  /-- The registry is given up when the last attendant is gone. -/
  emptied : (∀ a ∈ h.attendants, a.stage = .gone) → h.registry = []
  /-- Until then an entry stays, unless its peer hangs up, its port is taken or a look at it
  fails. -/
  stays : (∃ a ∈ h.attendants, a.stage ≠ .gone) → ∀ e ∈ R, (∀ j ∈ J, j.1 ≠ e.1) → seen e.2 →
    n.isHungUp e.2 = false → e ∈ h.registry

/-- A holder without a lock and without a worker has its registry given up when the last attendant
is gone. -/
theorem settle_unkept (hkept : h.kept = false) (hworker : h.worker = .gone) (n : Network) :
    (h.settle n).1 =
      { h with registry := if ∀ a ∈ h.attendants, a.stage = .gone then [] else h.registry } := by
  have hforsaken : h.isForsaken = true ↔ ∀ a ∈ h.attendants, a.stage = .gone := by
    simp [isForsaken, hkept, hworker]
  unfold settle
  by_cases hgone : ∀ a ∈ h.attendants, a.stage = .gone
  · rw [if_pos (hforsaken.mpr hgone), if_pos hgone]
  · rw [if_neg (mt hforsaken.mp hgone), if_neg hgone]

theorem mem_attendants_move (hk : h.attendants[k]? = some a) {a' : Attendant}
    (ha' : a' ∈ (h.move k s).attendants) : a' = { a with stage := s } ∨ a' ∈ h.attendants := by
  obtain ⟨j, hj⟩ := List.getElem?_of_mem ha'
  rw [attendants_move hk] at hj
  split at hj
  · exact .inl (Option.some.inj hj).symm
  · exact .inr (List.mem_of_getElem? hj)

theorem move_mem (hk : h.attendants[k]? = some a) (s : Attendance) :
    { a with stage := s } ∈ (h.move k s).attendants :=
  List.mem_of_getElem? (i := k) (by rw [attendants_move hk, if_pos rfl])

/-- A lock gives its holder up. -/
theorem Outlived.abandoned (hstop : h.stopping = true) (hworker : h.worker = .gone)
    (n n' : Network) :
    (({ h with kept := false } : Holder).settle n).1.Outlived h.registry h.incoming seen n' := by
  rw [settle_unkept (h := { h with kept := false }) rfl hworker]
  refine ⟨hstop, rfl, hworker, fun e he => .inl ?_, fun a => mem_incoming, fun hgone => if_pos hgone,
    fun ⟨a, ha, hbusy⟩ e he _ _ _ => ?_⟩
  · dsimp only at he
    split at he
    · cases he
    · exact he
  · dsimp only
    rwa [if_neg fun hgone => hbusy (hgone a ha)]

theorem Outlived.evolved (ho : h.Outlived R J seen n)
    (hup : ∀ x, n.isHungUp x = true → n'.isHungUp x = true) : h.Outlived R J seen n' := by
  obtain ⟨hstop, hkept, hworker, hfiled, hbarred, hemptied, hstays⟩ := ho
  refine ⟨hstop, hkept, hworker, hfiled, hbarred, hemptied, fun hbusy e he hport hseen hopen => ?_⟩
  refine hstays hbusy e he hport hseen ?_
  exact Bool.eq_false_iff.mpr fun h' => Bool.eq_false_iff.mp hopen (hup _ h')

theorem Outlived.registrar (ho : h.Outlived R J seen n) (registrar : Option Nat) :
    ({ h with registrar } : Holder).Outlived R J seen n := by
  obtain ⟨hstop, hkept, hworker, hfiled, hbarred, hemptied, hstays⟩ := ho
  exact ⟨hstop, hkept, hworker, hfiled, hbarred, hemptied, hstays⟩

/-- An attendant goes on behind the registry. -/
theorem Outlived.move (ho : h.Outlived R J seen n) (hk : h.attendants[k]? = some a)
    (hbusy : a.stage ≠ .gone) (hs : s ≠ .gone) (hadm : s ≠ .admitting) :
    (h.move k s).Outlived R J seen n where
  stopping := ho.stopping
  unkept := ho.unkept
  unworked := ho.unworked
  filed := ho.filed
  barred a' ha' hs' := by
    rcases mem_attendants_move hk ha' with rfl | ha'
    · exact absurd hs' hadm
    · exact ho.barred a' ha' hs'
  emptied hgone := absurd (hgone _ (move_mem hk s)) hs
  stays _ := ho.stays ⟨a, List.mem_of_getElem? hk, hbusy⟩

/-- An attendant goes; if it is the last one, the registry is given up. -/
theorem Outlived.parted (ho : h.Outlived R J seen n) (hk : h.attendants[k]? = some a)
    (hbusy : a.stage ≠ .gone) (n₁ : Network) :
    ((h.move k .gone).settle n₁).1.Outlived R J seen n := by
  rw [settle_unkept (h := h.move k .gone) ho.unkept ho.unworked]
  refine ⟨ho.stopping, ho.unkept, ho.unworked, fun e he => ?_, fun a' ha' hs' => ?_,
    fun hgone => if_pos hgone, fun ⟨a', ha', hbusy'⟩ e he hport hseen hopen => ?_⟩
  · dsimp only at he
    split at he
    · cases he
    · exact ho.filed e he
  · rcases mem_attendants_move hk ha' with rfl | ha'
    · cases hs'
    · exact ho.barred a' ha' hs'
  · dsimp only
    rw [if_neg fun hgone => hbusy' (hgone a' ha')]
    exact ho.stays ⟨a, List.mem_of_getElem? hk, hbusy⟩ e he hport hseen hopen

theorem Outlived.shuffled {registry : Registry} (ho : h.Outlived R J seen n)
    (hperm : registry.Perm h.registry) : ({ h with registry } : Holder).Outlived R J seen n where
  stopping := ho.stopping
  unkept := ho.unkept
  unworked := ho.unworked
  filed e he := ho.filed e (hperm.mem_iff.mp he)
  barred := ho.barred
  emptied hgone := (ho.emptied hgone ▸ hperm).eq_nil
  stays hbusy e he hport hseen hopen := hperm.mem_iff.mpr (ho.stays hbusy e he hport hseen hopen)

/-- Who was being filed gets filed; only who has hung up, comes from its port or is not seen
goes. -/
theorem Outlived.admitted (ho : h.Outlived R J seen n) (hk : h.attendants[k]? = some a)
    (hs : a.stage = .admitting) (hsound : n.Sound)
    (hthere : ∀ x ∈ h.registry.links, x < n.links.length)
    (hlook : ∀ x, seen x → chance.blinds x = false) :
    ((h.enroll n a chance).1.move k (.parting 1)).Outlived R J seen n := by
  have hbusy : a.stage ≠ .gone := by rw [hs]; simp
  have hfiling : (a.port, a.link) ∈ J := ho.barred a (List.mem_of_getElem? hk) hs
  have hpart : { a with stage := .parting 1 } ∈ (h.move k (.parting 1)).attendants := move_mem hk _
  refine ⟨ho.stopping, ho.unkept, ho.unworked, fun ⟨p, x⟩ he => ?_, fun a' ha' hs' => ?_,
    fun hgone => ?_, fun _ e he hport hseen hopen => ?_⟩
  · rcases mem_enroll.mp he with heq | ⟨he, -⟩
    · exact .inr (heq ▸ hfiling)
    · exact ho.filed _ he
  · rcases mem_attendants_move (h := h) hk ha' with rfl | ha'
    · cases hs'
    · exact ho.barred a' ha' hs'
  · cases hgone _ hpart
  · have hstays := ho.stays ⟨a, List.mem_of_getElem? hk, hbusy⟩ e he hport hseen hopen
    have hlooks := hsound.looksOpen (hthere e.2 (List.mem_map.mpr ⟨e, hstays, rfl⟩)) hopen
    exact mem_enroll.mpr
      (.inr ⟨hstays, fun heq => hport _ hfiling heq.symm, hlooks, hlook e.2 hseen⟩)

theorem Outlived.attended (ho : h.Outlived R J seen n) (ha : h.Attended n k a chance h' n')
    (hk : h.attendants[k]? = some a) (hsound : n.Sound)
    (hthere : ∀ x ∈ h.registry.links, x < n.links.length)
    (hlook : a.stage = .admitting → ∀ x, seen x → chance.blinds x = false) :
    h'.Outlived R J seen n := by
  have hidle : ∀ {s : Attendance}, s.isRegistrar = false → s ≠ .admitting := by
    rintro s hs rfl
    cases hs
  have hbusy : ∀ {s : Attendance}, s.handles = 2 → s ≠ .gone := by
    rintro s hs rfl
    cases hs
  rcases ha with hs | hs | ⟨hs, hh⟩ | ⟨hs, hh⟩ | ⟨hs, hw⟩ | ⟨hs, hr⟩ | ⟨hs, hstop⟩ | ⟨hs, hstop⟩ |
    hs | hs
  case admitted => exact ho.admitted hk hs hsound hthere (hlook hs)
  case parted => exact ho.parted hk (by rw [hs]; simp) _
  case welcomed => cases ho.stopping.symm.trans hstop
  case queued =>
    exact (ho.registrar (some k)).move hk (by rw [hs]; simp) (by simp) (by simp)
  case dismissed => exact (ho.registrar none).move hk (by rw [hs]; simp) (by simp) (by simp)
  case refused | prepared => exact ho.move hk (by rw [hs]; simp) (by simp) (by simp)
  case heard | missed =>
    exact ho.move hk (by rw [hs]; simp) (hbusy (Attendance.handles_turn _))
      (hidle (Attendance.isRegistrar_turn _))
  case answered =>
    exact ho.move hk (by rw [hs]; simp) (hbusy (Attendance.handles_written ..))
      (hidle (Attendance.isRegistrar_written ..))

end Holder

end LoopbackLock
