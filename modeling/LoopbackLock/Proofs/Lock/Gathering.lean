import LoopbackLock.Lock.Gate
import Mathlib.Data.List.Nodup
import Mathlib.Logic.Function.Basic

/-!
# Threads gathered at a gate

Any number of threads come to a gate, look at it, fall asleep in it and leave it, in any order. A
thread that has been woken and one that has only come look in any order, too, so a newcomer may
take the gate before a thread that was roused for it. A `Gathering` is the gate and the threads
inside it, and counts what each thread did: how often it was let in, and how often it gave up a
hold.

The counts tell whose the gate is and how often (`Gathering.Kept.counted`). An opening gate rouses
one sleeper only; still, as long as it is open and somebody sleeps in it, a thread that was woken
has yet to look (`Gathering.Kept.roused`).
-/

namespace LoopbackLock

/-! ## One look, one leave -/

namespace Gate

variable (g : Gate) (t : ThreadId)

/-- What a look at the gate finds. -/
theorem enter_cases :
    (g.owner = none ∧ g.enter t = (.first, { g with owner := some t, holds := 1 })) ∨
    (g.owner = some t ∧ g.enter t = (.reentered, { g with holds := g.holds + 1 })) ∨
    ∃ o, g.owner = some o ∧ o ≠ t ∧
      g.enter t = (.barred, { g with asleep := g.asleep ++ [t] }) := by
  unfold enter
  rcases ho : g.owner with _ | o
  · exact .inl ⟨rfl, rfl⟩
  · by_cases hot : o = t
    · subst hot
      exact .inr (.inl ⟨rfl, by simp⟩)
    · exact .inr (.inr ⟨o, rfl, hot, by simp [hot]⟩)

/-- What a leave does: nothing for a thread that does not own the gate, one hold less, or the gate
opens and rouses a sleeper. -/
theorem leave_cases (choice : Nat) :
    (g.owner ≠ some t ∧ g.leave t choice = g) ∨
    (g.owner = some t ∧ 2 ≤ g.holds ∧ g.leave t choice = { g with holds := g.holds - 1 }) ∨
    (g.owner = some t ∧ g.holds ≤ 1 ∧ g.leave t choice =
      { owner := none, holds := 0, asleep := g.asleep.eraseIdx (choice % g.asleep.length) }) := by
  unfold leave
  by_cases ho : g.owner = some t
  · by_cases hh : g.holds ≤ 1
    · exact .inr (.inr ⟨ho, hh, by simp [ho, hh, rouseOne]⟩)
    · exact .inr (.inl ⟨ho, by omega, by simp [ho, hh]⟩)
  · exact .inl ⟨ho, by simp [ho]⟩

end Gate

/-! ## Gatherings -/

/-- Where a thread stands that uses a gate. -/
inductive Stance
  /-- It is not entering. -/
  | away
  /-- It has come to enter and has not looked at the gate yet. -/
  | come
  /-- It found the gate owned by another when it looked last. -/
  | barred
  deriving DecidableEq, Repr

/-- A gate and the threads that use it. -/
structure Gathering where
  gate : Gate := {}
  stance : ThreadId → Stance := fun _ => .away
  /-- How often each thread was let in. -/
  entries : ThreadId → Nat := fun _ => 0
  /-- How often each thread gave up a hold. -/
  leaves : ThreadId → Nat := fun _ => 0

/-- What can happen at a gate. -/
inductive Passage
  | comes (t : ThreadId)
  /-- A thread that is entering and not asleep looks at the gate. -/
  | looks (t : ThreadId)
  /-- A thread leaves, whether it owns the gate or not; an opening gate rouses the sleeper of this
  number. -/
  | leaves (t : ThreadId) (choice : Nat)
  /-- A sleeper wakes for no reason. -/
  | stirs (t : ThreadId)
  deriving DecidableEq, Repr

namespace Gathering

/-- One more for a thread. -/
def bump (counts : ThreadId → Nat) (t : ThreadId) : ThreadId → Nat :=
  Function.update counts t (counts t + 1)

/-- A thread looks at the gate: it is let in, or it falls asleep. -/
def look (G : Gathering) (t : ThreadId) : Gathering :=
  match G.gate.enter t with
  | (.barred, gate) => { G with gate, stance := Function.update G.stance t .barred }
  | (_, gate) =>
    { G with
      gate, stance := Function.update G.stance t .away, entries := bump G.entries t }

/-- A thread leaves; that counts when it owns the gate. -/
def leave (G : Gathering) (t : ThreadId) (choice : Nat) : Gathering :=
  { G with
    gate := G.gate.leave t choice
    leaves := if G.gate.owner = some t then bump G.leaves t else G.leaves }

/-- Something happens, if it can. -/
def pass? (G : Gathering) : Passage → Option Gathering
  | .comes t =>
    if G.stance t = .away then some { G with stance := Function.update G.stance t .come } else none
  | .looks t => if G.stance t ≠ .away ∧ t ∉ G.gate.asleep then some (G.look t) else none
  | .leaves t choice => if G.stance t = .away then some (G.leave t choice) else none
  | .stirs t => some { G with gate := G.gate.stir t }

/-- One thing happens after the other. -/
def run? (G : Gathering) (passages : List Passage) : Option Gathering := passages.foldlM pass? G

/-- The thread was asleep in the gate, has been woken, and has not looked again yet. -/
def Woken (G : Gathering) (t : ThreadId) : Prop := G.stance t = .barred ∧ t ∉ G.gate.asleep

/-- What every gathering keeps, after so many passages. -/
structure Kept (G : Gathering) (passed : Nat) : Prop where
  holds_of_open : G.gate.owner = none → G.gate.holds = 0
  holds_pos : ∀ t, G.gate.owner = some t → 1 ≤ G.gate.holds
  counted : ∀ t, G.entries t = G.leaves t + G.gate.holdsOf t
  holds_le : G.gate.holds ≤ passed
  barred : ∀ t ∈ G.gate.asleep, G.stance t = .barred
  nodup : G.gate.asleep.Nodup
  roused : G.gate.owner = none → G.gate.asleep ≠ [] → ∃ t, G.Woken t

variable {G G' : Gathering} {t : ThreadId} {passed choice : Nat}

theorem Kept.start : Kept {} 0 where
  holds_of_open _ := rfl
  holds_pos _ h := by cases h
  counted _ := rfl
  holds_le := Nat.le_refl 0
  barred _ h := by cases h
  nodup := List.nodup_nil
  roused _ h := absurd rfl h

theorem bump_apply (counts : ThreadId → Nat) (t t' : ThreadId) :
    bump counts t t' = if t' = t then counts t' + 1 else counts t' := by
  unfold bump
  by_cases h : t' = t
  · subst h; simp
  · simp [h]

theorem holdsOf_eq (g : Gate) (t : ThreadId) :
    g.holdsOf t = if g.owner = some t then g.holds else 0 := rfl

/-- A thread that comes changes nothing but its own stance. -/
theorem Kept.comes (h : G.Kept passed) (haway : G.stance t = .away) :
    Kept { G with stance := Function.update G.stance t .come } (passed + 1) where
  holds_of_open := h.holds_of_open
  holds_pos := h.holds_pos
  counted := h.counted
  holds_le := Nat.le_succ_of_le h.holds_le
  barred t' hmem := by
    have hbarred := h.barred t' hmem
    have hne : t' ≠ t := fun heq => by rw [heq, haway] at hbarred; cases hbarred
    exact (Function.update_of_ne hne ..).trans hbarred
  nodup := h.nodup
  roused hopen hsleep := by
    obtain ⟨t', hbarred, hawake⟩ := h.roused hopen hsleep
    have hne : t' ≠ t := fun heq => by rw [heq, haway] at hbarred; cases hbarred
    exact ⟨t', (Function.update_of_ne hne ..).trans hbarred, hawake⟩

/-- The counts stay right when a thread is let in once more and has one more hold. -/
theorem Kept.counted_entry {g : Gate} (h : G.Kept passed)
    (hself : g.holdsOf t = G.gate.holdsOf t + 1)
    (hothers : ∀ t', t' ≠ t → g.holdsOf t' = G.gate.holdsOf t') (t' : ThreadId) :
    bump G.entries t t' = G.leaves t' + g.holdsOf t' := by
  rw [bump_apply, h.counted t']
  split
  · next ht => rw [ht, hself, Nat.add_assoc]
  · next ht => rw [hothers t' ht]

/-- The counts stay right when a thread gives up one of its holds. -/
theorem Kept.counted_leave {g : Gate} (h : G.Kept passed)
    (hself : g.holdsOf t + 1 = G.gate.holdsOf t)
    (hothers : ∀ t', t' ≠ t → g.holdsOf t' = G.gate.holdsOf t') (t' : ThreadId) :
    G.entries t' = bump G.leaves t t' + g.holdsOf t' := by
  rw [bump_apply, h.counted t']
  split
  · next ht => rw [ht, ← hself, Nat.add_assoc, Nat.add_comm 1]
  · next ht => rw [hothers t' ht]

/-- A thread that looks owns the gate, or another does; so nobody waits at an open gate. -/
theorem Kept.looks (h : G.Kept passed) (hawake : t ∉ G.gate.asleep) :
    (G.look t).Kept (passed + 1) := by
  have hasleep {s : Stance} : ∀ t' ∈ G.gate.asleep, Function.update G.stance t s t' = .barred := by
    intro t' hmem
    have hne : t' ≠ t := fun heq => hawake (heq ▸ hmem)
    exact (Function.update_of_ne hne ..).trans (h.barred t' hmem)
  unfold look
  rcases G.gate.enter_cases t with ⟨ho, heq⟩ | ⟨ho, heq⟩ | ⟨o, ho, hot, heq⟩
  · rw [heq]
    refine ⟨by simp, by simp, ?_, by simp, hasleep, h.nodup, by simp⟩
    refine h.counted_entry (by simp [holdsOf_eq, ho]) fun t' ht => ?_
    simp [holdsOf_eq, ho, Ne.symm ht]
  · rw [heq]
    refine ⟨by simp [ho], by simp, ?_, Nat.succ_le_succ h.holds_le, hasleep, h.nodup,
      by simp [ho]⟩
    refine h.counted_entry (by simp [holdsOf_eq, ho]) fun t' ht => ?_
    simp [holdsOf_eq, ho, Ne.symm ht]
  · rw [heq]
    refine ⟨by simp [ho], h.holds_pos, h.counted, Nat.le_succ_of_le h.holds_le, ?_, ?_,
      by simp [ho]⟩
    · intro t' hmem
      rcases List.mem_append.mp hmem with hmem | hmem
      · exact hasleep t' hmem
      · rw [List.mem_singleton.mp hmem]
        exact Function.update_self ..
    · exact List.nodup_append_comm.mp (List.nodup_cons.mpr ⟨hawake, h.nodup⟩)

/-- A gate that opens rouses one sleeper, if there is any. -/
theorem Kept.leaves (h : G.Kept passed) : (G.leave t choice).Kept (passed + 1) := by
  unfold leave
  rcases G.gate.leave_cases t choice with ⟨ho, heq⟩ | ⟨ho, hmore, heq⟩ | ⟨ho, hlast, heq⟩
  · rw [heq, if_neg ho]
    exact { h with holds_le := Nat.le_succ_of_le h.holds_le }
  · rw [heq, if_pos ho]
    have hle := h.holds_le
    refine ⟨by simp [ho], fun _ _ => ?_, ?_, ?_, h.barred, h.nodup, by simp [ho]⟩
    · show 1 ≤ G.gate.holds - 1
      omega
    · refine h.counted_leave ?_ fun t' ht => by simp [holdsOf_eq, ho, Ne.symm ht]
      simp only [holdsOf_eq, ho, if_true]
      omega
    · show G.gate.holds - 1 ≤ passed + 1
      omega
  · rw [heq, if_pos ho]
    refine ⟨by simp, by simp, ?_, by simp, fun t' hmem => ?_, h.nodup.eraseIdx _, ?_⟩
    · have hpos := h.holds_pos t ho
      have hone : G.gate.holds = 1 := Nat.le_antisymm hlast hpos
      refine h.counted_leave ?_ fun t' ht => by simp [holdsOf_eq, ho, Ne.symm ht]
      simp [holdsOf_eq, ho, hone]
    · exact h.barred t' (List.eraseIdx_subset hmem)
    · -- The thread that is roused is the one that has yet to look.
      intro _ hsleep
      have hne : G.gate.asleep ≠ [] := fun hnil => hsleep (by simp [hnil])
      have hlt : choice % G.gate.asleep.length < G.gate.asleep.length :=
        Nat.mod_lt _ (List.length_pos_iff.mpr hne)
      refine ⟨G.gate.asleep[choice % G.gate.asleep.length], h.barred _ (List.getElem_mem hlt), ?_⟩
      rw [List.mem_eraseIdx_iff_getElem]
      rintro ⟨i, hi, hik, heq⟩
      exact hik (h.nodup.getElem_inj_iff.mp heq)

/-- A thread that stirs is one more that has yet to look. -/
theorem Kept.stirs (h : G.Kept passed) : Kept { G with gate := G.gate.stir t } (passed + 1) where
  holds_of_open := h.holds_of_open
  holds_pos := h.holds_pos
  counted := h.counted
  holds_le := Nat.le_succ_of_le h.holds_le
  barred t' hmem := h.barred t' (List.mem_of_mem_erase hmem)
  nodup := h.nodup.erase t
  roused hopen hsleep := by
    have hne : G.gate.asleep ≠ [] := fun hnil => hsleep (by simp [Gate.stir, hnil])
    obtain ⟨t', hbarred, hawake⟩ := h.roused hopen hne
    exact ⟨t', hbarred, fun hmem => hawake (List.mem_of_mem_erase hmem)⟩

theorem Kept.pass? {p : Passage} (h : G.Kept passed) (hp : G.pass? p = some G') :
    G'.Kept (passed + 1) := by
  cases p with
  | comes t =>
    obtain ⟨haway, heq⟩ := Option.ite_none_right_eq_some.mp hp
    cases heq
    exact h.comes haway
  | looks t =>
    obtain ⟨⟨-, hawake⟩, heq⟩ := Option.ite_none_right_eq_some.mp hp
    cases heq
    exact h.looks hawake
  | leaves t choice =>
    obtain ⟨-, heq⟩ := Option.ite_none_right_eq_some.mp hp
    cases heq
    exact h.leaves
  | stirs t =>
    cases hp
    exact h.stirs

theorem Kept.run? {passages : List Passage} (h : G.Kept passed)
    (hrun : G.run? passages = some G') : G'.Kept (passed + passages.length) := by
  induction passages generalizing G passed with
  | nil =>
    cases hrun
    exact h
  | cons p passages ih =>
    obtain ⟨G₁, hp, hrun⟩ := Option.bind_eq_some_iff.mp hrun
    have := ih (h.pass? hp) hrun
    rwa [Nat.add_assoc, Nat.add_comm 1] at this

/-- A thread that was let in more often than it has left is the owner. -/
theorem Kept.owner_iff (h : G.Kept passed) (t : ThreadId) :
    G.leaves t < G.entries t ↔ G.gate.owner = some t := by
  rw [h.counted t, holdsOf_eq]
  by_cases ho : G.gate.owner = some t
  · have := h.holds_pos t ho
    simp only [ho, if_true, iff_true]
    omega
  · simp [ho]

/-- A thread that is entering, awake, and looks at an open gate owns it then. -/
theorem pass?_looks (hstance : G.stance t ≠ .away) (hawake : t ∉ G.gate.asleep)
    (hopen : G.gate.owner = none) :
    ∃ G', G.pass? (.looks t) = some G' ∧ G'.gate.owner = some t := by
  refine ⟨G.look t, if_pos ⟨hstance, hawake⟩, ?_⟩
  unfold look Gate.enter
  rw [hopen]

/-- Whatever threads do at a gate, its holds are those of one owner, which has been let in so many
times more than it has left; of no other thread can that be said. Only threads that are entering
sleep. When the gate is open and a thread sleeps in it, another was woken and has yet to look; so
whenever threads are entering an open gate, one of them is awake, and has the gate once it looks. -/
theorem no_lost_wakeup {passages : List Passage} (h : ({} : Gathering).run? passages = some G) :
    (G.gate.owner = none ↔ G.gate.holds = 0) ∧ G.gate.holds ≤ passages.length ∧
    (∀ t, G.leaves t ≤ G.entries t) ∧
    (∀ t, G.leaves t < G.entries t ↔ G.gate.owner = some t) ∧
    (∀ t, G.leaves t < G.entries t → G.gate.holds = G.entries t - G.leaves t) ∧
    (∀ t t', G.leaves t < G.entries t → G.leaves t' < G.entries t' → t = t') ∧
    (∀ t ∈ G.gate.asleep, G.stance t = .barred) ∧
    (G.gate.owner = none → G.gate.asleep ≠ [] → ∃ t, G.Woken t) ∧
    (G.gate.owner = none → (∃ t, G.stance t ≠ .away) → ∃ t G', G.stance t ≠ .away ∧
      G.pass? (.looks t) = some G' ∧ G'.gate.owner = some t) := by
  have hk : G.Kept passages.length := by simpa using Kept.start.run? h
  have howner := hk.owner_iff
  refine ⟨⟨hk.holds_of_open, fun hzero => ?_⟩, hk.holds_le, fun t => ?_, howner, fun t hlt => ?_,
    fun t t' hlt hlt' => ?_, hk.barred, hk.roused, ?_⟩
  · rcases ho : G.gate.owner with _ | o
    · rfl
    · have := hk.holds_pos o ho
      omega
  · rw [hk.counted t]
    exact Nat.le_add_right ..
  · rw [hk.counted t, Gate.holdsOf, if_pos ((howner t).mp hlt), Nat.add_sub_cancel_left]
  · exact Option.some.inj (((howner t).mp hlt).symm.trans ((howner t').mp hlt'))
  · rintro hopen ⟨t, hstance⟩
    by_cases hawake : t ∈ G.gate.asleep
    · obtain ⟨t', hbarred, hawake'⟩ := hk.roused hopen (List.ne_nil_of_mem hawake)
      have hstance' : G.stance t' ≠ .away := by rw [hbarred]; exact nofun
      obtain ⟨G', hlook, howns⟩ := pass?_looks hstance' hawake' hopen
      exact ⟨t', G', hstance', hlook, howns⟩
    · obtain ⟨G', hlook, howns⟩ := pass?_looks hstance hawake hopen
      exact ⟨t, G', hstance, hlook, howns⟩

/-- A thread has the gate twice over, two others fall asleep in it, and it leaves twice. -/
def crowded : List Passage :=
  [.comes 0, .looks 0, .comes 0, .looks 0, .comes 1, .looks 1, .comes 2, .looks 2, .leaves 0 0,
    .leaves 0 1]

theorem crowded_woken :
    ∃ G, ({} : Gathering).run? crowded = some G ∧ G.gate.owner = none ∧ G.gate.asleep = [1] ∧
      ∃ t, G.Woken t := by
  refine ⟨_, rfl, rfl, rfl, ?_⟩
  have hrun : ({} : Gathering).run? crowded = some _ := rfl
  have hmain := no_lost_wakeup hrun
  exact hmain.2.2.2.2.2.2.2.1 rfl nofun

end Gathering

end LoopbackLock
