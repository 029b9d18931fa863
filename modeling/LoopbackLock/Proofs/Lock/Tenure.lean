import LoopbackLock.Proofs.Lock.Standing

/-!
# What a thread's calls have given it

`Tenure` keeps for one thread and one lock what the thread itself can know: how many of its
acquisitions it has not begun to release, and whether one of them returned that the port is bound.
It is made from the beginnings and the ends of calls alone. `PortLock.Books` ties it to the gate:
the count of the gate is the tenure's, up to what the call under way has not returned yet.
-/

namespace LoopbackLock

/-- What a thread has of a lock by the calls it has made. -/
structure Tenure where
  /-- How many acquisitions are not matched by the beginning of a release. -/
  depth : Nat := 0
  /-- One of them returned that the port is bound. -/
  bound : Bool := false
  deriving DecidableEq, Repr

namespace Tenure

/-- A call has acquired the lock. -/
def acquire (T : Tenure) (how : Acquisition) : Tenure :=
  { depth := T.depth + 1, bound := T.bound || how.isBound }

/-- A release begins; it is the outermost one when one acquisition is left. -/
def release (T : Tenure) : Tenure :=
  if T.depth ≤ 1 then {} else { T with depth := T.depth - 1 }

end Tenure

/-- The tenure after a step of a call. -/
def Progress.tenure (T : Tenure) : Progress Call Ending → Tenure
  | .over (.acquired how) => T.acquire how
  | _ => T

/-- Dropping a lock returns nothing. -/
theorem Progress.tenure_of_isDrop {p : Progress Call Ending} {T : Tenure} (h : p.isDrop = true) :
    p.tenure T = T := by
  rcases p with _ | _ | _ | _ | _
  case «over».acquired => cases h
  all_goals rfl

/-- The holds of a call's thread that its acquisitions have not returned yet, or that its release
has begun to give up. -/
def Call.unreturned : Call → Nat
  | rejoining | contending _ | failing _ | quitting _ | resetting | dismantling .. | leaving => 1
  | entering | counting | retiring | dropping .. => 0

namespace PortLock

/-- The holds of a thread that stands here, as its tenure has them. -/
def Counts (l : PortLock) (t : ThreadId) (T : Tenure) : Option Call → Prop
  | none => T.depth = l.gate.holdsOf t
  | some .counting => T.depth = l.gate.holdsOf t - 1
  | some c => T.depth + c.unreturned = l.gate.holdsOf t

/-- A tenure fits the lock. -/
structure Books (l : PortLock) (t : ThreadId) (T : Tenure) (c : Option Call) : Prop where
  counts : l.Counts t T c
  /-- Who was told that the port is bound still has a hold, and the lock a holder. -/
  bound : T.bound = true → 1 ≤ T.depth ∧ ∃ h, l.state = .holding h

variable {l : PortLock} {t : ThreadId} {T : Tenure}

theorem Owns.holdsOf {n : Nat} (h : l.Owns t n) : l.gate.holdsOf t = n := by
  unfold Gate.holdsOf; rw [if_pos h.1, h.2]

theorem holdsOf_of_ne (h : l.gate.owner ≠ some t) : l.gate.holdsOf t = 0 := by
  unfold Gate.holdsOf; rw [if_neg h]

theorem Books.unbound {c : Option Call} (h : l.Books t T c) (hd : T.depth = 0) :
    T.bound = false := by
  rcases hb : T.bound with _ | _
  · rfl
  · have := (h.bound hb).1; omega

/-- Who has a hold owns the gate. -/
theorem Books.owner {c : Option Call} (h : l.Books t T c) (hd : 1 ≤ T.depth) :
    l.gate.owner = some t := by
  by_cases ho : l.gate.owner = some t
  · exact ho
  · have hc := h.counts
    unfold Counts at hc
    rw [holdsOf_of_ne ho] at hc
    split at hc <;> omega

/-- Without a hold that has returned, nothing is asked of the lock. -/
theorem Books.of_depth {c : Option Call} {l' : PortLock} {c' : Option Call} (h : l.Books t T c)
    (hd : T.depth = 0) (hc : l'.Counts t T c') : l'.Books t T c' :=
  ⟨hc, fun hb => by simp [h.unbound hd] at hb⟩

/-- An acquisition begins with the books as they are. -/
theorem Books.acquire (h : l.Books t T none) : l.Books t T (some .acquire) := ⟨h.counts, h.bound⟩

/-- A release begins with one acquisition less. -/
theorem Books.release (h : l.Books t T none) : l.Books t T.release (some .release) := by
  have hc : T.depth = l.gate.holdsOf t := h.counts
  unfold Tenure.release
  by_cases hd : T.depth ≤ 1
  · rw [if_pos hd]
    exact ⟨by show 0 = l.gate.holdsOf t - 1; omega, fun hb => by cases hb⟩
  · rw [if_neg hd]
    refine ⟨by show T.depth - 1 = l.gate.holdsOf t - 1; rw [hc], fun hb => ?_⟩
    exact ⟨by show 1 ≤ T.depth - 1; omega, (h.bound hb).2⟩

/-- A contender goes on, fails, or has acquired the lock; it is told that the port is bound only
with a holder in the lock. -/
theorem contend_cases (l : PortLock) (c : Contention) (r : Reply) :
    (∃ c', (l.contend c r).2 = .going (.contending c')) ∨
      (∃ why, (l.contend c r).2 = .going (.failing why)) ∨
      ∃ how, (l.contend c r).2 = .over (.acquired how) ∧
        (how.isBound = true → ∃ h, (l.contend c r).1.state = .holding h) := by
  unfold PortLock.contend
  fun_cases Contention.step l.settings c r
  all_goals simp_all [Contention.stored?, Acquisition.isBound]

theorem Books.contend {c : Contention} (r : Reply) (ho : l.Owns t 1)
    (h : l.Books t T (some (.contending c))) :
    (l.contend c r).1.Books t ((l.contend c r).2.tenure T) (l.contend c r).2.call? := by
  have hd : T.depth = 0 := by
    have hc : T.depth + 1 = l.gate.holdsOf t := h.counts
    rw [ho.holdsOf] at hc; omega
  have hh : (l.contend c r).1.gate.holdsOf t = 1 := by rw [contend_gate, ho.holdsOf]
  rcases contend_cases l c r with ⟨c', hp⟩ | ⟨why, hp⟩ | ⟨how, hp, hbound⟩
  · rw [hp]; exact h.of_depth hd (by show T.depth + 1 = _; omega)
  · rw [hp]; exact h.of_depth hd (by show T.depth + 1 = _; omega)
  · rw [hp]
    refine ⟨by show T.depth + 1 = _; omega, fun hb => ⟨Nat.succ_pos _, hbound ?_⟩⟩
    simpa [Progress.tenure, Tenure.acquire, h.unbound hd] using hb

/-- A lock that is taken is acquired again as it was acquired. -/
theorem holding_of_acquisition (hs : l.state.isTaken = true)
    (ha : l.acquisition.isBound = true) : ∃ h, l.state = .holding h := by
  unfold acquisition at ha
  rcases hst : l.state with _ | _ | _ | h | _
  case holding => exact ⟨h, rfl⟩
  all_goals simp_all [LockState.isTaken, Acquisition.isBound]

/-- Whatever is replied, a step keeps the books. -/
theorem Books.step {c : Call} (r : Reply) (hs : l.Stands t (some c))
    (h : l.Books t T (some c)) (hdrop : c.isDrop = false) :
    (l.step t c r).1.Books t ((l.step t c r).2.tenure T) (l.step t c r).2.call? := by
  fun_cases PortLock.step l t c r
  case case1 =>
    have hc : T.depth = l.gate.holdsOf t := h.counts
    rcases ho : l.gate.owner with _ | o
    · rw [enter_open ho]
      have hd : T.depth = 0 := by rw [hc, holdsOf_of_ne (by simp [ho])]
      exact h.of_depth hd (by show T.depth + 1 = _; simp [Gate.holdsOf, hd])
    · by_cases hot : o = t
      · subst hot
        rw [enter_own ho]
        exact ⟨by show T.depth + 1 = _; simp [Gate.holdsOf, ho, hc], h.bound⟩
      · rw [enter_barred ho hot]
        exact ⟨hc, h.bound⟩
  case case2 =>
    refine ⟨h.counts, fun hb => ⟨Nat.succ_pos _, ?_⟩⟩
    rcases hT : T.bound with _ | _
    · exact holding_of_acquisition hs.2 (by simpa [Progress.tenure, Tenure.acquire, hT] using hb)
    · exact (h.bound hT).2
  case case3 c => exact h.contend r hs.1
  case case4 =>
    have hc : T.depth + 1 = l.gate.holdsOf t := h.counts
    rw [hs.1.holdsOf] at hc
    exact h.of_depth (by omega) h.counts
  case case5 choice =>
    have hc : T.depth + 1 = l.gate.holdsOf t := h.counts
    rw [hs.1.holdsOf] at hc
    obtain ⟨asleep, hl⟩ := leave_last hs.1 choice
    rw [hl]
    exact h.of_depth (by omega) (by show T.depth = _; simp [Gate.holdsOf]; omega)
  case case6 =>
    have hc : T.depth = l.gate.holdsOf t - 1 := h.counts
    unfold PortLock.count
    rcases hn : l.gate.holdsOf t with _ | _ | n
    · exact ⟨by show T.depth = l.gate.holdsOf t; omega, h.bound⟩
    · exact ⟨by show T.depth + 1 = l.gate.holdsOf t; omega, h.bound⟩
    · exact ⟨by show T.depth + 1 = l.gate.holdsOf t; omega, h.bound⟩
  case case7 next =>
    have hc : T.depth + 1 = l.gate.holdsOf t := h.counts
    rw [hs.1.holdsOf] at hc
    refine h.of_depth (by omega) ?_
    show PortLock.Counts _ t T (some next)
    rcases hst : l.state with _ | _ | _ | holder | _
    all_goals simp only [next, hst]; exact h.counts
  case case8 | case9 => exact ⟨h.counts, h.bound⟩
  case case10 choice =>
    have hc : T.depth + 1 = l.gate.holdsOf t := h.counts
    rcases hs with ⟨⟨n, ho⟩, -⟩ | ⟨ho, -⟩
    · rw [ho.holdsOf] at hc
      rw [leave_more ho]
      exact ⟨by show T.depth = _; simp [Gate.holdsOf, ho.1]; omega, h.bound⟩
    · rw [ho.holdsOf] at hc
      obtain ⟨asleep, hl⟩ := leave_last ho choice
      rw [hl]
      exact h.of_depth (by omega) (by show T.depth = _; simp [Gate.holdsOf]; omega)
  case case15 => exact h
  all_goals simp [Call.isDrop] at hdrop

/-- The books of another thread are kept as well. -/
theorem Books.of_step {c : Call} {t' : ThreadId} {c' : Option Call} (r : Reply) (hne : t' ≠ t)
    (hs : l.Stands t (some c)) (h : l.Books t' T c') : (l.step t c r).1.Books t' T c' := by
  rcases step_other r hne hs with ⟨ho, ho'⟩ | ⟨asleep, hl⟩
  · have hsame : (l.step t c r).1.gate.holdsOf t' = l.gate.holdsOf t' := by
      rw [holdsOf_of_ne ho, holdsOf_of_ne ho']
    have hcounts : (l.step t c r).1.Counts t' T c' := by
      have hc := h.counts
      unfold Counts at hc ⊢
      rwa [hsame]
    refine h.of_depth ?_ hcounts
    have hc := h.counts
    unfold Counts at hc
    rw [holdsOf_of_ne ho] at hc
    split at hc <;> omega
  · rw [hl]
    exact ⟨h.counts, h.bound⟩

end PortLock

end LoopbackLock
