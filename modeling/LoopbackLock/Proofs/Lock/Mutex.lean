import LoopbackLock.Proofs.Lock.Tenure

/-!
# The mutex that a lock stands for

A re-entrant mutex is free, or one thread has it, so many times over. A thread gets it when it is
free, or again when it has it already, and then in the way it got it first. A release of the thread
that has it gives up one hold, and any other release nothing.

What the results of calls tell about a mutex, and what a thread's tenure tells, is the same
(`Mutex.tenure_acquire`, `Mutex.tenure_release`). Calls of a lock return nothing that a mutex would
not (`PortLock.Mirrors.settle`).
-/

namespace LoopbackLock

/-- A re-entrant mutex. -/
inductive Mutex
  | free
  /-- The owner has got it once, and again so many times. -/
  | held (owner : ThreadId) (how : Acquisition) (again : Nat)
  deriving DecidableEq, Repr

namespace Mutex

/-- The thread that has the mutex. -/
def owner : Mutex → Option ThreadId
  | free => none
  | held t .. => some t

/-- How many releases free the mutex. -/
def count : Mutex → Nat
  | free => 0
  | held _ _ n => n + 1

/-- How often a thread has the mutex. -/
def holdsOf (m : Mutex) (t : ThreadId) : Nat := if m.owner = some t then m.count else 0

/-- A thread gets the mutex, if it can get it so. -/
def acquire? (t : ThreadId) (how : Acquisition) : Mutex → Option Mutex
  | free => some (held t how 0)
  | held o how₀ n => if o = t ∧ how₀ = how then some (held o how₀ (n + 1)) else none

/-- A thread does not get the mutex, though it is free. -/
def fail? : Mutex → Option Mutex
  | free => some free
  | held .. => none

/-- A thread gives up a hold. -/
def release (t : ThreadId) : Mutex → Mutex
  | free => free
  | held o how 0 => if o = t then free else held o how 0
  | held o how (n + 1) => if o = t then held o how n else held o how (n + 1)

/-- The mutex after a step of a call on it, if the mutex can bear what the call returns. -/
def settle? (m : Mutex) (t : ThreadId) : Progress Call Ending → Option Mutex
  | .over (.acquired how) => m.acquire? t how
  | .over (.failed _) => m.fail?
  | _ => some m

/-- What a thread has of the mutex. -/
def tenure (t : ThreadId) : Mutex → Tenure
  | free => {}
  | held o how n => if o = t then ⟨n + 1, how.isBound⟩ else {}

variable {m m' : Mutex} {t t' : ThreadId} {how : Acquisition}

theorem depth_tenure (m : Mutex) (t : ThreadId) : (m.tenure t).depth = m.holdsOf t := by
  unfold tenure holdsOf
  rcases m with _ | ⟨o, how, n⟩
  · rfl
  · simp only [owner, count, Option.some.injEq]
    split <;> rfl

theorem count_pos (h : m.owner = some t) : 1 ≤ m.count := by
  rcases m with _ | ⟨o, how, n⟩
  · cases h
  · exact Nat.succ_pos n

/-- Who has something of the mutex has the mutex. -/
theorem eq_held (h : 1 ≤ (m.tenure t).depth) : ∃ how n, m = held t how n := by
  rcases m with _ | ⟨o, how, n⟩
  · simp [tenure] at h
  · by_cases hot : o = t
    · exact ⟨how, n, by rw [hot]⟩
    · simp [tenure, hot] at h

/-- Who has the mutex after a release had it before, and in the same way. -/
theorem of_release {o : ThreadId} {n : Nat} (h : m.release t = held o how n) :
    ∃ n₀, m = held o how n₀ := by
  rcases m with _ | ⟨o₀, how₀, _ | n₀⟩
  · cases h
  all_goals
    simp only [release] at h
    split at h <;> cases h <;> exact ⟨_, rfl⟩

/-- To get the mutex changes the tenure of the thread that gets it. -/
theorem tenure_acquire (h : m.acquire? t how = some m') (t' : ThreadId) :
    m'.tenure t' = if t' = t then (m.tenure t').acquire how else m.tenure t' := by
  rcases m with _ | ⟨o, how₀, n⟩
  · cases h
    by_cases htt : t' = t
    · simp [tenure, Tenure.acquire, htt]
    · simp [tenure, htt, Ne.symm htt]
  · obtain ⟨⟨rfl, rfl⟩, heq⟩ := Option.ite_none_right_eq_some.mp h
    cases heq
    by_cases htt : t' = o
    · simp [tenure, Tenure.acquire, htt]
    · simp [tenure, htt, Ne.symm htt]

/-- A release changes the tenure of the thread that releases. -/
theorem tenure_release (m : Mutex) (t t' : ThreadId) :
    (m.release t).tenure t' = if t' = t then (m.tenure t').release else m.tenure t' := by
  rcases m with _ | ⟨o, how, _ | n⟩
  · by_cases htt : t' = t <;> simp [release, tenure, Tenure.release, htt]
  all_goals
    by_cases hot : o = t
    · subst hot
      by_cases hto : t' = o
      · simp [release, tenure, Tenure.release, hto]
      · simp [release, tenure, hto, Ne.symm hto]
    · by_cases htt : t' = t
      · simp [release, tenure, Tenure.release, hot, htt]
      · simp [release, hot, htt]

end Mutex

/-! ## Calls of a lock -/

/-- The state of a lock that was acquired so. -/
def LockState.Tells : LockState → Acquisition → Prop
  | holding _, .bound | assumed, .assumed => True
  | _, _ => False

/-- The phase of a lock that was acquired so. -/
def Acquisition.phase : Acquisition → Phase
  | bound => .holding
  | assumed => .assumed

theorem LockState.Tells.phase {s : LockState} {how : Acquisition} (h : s.Tells how) :
    s.phase = how.phase := by
  cases s <;> cases how <;> first | rfl | cases h

/-- Nothing of the system is asked for. -/
def Request.isIdle : Request → Bool
  | nothing | choose => true
  | _ => false

namespace PortLock

variable {l : PortLock} {t : ThreadId} {c : Call} {T : Tenure} {m : Mutex} {how : Acquisition}

/-- A thread that does not own the gate asks to be let in, or to leave. -/
theorem stage_of_foreign (h : l.Stands t (some c)) (ho : l.gate.owner ≠ some t)
    (hdrop : c.isDrop = false) : c = .entering ∨ c = .counting := by
  have hno : ∀ n, ¬l.Owns t n := fun n hn => ho hn.1
  cases c
  case entering => exact .inl rfl
  case counting => exact .inr rfl
  case retiring | dropping => cases hdrop
  case rejoining => obtain ⟨⟨n, hn⟩, -⟩ := h; exact absurd hn (hno _)
  case leaving =>
    rcases h with ⟨⟨n, hn⟩, -⟩ | ⟨hn, -⟩
    · exact absurd hn (hno _)
    · exact absurd hn (hno _)
  all_goals exact absurd h.1 (hno _)

/-- A thread that does not own the gate asks nothing of the system. -/
theorem request_of_foreign (h : l.Stands t (some c)) (ho : l.gate.owner ≠ some t)
    (hdrop : c.isDrop = false) : c.request l.settings = .nothing := by
  rcases stage_of_foreign h ho hdrop with rfl | rfl <;> rfl

/-- A thread that has something of a lock enters it once more, or leaves it once. -/
theorem stage_of_depth (hs : l.Stands t (some c)) (h : l.Books t T (some c)) (hd : 1 ≤ T.depth)
    (hdrop : c.isDrop = false) :
    c = .entering ∨ c = .rejoining ∨ c = .counting ∨ c = .leaving ∧ ∃ n, l.Owns t (n + 2) := by
  have hone : T.depth + 1 = l.gate.holdsOf t → ¬l.Owns t 1 := fun hc ho => by
    rw [ho.holdsOf] at hc
    omega
  cases c
  case entering => exact .inl rfl
  case rejoining => exact .inr (.inl rfl)
  case counting => exact .inr (.inr (.inl rfl))
  case retiring | dropping => cases hdrop
  case leaving =>
    rcases hs with ⟨hn, -⟩ | ⟨ho, -⟩
    · exact .inr (.inr (.inr ⟨rfl, hn⟩))
    · exact absurd ho (hone h.counts)
  all_goals exact absurd hs.1 (hone h.counts)

/-- As long as a thread has something of a lock, its calls leave the state of the lock as it is and
ask nothing of the system. -/
theorem step_of_depth (r : Reply) (hs : l.Stands t (some c)) (h : l.Books t T (some c))
    (hd : 1 ≤ T.depth) (hdrop : c.isDrop = false) :
    (∃ gate, (l.step t c r).1 = { l with gate }) ∧ (c.request l.settings).isIdle = true := by
  have hgate : ∃ gate, l = { l with gate } := ⟨l.gate, rfl⟩
  rcases stage_of_depth hs h hd hdrop with rfl | rfl | rfl | ⟨rfl, n, hn⟩
  · refine ⟨?_, rfl⟩
    cases r
    case done => exact ⟨_, by rw [PortLock.step, enter_own (h.owner hd)]⟩
    all_goals exact hgate
  · exact ⟨by cases r <;> exact hgate, rfl⟩
  · exact ⟨by cases r <;> exact hgate, rfl⟩
  · refine ⟨?_, rfl⟩
    cases r
    case chosen choice => exact ⟨_, rfl⟩
    all_goals exact hgate

/-- A contender that has the lock tells so in the state. -/
theorem contend_tells {c : Contention} {r : Reply}
    (h : (l.contend c r).2 = .over (.acquired how)) : (l.contend c r).1.state.Tells how := by
  revert h
  unfold PortLock.contend
  fun_cases Contention.step l.settings c r
  all_goals intro h; cases h <;> trivial

theorem tells_acquisition (h : l.state.isTaken = true) : l.state.Tells l.acquisition := by
  unfold acquisition
  rcases hs : l.state with _ | _ | _ | _ | _
  case holding => exact trivial
  case assumed => exact trivial
  all_goals rw [hs] at h; cases h

/-- A state tells one way. -/
theorem tells_unique {s : LockState} {how how' : Acquisition} (h : s.Tells how)
    (h' : s.Tells how') : how = how' := by
  cases s <;> cases how <;> cases how' <;> first | rfl | exact h.elim | exact h'.elim

/-- A call that returns the lock contended for it, or found that the thread had it. -/
theorem acquired_of_step {r : Reply} (h : (l.step t c r).2 = .over (.acquired how)) :
    (∃ c', c = .contending c' ∧ (l.step t c r).1.state.Tells how) ∨
      c = .rejoining ∧ how = l.acquisition ∧ (l.step t c r).1 = l := by
  revert h
  fun_cases PortLock.step l t c r
  case case1 =>
    obtain ⟨_, _, heq, rfl | rfl | rfl⟩ := l.enter_cases t <;> rw [heq] <;> intro h <;> cases h
  case case2 => intro h; cases h; exact .inr ⟨rfl, rfl, rfl⟩
  case case3 c => exact fun h => .inl ⟨c, rfl, contend_tells h⟩
  case case6 =>
    rcases l.count_cases t with heq | heq | heq <;> rw [heq] <;> intro h <;> cases h
  all_goals intro h; cases h

/-- A call that fails is about to leave the gate. -/
theorem failed_of_step {r : Reply} {why : LockError}
    (h : (l.step t c r).2 = .over (.failed why)) : c = .quitting why := by
  revert h
  fun_cases PortLock.step l t c r
  case case1 =>
    obtain ⟨_, _, heq, rfl | rfl | rfl⟩ := l.enter_cases t <;> rw [heq] <;> intro h <;> cases h
  case case3 c =>
    unfold PortLock.contend
    rcases c.step l.settings r with _ | _ | _ <;> intro h <;> cases h
  case case5 => intro h; cases h; rfl
  case case6 =>
    rcases l.count_cases t with heq | heq | heq <;> rw [heq] <;> intro h <;> cases h
  all_goals intro h; cases h

/-- The lock stands for the mutex, whatever calls are under way on it. -/
structure Mirrors (l : PortLock) (calls : ThreadId → Option Call) (m : Mutex) : Prop where
  books : ∀ t, l.Books t (m.tenure t) (calls t)
  tells : ∀ {o how n}, m = .held o how n → l.state.Tells how

variable {calls : ThreadId → Option Call}

/-- Who has the mutex owns the gate. -/
theorem Mirrors.owner {o : ThreadId} {n : Nat} (h : l.Mirrors calls m) (hm : m = .held o how n) :
    l.gate.owner = some o :=
  (h.books o).owner (by simp [hm, Mutex.tenure])

/-- The mutex of a thread that owns the gate, but has not been told so, is free. -/
theorem Mirrors.free (h : l.Mirrors calls m) (ho : l.gate.owner = some t)
    (hd : (m.tenure t).depth = 0) : m = .free := by
  rcases hm : m with _ | ⟨o, how, n⟩
  · rfl
  · obtain rfl : o = t := Option.some.inj ((h.owner hm).symm.trans ho)
    simp [hm, Mutex.tenure] at hd

/-- The mutex can bear what a step of a call returns, and the lock goes on standing for it. -/
theorem Mirrors.settle (h : l.Mirrors calls m) (r : Reply) (hc : calls t = some c)
    (hs : l.Stands t (some c)) (hdrop : c.isDrop = false) :
    ∃ m', m.settle? t (l.step t c r).2 = some m' ∧
      (∀ t', m'.tenure t' =
        if t' = t then (l.step t c r).2.tenure (m.tenure t') else m.tenure t') ∧
      ∀ {o how n}, m' = .held o how n → (l.step t c r).1.state.Tells how := by
  have hbooks : l.Books t (m.tenure t) (some c) := hc ▸ h.books t
  -- The mutex of a thread that has entered the gate once is free until its call returns.
  have hfree : l.Owns t 1 → c.unreturned = 1 → c ≠ .counting → m = .free := by
    intro ho hone hcount
    refine h.free ho.1 ?_
    have hcounts : (m.tenure t).depth + c.unreturned = l.gate.holdsOf t := by
      have := hbooks.counts
      cases c <;> first | exact this | exact absurd rfl hcount
    rw [ho.holdsOf, hone] at hcounts
    omega
  have hstill : m.settle? t (l.step t c r).2 = some m →
      (l.step t c r).2.tenure (m.tenure t) = m.tenure t →
      ∃ m', m.settle? t (l.step t c r).2 = some m' ∧
        (∀ t', m'.tenure t' =
          if t' = t then (l.step t c r).2.tenure (m.tenure t') else m.tenure t') ∧
        ∀ {o how n}, m' = .held o how n → (l.step t c r).1.state.Tells how := by
    intro hsettle htenure
    refine ⟨m, hsettle, fun t' => ?_, fun {o how n} hm => ?_⟩
    · split
      · next htt => rw [htt, htenure]
      · rfl
    · have hstate : (l.step t c r).1.state = l.state := by
        by_cases hot : o = t
        · subst hot
          obtain ⟨⟨gate, hl⟩, -⟩ := step_of_depth r hs hbooks (by simp [hm, Mutex.tenure]) hdrop
          rw [hl]
        · obtain ⟨asleep, hl⟩ := step_foreign r (h.owner hm) hot hs
          rw [hl]
      rw [hstate]
      exact h.tells hm
  rcases hp : (l.step t c r).2 with c' | how | why | _ | _
  case acquired =>
    rw [hp] at hstill
    rcases acquired_of_step hp with ⟨c', rfl, htells⟩ | ⟨rfl, rfl, hl⟩
    · obtain rfl := hfree hs.1 rfl (by simp)
      exact ⟨.held t how 0, rfl, Mutex.tenure_acquire rfl, fun hm => by cases hm; exact htells⟩
    · obtain ⟨⟨n, hn⟩, htaken⟩ := hs
      have hcounts : (m.tenure t).depth + 1 = l.gate.holdsOf t := hbooks.counts
      rw [hn.holdsOf] at hcounts
      obtain ⟨how, k, hm⟩ := Mutex.eq_held (m := m) (t := t) (by omega)
      obtain rfl := tells_unique (h.tells hm) (tells_acquisition htaken)
      have hsettle : m.acquire? t l.acquisition = some (.held t l.acquisition (k + 1)) := by
        rw [hm]
        exact if_pos ⟨rfl, rfl⟩
      refine ⟨_, hsettle, Mutex.tenure_acquire hsettle, fun hm' => ?_⟩
      cases hm'
      rw [hl]
      exact h.tells hm
  case failed =>
    obtain rfl := failed_of_step hp
    obtain rfl := hfree hs.1 rfl (by simp)
    exact ⟨.free, rfl, fun t' => by split <;> rfl, fun hm => by cases hm⟩
  all_goals
    rw [hp] at hstill
    exact hstill rfl rfl

end PortLock

end LoopbackLock
