import LoopbackLock.Lock.Call

/-!
# What a call says about its lock

Where a call stands tells what its thread has: whether it owns the gate, how often, and what the
lock stores about itself. `PortLock.Stands` says so for each stage of a call, and for a thread in no
call. Whatever the system replies, a step leads from one such stage to another (`stands_step`), and
what the other threads stand on stays as it is (`Stands.of_step`).
-/

namespace LoopbackLock

/-- A lock that somebody has. -/
def LockState.isTaken : LockState → Bool
  | holding _ | assumed => true
  | _ => false

/-- What the lock stores while its contender stands here. -/
def Contention.Fits : Contention → LockState → Prop
  | announcing, s => s = .idle ∨ s = .waiting
  | binding, s | unblocking _, s | founding _, s | unbinding .., s | installing _, s
  | yielding, s => s = .acquiring
  | watching _, s | assuming, s => s = .waiting

/-- The call of an activity that goes on. -/
def Progress.call? : Progress Call Ending → Option Call
  | .going call => some call
  | .over _ => none

/-- What is left of a lock after a step of a call on it. -/
def Progress.slot (lock : PortLock) : Progress Call Ending → Option PortLock
  | .over .dropped => none
  | _ => some lock

/-- The activity goes on dropping the lock, or has dropped it. -/
def Progress.isDrop : Progress Call Ending → Bool
  | .going call => call.isDrop
  | .over .dropped => true
  | .over _ => false

theorem Progress.call?_eq_some {p : Progress Call Ending} {c : Call} (h : p.call? = some c) :
    p = .going c := by
  rcases p with c' | _
  · cases h; rfl
  · cases h

theorem Progress.slot_eq_some {p : Progress Call Ending} {l l₁ : PortLock} (h : p.slot l = some l₁) :
    l₁ = l := by
  rcases p with _ | (_ | _ | _ | _) <;> cases h <;> rfl

/-- Only dropping a lock removes it. -/
theorem Progress.slot_of_not_isDrop {p : Progress Call Ending} {l : PortLock} (h : p.isDrop = false) :
    ∃ l₁, p.slot l = some l₁ := by
  rcases p with _ | (_ | _ | _ | _)
  case «over».dropped => cases h
  all_goals exact ⟨l, rfl⟩

namespace PortLock

/-- The count and the state of a lock fit its gate. -/
structure Gated (l : PortLock) : Prop where
  holds_of_open : l.gate.owner = none → l.gate.holds = 0
  idle_of_open : l.gate.owner = none → l.state = .idle
  holds_pos : ∀ t, l.gate.owner = some t → 1 ≤ l.gate.holds

/-- The thread owns the gate, so many times over. -/
def Owns (l : PortLock) (t : ThreadId) (holds : Nat) : Prop :=
  l.gate.owner = some t ∧ l.gate.holds = holds

/-- The thread owns the gate only if the lock is taken. -/
def AtRest (l : PortLock) (t : ThreadId) : Prop :=
  l.gate.owner = some t → l.state.isTaken = true

/-- What a thread has of a lock when it stands here in a call on it, or in none. -/
def Stands (l : PortLock) (t : ThreadId) : Option Call → Prop
  | none | some .entering | some .counting | some .retiring => l.AtRest t
  | some .rejoining => (∃ n, l.Owns t (n + 2)) ∧ l.state.isTaken = true
  | some (.contending c) => l.Owns t 1 ∧ c.Fits l.state
  | some (.failing _) => l.Owns t 1 ∧ (l.state = .acquiring ∨ l.state = .waiting)
  | some (.quitting _) | some (.dismantling ..) => l.Owns t 1 ∧ l.state = .idle
  | some .resetting => l.Owns t 1 ∧ l.state.isTaken = true
  | some .leaving =>
    (∃ n, l.Owns t (n + 2)) ∧ l.state.isTaken = true ∨ l.Owns t 1 ∧ l.state = .idle
  | some (.dropping h _) => l.state = .holding h

variable {l : PortLock} {t : ThreadId}

/-! ## The gate -/

theorem enter_open (h : l.gate.owner = none) :
    l.enter t = ({ l with gate := { l.gate with owner := some t, holds := 1 } },
      .going (.contending .announcing)) := by
  unfold PortLock.enter Gate.enter; rw [h]

theorem enter_own (h : l.gate.owner = some t) :
    l.enter t = ({ l with gate := { l.gate with holds := l.gate.holds + 1 } },
      .going .rejoining) := by
  unfold PortLock.enter Gate.enter; rw [h]; simp [h]

theorem enter_barred {o : ThreadId} (h : l.gate.owner = some o) (hot : o ≠ t) :
    l.enter t = ({ l with gate := { l.gate with asleep := l.gate.asleep ++ [t] } },
      .going .entering) := by
  unfold PortLock.enter Gate.enter; rw [h]; simp [h, hot]

/-- Entering changes the gate alone. The thread then contends, rejoins, or goes on entering. -/
theorem enter_cases (l : PortLock) (t : ThreadId) :
    ∃ gate c, l.enter t = ({ l with gate }, .going c) ∧
      (c = .contending .announcing ∨ c = .rejoining ∨ c = .entering) := by
  unfold PortLock.enter
  rcases l.gate.enter t with ⟨_ | _ | _, gate⟩
  case first => exact ⟨gate, _, rfl, .inl rfl⟩
  case reentered => exact ⟨gate, _, rfl, .inr (.inl rfl)⟩
  case barred => exact ⟨gate, _, rfl, .inr (.inr rfl)⟩

/-- A release is over, resets the lock, or only leaves the gate. -/
theorem count_cases (l : PortLock) (t : ThreadId) :
    l.count t = .over .released ∨ l.count t = .going .resetting ∨ l.count t = .going .leaving := by
  unfold PortLock.count
  split
  · exact .inl rfl
  · exact .inr (.inl rfl)
  · exact .inr (.inr rfl)

theorem leave_last (h : l.Owns t 1) (choice : Nat) :
    ∃ asleep, l.leave t choice =
      { l with gate := { owner := none, holds := 0, asleep } } := by
  unfold PortLock.leave Gate.leave
  rw [if_neg (by simp [h.1]), if_pos (Nat.le_of_eq h.2)]
  exact ⟨_, rfl⟩

theorem leave_more {n : Nat} (h : l.Owns t (n + 2)) (choice : Nat) :
    l.leave t choice = { l with gate := { l.gate with holds := n + 1 } } := by
  unfold PortLock.leave Gate.leave
  rw [if_neg (by simp [h.1]), if_neg (by rw [h.2]; omega), h.2]
  rfl

theorem Gated.enter (hg : l.Gated) (h : l.AtRest t) :
    (l.enter t).1.Gated ∧ (l.enter t).1.Stands t (l.enter t).2.call? := by
  rcases ho : l.gate.owner with _ | o
  · rw [enter_open ho]
    have hidle := hg.idle_of_open ho
    exact ⟨⟨by simp, by simp, by simp⟩, ⟨rfl, rfl⟩, .inl hidle⟩
  · have hpos := hg.holds_pos o ho
    by_cases hot : o = t
    · subst hot
      rw [enter_own ho]
      refine ⟨⟨by simp [ho], by simp [ho], by simp⟩, ⟨l.gate.holds - 1, ho, ?_⟩, h ho⟩
      show l.gate.holds + 1 = l.gate.holds - 1 + 2
      omega
    · rw [enter_barred ho hot]
      refine ⟨⟨by simp [ho], by simp [ho], fun _ _ => hpos⟩, fun hot' => ?_⟩
      exact absurd (Option.some.inj (ho.symm.trans hot')) hot

/-! ## A step -/

theorem Gated.of_owned {l' : PortLock} {n : Nat} (ho : l.Owns t (n + 1))
    (h : l'.gate = l.gate) : l'.Gated := by
  have howner : l'.gate.owner = some t := by rw [h, ho.1]
  refine ⟨fun hn => ?_, fun hn => ?_, fun _ _ => ?_⟩
  · simp [howner] at hn
  · simp [howner] at hn
  · rw [h, ho.2]; exact Nat.succ_pos n

@[simp] theorem contend_gate (l : PortLock) (c : Contention) (r : Reply) :
    (l.contend c r).1.gate = l.gate := by
  unfold PortLock.contend
  cases c.stored? <;> cases r <;> simp only <;> split <;> rfl

@[simp] theorem contend_settings (l : PortLock) (c : Contention) (r : Reply) :
    (l.contend c r).1.settings = l.settings := by
  unfold PortLock.contend
  rcases c.step l.settings r with _ | _ | _ <;> cases c.stored? <;> cases r <;> rfl

theorem contend_state (l : PortLock) (c : Contention) (r : Reply) :
    (l.contend c r).1.state = match c.stored?, r with
      | some state, .done => state
      | _, _ => l.state := by
  unfold PortLock.contend
  rcases c.step l.settings r with _ | _ | _ <;> cases c.stored? <;> cases r <;> rfl

theorem fits_resume (s : Settings) (outcome : WaitOutcome) :
    (Contention.resume s outcome).Fits .waiting := by
  unfold Contention.resume
  split
  · exact .inr rfl
  · exact .inr rfl
  · split
    · exact .inr rfl
    · rfl

theorem stands_contend (r : Reply) {c : Contention} (ho : l.Owns t 1) (hf : c.Fits l.state) :
    (l.contend c r).1.Stands t (l.contend c r).2.call? := by
  have hg := contend_gate l c r
  unfold PortLock.contend at hg ⊢
  fun_cases Contention.step l.settings c r
  case case13 v outcome hv =>
    have hfit := fits_resume l.settings outcome
    rw [← (hf : l.state = .waiting)] at hfit
    exact ⟨ho, hfit⟩
  case case16 =>
    -- the reply is none that this stage waits for
    cases c <;> cases r <;> first | exact ⟨ho, hf⟩ | exact (by simp_all : False).elim
  all_goals
    simp_all [Stands, Progress.call?, Contention.stored?, Contention.Fits, Owns, AtRest,
      LockState.isTaken]

/-- Whatever is replied, a step leads to a stage that the thread stands on. -/
theorem stands_step {c : Call} (r : Reply) (hg : l.Gated) (h : l.Stands t (some c)) :
    (l.step t c r).1.Gated ∧ (l.step t c r).1.Stands t (l.step t c r).2.call? := by
  fun_cases PortLock.step l t c r
  case case1 => exact hg.enter h
  case case2 => exact ⟨hg, fun _ => h.2⟩
  case case3 c => exact ⟨.of_owned h.1 (contend_gate l c r), stands_contend r h.1 h.2⟩
  case case4 => exact ⟨.of_owned h.1 rfl, h.1, rfl⟩
  case case5 choice =>
    obtain ⟨asleep, hl⟩ := leave_last h.1 choice
    rw [hl]
    exact ⟨⟨by simp, fun _ => h.2, by simp⟩, by simp [Stands, Progress.call?, AtRest]⟩
  case case6 =>
    refine ⟨hg, ?_⟩
    unfold PortLock.count Gate.holdsOf
    by_cases ho : l.gate.owner = some t
    · have hpos := hg.holds_pos t ho
      rw [if_pos ho]
      match hn : l.gate.holds with
      | 0 => omega
      | 1 => exact ⟨⟨ho, hn⟩, h ho⟩
      | n + 2 => exact .inl ⟨⟨n, ho, hn⟩, h ho⟩
    · rw [if_neg ho]
      exact fun ho' => absurd ho' ho
  case case7 next =>
    refine ⟨.of_owned h.1 rfl, ?_⟩
    show PortLock.Stands _ t (some next)
    have hidle : ({ l with state := .idle } : PortLock).Owns t 1 := h.1
    rcases hs : l.state with _ | _ | _ | holder | _
    case holding => simp only [next, hs]; exact ⟨hidle, rfl⟩
    all_goals simp only [next, hs]; exact .inr ⟨hidle, rfl⟩
  case case8 => exact ⟨hg, h⟩
  case case9 => exact ⟨hg, .inr h⟩
  case case10 choice =>
    rcases h with ⟨⟨n, ho⟩, hs⟩ | ⟨ho, hs⟩
    · rw [leave_more ho]
      exact ⟨⟨fun hn => by simp [ho.1] at hn, fun hn => by simp [ho.1] at hn, by simp⟩,
        fun _ => hs⟩
    · obtain ⟨asleep, hl⟩ := leave_last ho choice
      rw [hl]
      exact ⟨⟨by simp, fun _ => hs, by simp⟩, by simp [Stands, Progress.call?, AtRest]⟩
  case case11 hs => exact ⟨hg, hs⟩
  case case12 => exact ⟨hg, h⟩
  case case13 => exact ⟨hg, h⟩
  case case14 => exact ⟨hg, fun _ => by rw [(h : l.state = _)]; rfl⟩
  case case15 => exact ⟨hg, h⟩

/-- No step changes the settings of a lock. -/
theorem step_settings (l : PortLock) (t : ThreadId) (c : Call) (r : Reply) :
    (l.step t c r).1.settings = l.settings := by
  fun_cases PortLock.step l t c r
  case case1 =>
    obtain ⟨_, _, heq, -⟩ := l.enter_cases t
    rw [heq]
  case case3 c => exact contend_settings l c r
  all_goals rfl

/-- A step goes on dropping, or ends with the lock dropped, only where the call was dropping it. -/
theorem isDrop_step (l : PortLock) (t : ThreadId) (c : Call) (r : Reply) :
    (l.step t c r).2.isDrop = c.isDrop := by
  fun_cases PortLock.step l t c r
  case case1 =>
    obtain ⟨_, _, heq, rfl | rfl | rfl⟩ := l.enter_cases t <;> rw [heq] <;> rfl
  case case3 c =>
    unfold PortLock.contend
    rcases c.step l.settings r with _ | _ | _ <;> rfl
  case case6 =>
    rcases l.count_cases t with heq | heq | heq <;> rw [heq] <;> rfl
  case case7 next =>
    show next.isDrop = false
    rcases hs : l.state <;> simp only [next, hs] <;> rfl
  all_goals rfl

/-! ## The other threads -/

/-- Who sleeps in the gate is nothing a call stands on. -/
theorem Stands.of_asleep {c : Option Call} {asleep : List ThreadId} (h : l.Stands t c) :
    ({ l with gate := { l.gate with asleep } } : PortLock).Stands t c := by
  match c with
  | none | some .entering | some .counting | some .retiring | some .rejoining | some .leaving
  | some (.dropping ..) | some (.contending _) | some (.failing _) | some (.quitting _)
  | some (.dismantling ..) | some .resetting => exact h

/-- A call of a thread that does not own the gate at most falls asleep in it. -/
theorem step_foreign {c : Call} {o : ThreadId} (r : Reply) (ho : l.gate.owner = some o)
    (hne : o ≠ t) (h : l.Stands t (some c)) :
    ∃ asleep, (l.step t c r).1 = { l with gate := { l.gate with asleep } } := by
  have hno : ∀ n, ¬ l.Owns t n := fun n hn => hne (Option.some.inj (ho.symm.trans hn.1))
  fun_cases PortLock.step l t c r
  case case1 => exact ⟨_, by rw [enter_barred ho hne]⟩
  case case2 => obtain ⟨⟨n, hn⟩, -⟩ := h; exact absurd hn (hno _)
  case case10 =>
    rcases h with ⟨⟨n, hn⟩, -⟩ | ⟨hn, -⟩
    · exact absurd hn (hno _)
    · exact absurd hn (hno _)
  case case6 | case11 | case12 | case13 | case14 | case15 => exact ⟨_, rfl⟩
  all_goals exact absurd h.1 (hno _)

/-- A step gives the gate to its own thread or to none. -/
theorem step_owner (l : PortLock) (t : ThreadId) (c : Call) (r : Reply) :
    (l.step t c r).1.gate.owner = l.gate.owner ∨ (l.step t c r).1.gate.owner = some t ∨
      (l.step t c r).1.gate.owner = none := by
  fun_cases PortLock.step l t c r
  case case1 =>
    rcases ho : l.gate.owner with _ | o
    · exact .inr (.inl (by rw [enter_open ho]))
    · by_cases hot : o = t
      · exact .inr (.inl (by rw [enter_own (hot ▸ ho)]; exact hot ▸ ho))
      · exact .inl (by rw [enter_barred ho hot]; exact ho)
  case case3 => exact .inl (by rw [contend_gate])
  case case5 | case10 =>
    unfold PortLock.leave Gate.leave
    split
    · exact .inl rfl
    · split
      · exact .inr (.inr rfl)
      · exact .inl rfl
  all_goals exact .inl rfl

/-- For another thread a step leaves the lock as it is, or the thread has no part in it before nor
after. -/
theorem step_other {c : Call} {t' : ThreadId} (r : Reply) (hne : t' ≠ t)
    (h : l.Stands t (some c)) :
    (l.gate.owner ≠ some t' ∧ (l.step t c r).1.gate.owner ≠ some t') ∨
      ∃ asleep, (l.step t c r).1 = { l with gate := { l.gate with asleep } } := by
  by_cases ho : l.gate.owner = some t'
  · exact .inr (step_foreign r ho hne h)
  · refine .inl ⟨ho, fun ho' => ?_⟩
    rcases step_owner l t c r with hs | hs | hs
    · exact ho (hs ▸ ho')
    · exact hne (Option.some.inj (ho'.symm.trans hs))
    · simp [hs] at ho'

/-- What a thread stands on survives a step of another thread, unless it is dropping the lock. -/
theorem Stands.of_step {c : Call} {t' : ThreadId} {c' : Option Call} (r : Reply) (hne : t' ≠ t)
    (h : l.Stands t (some c)) (hdrop : ∀ call ∈ c', call.isDrop = false)
    (h' : l.Stands t' c') : (l.step t c r).1.Stands t' c' := by
  rcases step_other r hne h with ⟨ho, ho'⟩ | ⟨asleep, hl⟩
  · have hno : ∀ n, ¬ l.Owns t' n := fun n hn => ho hn.1
    match c' with
    | none | some .entering | some .counting | some .retiring => exact fun h => absurd h ho'
    | some .rejoining => obtain ⟨⟨n, hn⟩, -⟩ := h'; exact absurd hn (hno _)
    | some .leaving =>
      rcases h' with ⟨⟨n, hn⟩, -⟩ | ⟨hn, -⟩
      · exact absurd hn (hno _)
      · exact absurd hn (hno _)
    | some (.dropping ..) => simp [Call.isDrop] at hdrop
    | some (.contending _) | some (.failing _) | some (.quitting _) | some (.dismantling ..)
    | some .resetting => exact absurd h'.1 (hno _)
  · rw [hl]
    exact h'.of_asleep

end PortLock

end LoopbackLock
