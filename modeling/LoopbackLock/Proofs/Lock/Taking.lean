import LoopbackLock.Proofs.Lock.Tenure

/-!
# Taking a lock and giving it back

A thread that has nothing of a lock and acquires it gets the port, or fails. It never finds the gate
its own, and with the policy to rebind it never takes the lock without the port (`IsTaking.step`).
A thread that releases the lock goes on to do so until it has (`IsReturning.step`).
-/

namespace LoopbackLock

variable {l : PortLock} {t : ThreadId} {c : Call} {r : Reply} {s : Settings}

namespace Call

/-- The call acquires the lock for a thread that has nothing of it, and not without the port. -/
def IsTaking : Call → Prop
  | entering | failing _ | quitting _ => True
  | contending k => k ≠ .assuming
  | _ => False

/-- The call releases the lock. -/
def IsReturning : Call → Prop
  | counting | resetting | dismantling .. | leaving => True
  | _ => False

theorem IsTaking.not_isDrop (h : c.IsTaking) : c.isDrop = false := by
  cases c
  case retiring | dropping => exact h.elim
  all_goals rfl

theorem IsReturning.not_isDrop (h : c.IsReturning) : c.isDrop = false := by
  cases c
  case retiring | dropping => exact h.elim
  all_goals rfl

end Call

/-- A contender whose policy is to rebind does not come to take the lock without the port. -/
theorem Contention.not_assuming_step {k k' : Contention} (hrebind : s.onVanished = .rebind)
    (hk : k ≠ .assuming) (h : k.step s r = .going k') : k' ≠ .assuming := by
  have hresume : ∀ outcome, resume s outcome = .announcing := by
    intro outcome
    cases outcome
    case vanished => simp [resume, hrebind]
    all_goals rfl
  revert h
  fun_cases Contention.step s k r <;> intro h
  case case13 => cases h; rw [hresume]; exact Contention.noConfusion
  case case16 => cases h; exact hk
  all_goals cases h <;> exact Contention.noConfusion

/-- A contender that is not about to take the lock without the port gets it with the port. -/
theorem Contention.bound_step {k : Contention} {how : Acquisition} (hk : k ≠ .assuming)
    (h : k.step s r = .over (.ok how)) : how = .bound := by
  revert h
  fun_cases Contention.step s k r <;> intro h
  case case10 => cases h; rfl
  case case15 => exact absurd rfl hk
  all_goals cases h

namespace Call

/-- A thread that has nothing of a lock and acquires it goes on to do so, gets the port, or fails. -/
theorem IsTaking.step (hc : c.IsTaking) (hg : l.Gated) (hb : l.Books t {} (some c))
    (hrebind : l.settings.onVanished = .rebind) :
    (∃ c', (l.step t c r).2 = .going c' ∧ c'.IsTaking) ∨
      (l.step t c r).2 = .over (.acquired .bound) ∨
      ∃ why, (l.step t c r).2 = .over (.failed why) := by
  fun_cases PortLock.step l t c r
  case case1 =>
    have hcounts : 0 = l.gate.holdsOf t := hb.counts
    refine .inl ?_
    rcases ho : l.gate.owner with _ | o
    · rw [PortLock.enter_open ho]
      exact ⟨_, rfl, Contention.noConfusion⟩
    · have hot : o ≠ t := by
        rintro rfl
        have hpos := hg.holds_pos o ho
        unfold Gate.holdsOf at hcounts
        rw [if_pos ho] at hcounts
        omega
      rw [PortLock.enter_barred ho hot]
      exact ⟨_, rfl, trivial⟩
  case case3 k =>
    simp only [PortLock.contend]
    rcases hstep : k.step l.settings r with k' | why | how
    · exact .inl ⟨_, rfl, Contention.not_assuming_step hrebind hc hstep⟩
    · exact .inl ⟨_, rfl, trivial⟩
    · exact .inr (.inl (by rw [Contention.bound_step hc hstep]))
  case case4 => exact .inl ⟨_, rfl, trivial⟩
  case case5 => exact .inr (.inr ⟨_, rfl⟩)
  case case15 => exact .inl ⟨_, rfl, hc⟩
  all_goals exact hc.elim

/-- A thread that releases a lock goes on to do so until it has. -/
theorem IsReturning.step (hc : c.IsReturning) :
    (∃ c', (l.step t c r).2 = .going c' ∧ c'.IsReturning) ∨ (l.step t c r).2 = .over .released := by
  fun_cases PortLock.step l t c r
  case case6 =>
    rcases l.count_cases t with heq | heq | heq <;> rw [heq]
    · exact .inr rfl
    · exact .inl ⟨_, rfl, trivial⟩
    · exact .inl ⟨_, rfl, trivial⟩
  case case7 next =>
    refine .inl ⟨next, rfl, ?_⟩
    rcases hs : l.state <;> simp only [next, hs] <;> trivial
  case case8 | case9 => exact .inl ⟨_, rfl, trivial⟩
  case case10 => exact .inr rfl
  case case15 => exact .inl ⟨_, rfl, hc⟩
  all_goals exact hc.elim

end Call

end LoopbackLock
