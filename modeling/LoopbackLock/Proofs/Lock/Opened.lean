import LoopbackLock.Proofs.Lock.Calling
import LoopbackLock.Proofs.Lock.Custody
import LoopbackLock.Proofs.Lock.Mutex

/-!
# What a call has opened

A call binds listeners and makes connections, and closes them again. `Opened.after` follows the
replies to its requests. At every stage of a call what it has opened and not closed is what the
stage has in hand (`Opened.Of.step`), and a call that fails has nothing in hand
(`Opened.Of.failed`).
-/

namespace LoopbackLock

/-- What a call has opened and not closed. A holder that comes about takes over the listener it
works on, which stays open. -/
structure Opened where
  listeners : List ListenerId := []
  /-- The connections whose calling ends are open. -/
  links : List LinkId := []
  deriving DecidableEq, Repr

namespace Opened

/-- What is open after the reply to a request. -/
def after (O : Opened) : Request → Reply → Opened
  | .bind _, .bound ℓ => { O with listeners := ℓ :: O.listeners }
  | .unbind ℓ, .done => { O with listeners := O.listeners.erase ℓ }
  | .connect .., .connected x => { O with links := x :: O.links }
  | .hangUp x, .done => { O with links := O.links.erase x }
  | _, _ => O

/-- What is open is what a call that stands here has in hand, but for the listener of a holder that
is about to be stored. -/
structure Of (O : Opened) (c : Call) : Prop where
  links : ∀ x, O.links.count x = c.links.count x
  listeners : O.listeners = c.listener?.toList ∨ ∃ h, c = .contending (.installing h)

variable {O : Opened} {l : PortLock} {t : ThreadId} {c : Call} {x : LinkId}

/-- An acquisition begins with nothing open. -/
theorem Of.acquire : Of {} .acquire := ⟨fun _ => rfl, .inl rfl⟩

/-- The open connections change by what the request gains and loses. -/
theorem links_after (q : Request) (r : Reply) (h : q.loss r x ≤ O.links.count x) :
    (O.after q r).links.count x + q.loss r x = O.links.count x + q.gain r x := by
  unfold after
  split
  case h_3 y =>
    show (y :: O.links).count x + 0 = O.links.count x + if y = x then 1 else 0
    rw [List.count_cons]
    simp
  case h_4 y =>
    have h : (if y = x then 1 else 0) ≤ O.links.count x := h
    show (O.links.erase y).count x + (if y = x then 1 else 0) = O.links.count x + 0
    rw [List.count_erase]
    by_cases hyx : y = x
    · rw [if_pos hyx] at h
      simp only [hyx, beq_self_eq_true, if_true]
      omega
    · simp [hyx]
  case h_5 hconnect hhangUp =>
    have hgain : q.gain r x = 0 := by
      cases q <;> cases r <;> first | rfl | exact absurd rfl (hconnect _ _ _ rfl)
    have hloss : q.loss r x = 0 := by
      cases q <;> cases r <;> first | rfl | exact absurd rfl (hhangUp _ rfl)
    rw [hgain, hloss]
  all_goals rfl

/-- What a request loses the call had in hand. -/
theorem loss_le (l : PortLock) (t : ThreadId) (c : Call) (r : Reply) (x : LinkId) :
    (c.request l.settings).loss r x ≤ c.links.count x := by
  have hstep := Call.links_step l t c r x
  have hgain : (c.request l.settings).loss r x = 0 ∨ (c.request l.settings).gain r x = 0 := by
    cases c.request l.settings <;> first | exact .inl rfl | exact .inr rfl
  omega

/-- A step of a call changes the connections in hand as it changes the open ones. -/
theorem Of.links_step (h : O.Of c) (r : Reply) :
    (O.after (c.request l.settings) r).links.count x = (Call.left (l.step t c r).2).count x := by
  have hlinks := h.links x
  have hle := loss_le l t c r x
  have hafter := links_after (x := x) (O := O) (c.request l.settings) r (hlinks ▸ hle)
  have hstep := Call.links_step l t c r x
  omega

theorem listeners_of_contact {q : Request} (h : q.isContact = true) (r : Reply) :
    (O.after q r).listeners = O.listeners := by
  cases q <;> first | cases r <;> rfl | cases h

/-- A contender that goes on has its listener in hand; one that fails has closed it. -/
theorem listeners_contend {s : Settings} {c : Contention} (r : Reply)
    (h : O.listeners = c.listener?.toList ∨ ∃ k, c = .installing k) :
    match c.step s r with
    | .going c' => (O.after (c.request s) r).listeners = c'.listener?.toList ∨
        ∃ k, c' = .installing k
    | .over (.ok _) => True
    | .over (.error _) => (O.after (c.request s) r).listeners = [] := by
  have hcontact : ∀ v : Vigil, c = .watching v →
      (O.after (c.request s) r).listeners = [] := by
    rintro v rfl
    rw [Contention.request, listeners_of_contact (v.isContact_request s)]
    simpa [Contention.listener?] using h
  fun_cases Contention.step s c r
  case case12 v _ _ => exact .inl (hcontact v rfl)
  case case13 v outcome _ =>
    exact .inl ((hcontact v rfl).trans (by rw [listener?_resume]; rfl))
  case case14 v _ _ => exact hcontact v rfl
  case case16 =>
    -- the reply is none that this stage waits for
    cases c <;> cases r <;> first | exact h | exact (by simp_all : False).elim
  all_goals simp_all [after, Contention.request, Contention.listener?]

/-- A call that does not contend has no listener open, and neither opens nor closes any. -/
theorem Of.listeners_after (h : O.Of c) (hc : ∀ c', c ≠ .contending c') (s : Settings)
    (r : Reply) : (O.after (c.request s) r).listeners = [] := by
  have hnone : O.listeners = [] := by
    rcases h.listeners with heq | ⟨k, heq⟩
    · rw [heq]
      cases c <;> first | rfl | exact absurd rfl (hc _)
    · exact absurd heq (hc _)
  rw [← hnone]
  cases c
  case contending c => exact absurd rfl (hc c)
  case dismantling k d => cases d <;> rfl
  case dropping k d => cases d <;> rfl
  all_goals rfl

/-- A call that does not contend has no listener in hand after its step. -/
theorem listener?_of_step {c' : Call} {r : Reply} (hc : ∀ c', c ≠ .contending c')
    (hc' : (l.step t c r).2 = .going c') : c'.listener? = none := by
  revert hc'
  fun_cases PortLock.step l t c r
  case case1 =>
    obtain ⟨_, _, heq, rfl | rfl | rfl⟩ := l.enter_cases t <;> rw [heq] <;> intro hc' <;> cases hc' <;> rfl
  case case3 c => exact absurd rfl (hc c)
  case case6 =>
    rcases l.count_cases t with heq | heq | heq <;> rw [heq] <;> intro hc' <;> cases hc' <;> rfl
  case case7 next => rcases hs : l.state <;> simp only [next, hs] <;> intro hc' <;> cases hc' <;> rfl
  case case15 =>
    intro hc'
    cases hc'
    cases c <;> first | rfl | exact absurd rfl (hc _)
  all_goals intro hc'; cases hc' <;> rfl

/-- What a step of a call leaves open is what the call has then in hand. -/
theorem Of.step {c' : Call} {r : Reply} (h : O.Of c) (hc' : (l.step t c r).2 = .going c') :
    (O.after (c.request l.settings) r).Of c' := by
  refine ⟨fun x => ?_, ?_⟩
  · rw [h.links_step r, hc']
    rfl
  by_cases hcontend : ∃ c₀, c = .contending c₀
  · obtain ⟨c₀, rfl⟩ := hcontend
    have hlisteners : O.listeners = c₀.listener?.toList ∨ ∃ k, c₀ = .installing k := by
      simpa only [Call.listener?, Call.contending.injEq] using h.listeners
    have hnext := listeners_contend r hlisteners (s := l.settings)
    simp only [PortLock.step, PortLock.contend] at hc'
    rcases hs : c₀.step l.settings r with c₁ | ⟨why | how⟩ <;> rw [hs] at hc' hnext <;> cases hc'
    · obtain hnext | ⟨k, hk⟩ := hnext
      · exact .inl hnext
      · exact .inr ⟨k, by rw [hk]⟩
    · exact .inl hnext
  · have hc : ∀ c₀, c ≠ .contending c₀ := fun c₀ heq => hcontend ⟨c₀, heq⟩
    rw [h.listeners_after hc, listener?_of_step hc hc']
    exact .inl rfl

/-- A call that fails leaves nothing open. -/
theorem Of.failed {r : Reply} {why : LockError} (h : O.Of c)
    (hfail : (l.step t c r).2 = .over (.failed why)) : O.after (c.request l.settings) r = {} := by
  have hlisteners : (O.after (c.request l.settings) r).listeners = [] := by
    obtain rfl := PortLock.failed_of_step hfail
    exact h.listeners_after (fun _ => Call.noConfusion) l.settings r
  have hlinks : (O.after (c.request l.settings) r).links = [] := by
    refine List.eq_nil_iff_forall_not_mem.mpr fun x hx => ?_
    have hcount := h.links_step (l := l) (t := t) (x := x) r
    rw [hfail] at hcount
    exact absurd hx (List.count_eq_zero.mp hcount)
  generalize O.after (c.request l.settings) r = O' at hlisteners hlinks
  obtain ⟨listeners, links⟩ := O'
  subst hlisteners hlinks
  rfl

end Opened

end LoopbackLock
