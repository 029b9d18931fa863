import LoopbackLock.Proofs.Lock.Tenure

/-!
# What a call has in hand

Between binding the port and storing the holder, and again while a holder is dismantled, the
listener or the holder is in the hands of a call and of no lock. A step passes it on, takes it from
the system, or gives it up (`listener?_step`, `keeps_step`); it gives a holder up only after it has
waited for the accepting worker (`keeps_of_step`).
-/

namespace LoopbackLock

namespace Request

/-- A request of a call that waits for another holder. -/
def isContact : Request → Bool
  | nothing | connect .. | limit .. | send .. | read .. | hangUp _ => true
  | _ => false

/-- A request of a call that dismantles a holder. -/
def isDemolition : Request → Bool
  | drain _ | write .. | shut _ | discard _ | stop _ | join _ | abandon _ => true
  | _ => false

end Request

theorem Challenge.isContact_request (s : Settings) (c : Challenge) :
    (c.request s).isContact = true := by
  cases c <;> rfl

theorem Vigil.isContact_request (s : Settings) (v : Vigil) : (v.request s).isContact = true := by
  rcases v with c | _ | c | _ | _ | _ | ⟨_, _, c⟩ | _ | _ | _
  case probing | joining | rechecking => exact c.isContact_request s
  all_goals rfl

theorem Dismantling.isDemolition_request (h : HolderId) (d : Dismantling) :
    (d.request h).isDemolition = true := by
  cases d <;> rfl

namespace Call

/-- Which request a call makes where it stands. -/
inductive Asks (s : Settings) : Call → Request → Prop
  | quiet {c : Call} (h : c.request s = .nothing) : Asks s c .nothing
  | choose {c : Call} (h : c.request s = .choose) : Asks s c .choose
  | bind : Asks s (contending .binding) (.bind s.endpoint)
  | unblock (ℓ : ListenerId) : Asks s (contending (.unblocking ℓ)) (.unblock ℓ)
  | found (ℓ : ListenerId) : Asks s (contending (.founding ℓ)) (.found ℓ)
  | unbind (ℓ : ListenerId) (why : LockError) :
    Asks s (contending (.unbinding ℓ why)) (.unbind ℓ)
  | watch {v : Vigil} {r : Request} (h : v.request s = r) (hr : r.isContact = true) :
    Asks s (contending (.watching v)) r
  | dismantle {h : HolderId} {d : Dismantling} {r : Request} (hd : d.request h = r)
      (hr : r.isDemolition = true) : Asks s (dismantling h d) r
  | drop {h : HolderId} {d : Dismantling} {r : Request} (hd : d.request h = r)
      (hr : r.isDemolition = true) : Asks s (dropping h d) r

theorem asks (s : Settings) (c : Call) : c.Asks s (c.request s) := by
  rcases c with _ | _ | c | _ | _ | _ | _ | ⟨h, d⟩ | _ | _ | ⟨h, d⟩
  case contending =>
    cases c
    case binding => exact .bind
    case unblocking ℓ => exact .unblock ℓ
    case founding ℓ => exact .found ℓ
    case unbinding ℓ why => exact .unbind ℓ why
    case watching v => exact .watch rfl (v.isContact_request s)
    all_goals exact .quiet rfl
  case quitting | leaving => exact .choose rfl
  case dismantling => exact .dismantle rfl (d.isDemolition_request h)
  case dropping => exact .drop rfl (d.isDemolition_request h)
  all_goals exact .quiet rfl

/-- A contender binds the endpoint of its lock. -/
theorem endpoint_of_request {s : Settings} {c : Call} {e : Endpoint}
    (h : c.request s = .bind e) : e = s.endpoint := by
  have ha := c.asks s
  rw [h] at ha
  rcases ha with _ | _ | _ | _ | _ | _ | ⟨-, hr⟩ | ⟨-, hr⟩ | ⟨-, hr⟩
  case bind => rfl
  all_goals cases hr

end Call

/-- The listener a contender has and no holder works on yet. -/
def Contention.listener? : Contention → Option ListenerId
  | unblocking ℓ | founding ℓ | unbinding ℓ _ => some ℓ
  | _ => none

/-- The listener a call has in hand. -/
def Call.listener? : Call → Option ListenerId
  | contending c => c.listener?
  | _ => none

/-- The holder a lock stores. -/
def LockState.holder? : LockState → Option HolderId
  | holding h => some h
  | _ => none

/-- The holder a call has in hand. -/
def Call.holder? : Call → Option HolderId
  | contending (.installing h) | dismantling h _ => some h
  | _ => none

theorem listener?_resume (s : Settings) (outcome : WaitOutcome) :
    (Contention.resume s outcome).listener? = none := by
  unfold Contention.resume
  split
  · rfl
  · rfl
  · split <;> rfl

theorem holder?_resume (s : Settings) (outcome : WaitOutcome) :
    (Call.contending (Contention.resume s outcome)).holder? = none := by
  unfold Contention.resume
  split
  · rfl
  · rfl
  · split <;> rfl

/-- What stands in a place is that holder. -/
def keeps (h : HolderId) (place : Option HolderId) : Nat := if place = some h then 1 else 0

@[simp] theorem keeps_none (h : HolderId) : keeps h none = 0 := rfl

@[simp] theorem keeps_some (h h' : HolderId) : keeps h (some h') = if h' = h then 1 else 0 := by
  simp [keeps]

namespace PortLock

variable {l : PortLock} {t : ThreadId} {c : Call} {r : Reply}

/-- Apart from binding, founding and unbinding, a step leaves the listener in hand as it is. -/
theorem listener?_step (hb : ∀ ℓ, r ≠ .bound ℓ) (hf : ∀ h, r ≠ .founded h)
    (hu : ∀ ℓ, c.request l.settings = .unbind ℓ → r ≠ .done) :
    (l.step t c r).2.call?.bind Call.listener? = c.listener? := by
  fun_cases PortLock.step l t c r
  case case1 =>
    obtain ⟨_, _, heq, rfl | rfl | rfl⟩ := l.enter_cases t <;> rw [heq] <;> rfl
  case case3 c =>
    unfold PortLock.contend
    fun_cases Contention.step l.settings c r
    case case13 outcome _ => exact listener?_resume l.settings outcome
    case case9 ℓ why => exact absurd rfl (hu ℓ rfl)
    case case2 ℓ => exact absurd rfl (hb ℓ)
    case case7 h => exact absurd rfl (hf h)
    all_goals rfl
  case case6 =>
    rcases l.count_cases t with heq | heq | heq <;> rw [heq] <;> rfl
  case case7 next =>
    show next.listener? = none
    rcases hs : l.state <;> simp only [next, hs] <;> rfl
  all_goals rfl

/-- A contender takes the listener it binds. -/
theorem listener?_bound {s : Settings} {e : Endpoint} (h : c.request s = .bind e)
    (ℓ : ListenerId) :
    c.listener? = none ∧ (l.step t c (.bound ℓ)).2.call?.bind Call.listener? = some ℓ := by
  have ha := c.asks s
  rw [h] at ha
  rcases ha with _ | _ | _ | _ | _ | _ | ⟨-, hr⟩ | ⟨-, hr⟩ | ⟨-, hr⟩
  case bind => exact ⟨rfl, rfl⟩
  all_goals cases hr

/-- A contender leaves its listener to the holder it founds. -/
theorem listener?_founded {s : Settings} {ℓ : ListenerId} (h : c.request s = .found ℓ)
    (holder : HolderId) :
    c.listener? = some ℓ ∧
      (l.step t c (.founded holder)).2.call?.bind Call.listener? = none := by
  have ha := c.asks s
  rw [h] at ha
  rcases ha with _ | _ | _ | _ | _ | _ | ⟨-, hr⟩ | ⟨-, hr⟩ | ⟨-, hr⟩
  case found => exact ⟨rfl, rfl⟩
  all_goals cases hr

/-- A contender closes the listener it has. -/
theorem listener?_unbound {s : Settings} {ℓ : ListenerId} (h : c.request s = .unbind ℓ) :
    c.listener? = some ℓ ∧ (l.step t c .done).2.call?.bind Call.listener? = none := by
  have ha := c.asks s
  rw [h] at ha
  rcases ha with _ | _ | _ | _ | _ | _ | ⟨-, hr⟩ | ⟨-, hr⟩ | ⟨-, hr⟩
  case unbind => exact ⟨rfl, rfl⟩
  all_goals cases hr

/-- A contender leaves the lock in its place. -/
theorem slot_contend (l : PortLock) (c : Contention) (r : Reply) :
    (l.contend c r).2.slot (l.contend c r).1 = some (l.contend c r).1 := by
  rcases contend_cases l c r with ⟨_, hp⟩ | ⟨_, hp⟩ | ⟨_, hp, -⟩ <;> rw [hp] <;> rfl

theorem keeps_contend {c : Contention} (hf : c.Fits l.state) (h : HolderId) :
    keeps h (l.contend c r).1.state.holder? +
        keeps h ((l.contend c r).2.call?.bind Call.holder?) ≤
      keeps h l.state.holder? + keeps h (Call.contending c).holder? +
        if r = .founded h then 1 else 0 := by
  unfold PortLock.contend
  fun_cases Contention.step l.settings c r
  case case13 v outcome hv =>
    show keeps h l.state.holder? +
      keeps h (Call.contending (Contention.resume l.settings outcome)).holder? ≤ _
    rw [holder?_resume, keeps_none]
    omega
  case case16 =>
    -- the reply is none that this stage waits for
    cases c <;> cases r <;>
      first | exact Nat.le_add_right _ _ | exact (by simp_all : False).elim
  all_goals
    simp_all [Contention.stored?, Contention.Fits, LockState.holder?, Call.holder?,
      Progress.call?, keeps]

/-- A holder is passed between a call and its lock, and comes to them only when it is founded. -/
theorem keeps_step (hs : l.Stands t (some c)) (h : HolderId) :
    keeps h (((l.step t c r).2.slot (l.step t c r).1).bind (·.state.holder?)) +
        keeps h ((l.step t c r).2.call?.bind Call.holder?) ≤
      keeps h l.state.holder? + keeps h c.holder? + if r = .founded h then 1 else 0 := by
  fun_cases PortLock.step l t c r
  case case1 =>
    obtain ⟨_, _, heq, rfl | rfl | rfl⟩ := l.enter_cases t <;> rw [heq] <;> exact Nat.le_add_right _ _
  case case3 c =>
    rw [slot_contend]
    exact keeps_contend hs.2 h
  case case6 =>
    rcases l.count_cases t with heq | heq | heq <;> rw [heq] <;> exact Nat.le_add_right _ _
  case case7 next =>
    show keeps h (LockState.holder? .idle) + keeps h next.holder? ≤ _
    rcases hst : l.state <;> simp only [next, hst, LockState.holder?, Call.holder?] <;> omega
  all_goals
    simp only [Progress.slot, Progress.call?, Option.bind_some, Option.bind_none, Call.holder?,
      LockState.holder?, PortLock.leave, keeps_none]
    omega

/-- A call that asks a holder to stop is dismantling it, or drops the lock that has it. -/
theorem stop_of_request {s : Settings} {h : HolderId} (hq : c.request s = .stop h) :
    (∃ d, c = .dismantling h d) ∨ ∃ d, c = .dropping h d := by
  have ha := c.asks s
  rw [hq] at ha
  rcases ha with _ | _ | _ | _ | _ | _ | ⟨-, hr⟩ | @⟨h', d, _, hd⟩ | @⟨h', d, _, hd⟩
  case watch => cases hr
  all_goals
    have hh : h' = h := by cases d <;> cases hd; rfl
    subst hh
  · exact .inl ⟨d, rfl⟩
  · exact .inr ⟨d, rfl⟩

/-- A lock has its holder from before, or from the contender that stores it. -/
theorem holding_of_step {h : HolderId} (hs : (l.step t c r).1.state = .holding h) :
    l.state = .holding h ∨ c = .contending (.installing h) := by
  revert hs
  fun_cases PortLock.step l t c r
  case case1 =>
    obtain ⟨_, _, heq, rfl | rfl | rfl⟩ := l.enter_cases t <;> rw [heq] <;> exact .inl
  case case3 c =>
    intro hs
    rw [contend_state] at hs
    split at hs
    · next state hst =>
      cases c <;> cases hst
      case installing => cases hs; exact .inr rfl
      all_goals cases hs
    · exact .inl hs
  case case4 | case7 => intro hs; cases hs
  all_goals exact .inl

/-- A contender has a holder to store from before, or has just founded it. -/
theorem installing_of_step {h : HolderId}
    (hs : (l.step t c r).2 = .going (.contending (.installing h))) :
    c = .contending (.installing h) ∨ r = .founded h := by
  revert hs
  fun_cases PortLock.step l t c r
  case case1 =>
    obtain ⟨_, _, heq, rfl | rfl | rfl⟩ := l.enter_cases t <;> rw [heq] <;> intro hs <;> cases hs
  case case3 c =>
    unfold PortLock.contend
    fun_cases Contention.step l.settings c r
    case case7 => intro hs; cases hs; exact .inr rfl
    case case13 outcome _ =>
      intro hs
      have hresume : Contention.resume l.settings outcome = .installing h := by
        injection hs with hs; injection hs
      have hnone := holder?_resume l.settings outcome
      rw [hresume] at hnone
      cases hnone
    case case16 => intro hs; cases hs; exact .inl rfl
    all_goals intro hs; cases hs
  case case6 =>
    rcases l.count_cases t with heq | heq | heq <;> rw [heq] <;> intro hs <;> cases hs
  case case7 next =>
    intro hs
    rcases hst : l.state <;> simp only [next, hst] at hs <;> cases hs
  case case15 => intro hs; cases hs; exact .inl rfl
  all_goals intro hs; cases hs

end PortLock

/-! ## The end of a holder -/

/-- The wait for the accepting worker is over. -/
def Dismantling.hasJoined : Dismantling → Bool
  | sweeping | clearing .. | abandoning => true
  | _ => false

/-- The holder whose accepting worker the call has waited for. -/
def Call.joined? : Call → Option HolderId
  | dismantling h d | dropping h d => if d.hasJoined then some h else none
  | _ => none

namespace Dismantling

variable {d d' : Dismantling} {orderly : Bool} {r : Reply}

theorem hasJoined_notify (links : List LinkId) : (notify links).hasJoined = false := by
  rcases links with _ | _ <;> rfl

/-- The wait for the accepting worker is not left out. -/
theorem hasJoined_step (h : d.step orderly r = .going d') (hd' : d'.hasJoined = true) :
    d.hasJoined = true ∨ d = .joining ∧ r = .done := by
  revert h
  fun_cases Dismantling.step orderly d r <;> intro h
  case case10 => exact .inr ⟨rfl, rfl⟩
  case case1 | case8 =>
    cases h
    rw [hasJoined_notify] at hd'
    cases hd'
  case case11 | case12 => exact .inl rfl
  case case14 => cases h; exact .inl hd'
  all_goals cases h <;> cases hd'

theorem hasJoined_over (h : d.step orderly r = .over ()) : d.hasJoined = true := by
  revert h
  fun_cases Dismantling.step orderly d r <;> intro h
  case case13 => rfl
  all_goals cases h

end Dismantling

namespace PortLock

variable {l : PortLock} {t : ThreadId} {c c' : Call} {r : Reply} {h : HolderId}

/-- A call has waited for an accepting worker before, or it has just done so. -/
theorem joined?_step (hstep : (l.step t c r).2 = .going c') (hj : c'.joined? = some h) :
    c.joined? = some h ∨ c.request l.settings = .join h ∧ r = .done := by
  revert hstep
  fun_cases PortLock.step l t c r <;> intro hstep
  case case1 =>
    obtain ⟨_, _, heq, rfl | rfl | rfl⟩ := l.enter_cases t <;> rw [heq] at hstep <;>
      cases hstep <;> cases hj
  case case3 k =>
    rcases contend_cases l k r with ⟨_, hp⟩ | ⟨_, hp⟩ | ⟨_, hp, -⟩ <;> rw [hp] at hstep <;>
      cases hstep <;> cases hj
  case case6 =>
    rcases l.count_cases t with heq | heq | heq <;> rw [heq] at hstep <;> cases hstep <;> cases hj
  case case7 next =>
    rcases hst : l.state <;> simp only [next, hst] at hstep <;> cases hstep <;> cases hj
  case case8 k d d' hd | case13 k d d' hd =>
    cases hstep
    simp only [Call.joined?] at hj ⊢
    obtain ⟨hjoined, heq⟩ := Option.ite_none_right_eq_some.mp hj
    rcases Dismantling.hasJoined_step hd hjoined with hold | ⟨rfl, rfl⟩
    · exact .inl (by rw [if_pos hold, heq])
    · cases heq
      exact .inr ⟨rfl, rfl⟩
  case case15 => cases hstep; exact .inl hj
  all_goals cases hstep <;> cases hj

theorem keeps_of_contend {k : Contention} (hf : k.Fits l.state) (r : Reply) (h : HolderId) :
    keeps h l.state.holder? + keeps h (Call.contending k).holder? ≤
      keeps h (l.contend k r).1.state.holder? +
        keeps h ((l.contend k r).2.call?.bind Call.holder?) := by
  unfold PortLock.contend
  fun_cases Contention.step l.settings k r
  case case1 => rcases hf with hs | hs <;> simp [hs, LockState.holder?, Call.holder?]
  case case13 => exact Nat.le_add_right ..
  case case16 =>
    -- the reply is none that this stage waits for
    cases k <;> cases r <;> first | exact Nat.le_refl _ | exact (by simp_all : False).elim
  all_goals
    simp_all [Contention.stored?, Contention.Fits, LockState.holder?, Call.holder?,
      Progress.call?, keeps]

/-- A step passes a holder on, unless the call has waited for its accepting worker. -/
theorem keeps_of_step (hs : l.Stands t (some c)) (hj : c.joined? ≠ some h) :
    keeps h l.state.holder? + keeps h c.holder? ≤
      keeps h (((l.step t c r).2.slot (l.step t c r).1).bind (·.state.holder?)) +
        keeps h ((l.step t c r).2.call?.bind Call.holder?) := by
  fun_cases PortLock.step l t c r
  case case1 =>
    obtain ⟨_, _, heq, rfl | rfl | rfl⟩ := l.enter_cases t <;> rw [heq] <;> exact Nat.le_refl _
  case case3 k =>
    rw [slot_contend]
    exact keeps_of_contend hs.2 r h
  case case6 =>
    rcases l.count_cases t with heq | heq | heq <;> rw [heq] <;> exact Nat.le_refl _
  case case7 next =>
    show _ ≤ keeps h (LockState.holder? .idle) + keeps h next.holder?
    rcases hst : l.state <;> simp only [next, hst, LockState.holder?, Call.holder?] <;> omega
  case case4 =>
    rcases hs.2 with hst | hst <;> simp [hst, LockState.holder?, Call.holder?]
  case case9 hd =>
    simp only [Call.joined?, if_pos (Dismantling.hasJoined_over hd), ne_eq, Option.some.injEq] at hj
    simp [Call.holder?, hj, Progress.slot]
  case case14 hd =>
    simp only [Call.joined?, if_pos (Dismantling.hasJoined_over hd), ne_eq, Option.some.injEq] at hj
    simp [show l.state = .holding _ from hs, LockState.holder?, Call.holder?, hj]
  case case12 hnone =>
    rcases hst : l.state with _ | _ | _ | k | _
    case holding => exact (hnone k hst).elim
    all_goals exact Nat.le_refl _
  all_goals exact Nat.le_refl _

/-- A contender has the holder it founds in hand. -/
theorem holder?_founded {s : Settings} {ℓ : ListenerId} (hq : c.request s = .found ℓ)
    (h : HolderId) : (l.step t c (.founded h)).2.call?.bind Call.holder? = some h := by
  have ha := c.asks s
  rw [hq] at ha
  rcases ha with _ | _ | _ | _ | _ | _ | ⟨-, hr⟩ | ⟨-, hr⟩ | ⟨-, hr⟩
  case found => rfl
  all_goals cases hr

end PortLock

end LoopbackLock
