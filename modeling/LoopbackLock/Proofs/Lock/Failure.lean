import LoopbackLock.Proofs.Lock.Household
import LoopbackLock.Proofs.Lock.Opened

/-!
# Failed acquisitions

An acquisition that fails leaves nothing behind (`Household.failure_leaves_nothing`). What the call
has opened it has closed (`Household.opened_of_run`), and the lock is a new one again but for the
threads that sleep in its gate (`Household.Kept.failed`). Those make no difference: sleepers may wake
at any time, so households that differ in their sleepers exhibit the same
(`Household.exhibits_sleeping`).
-/

namespace LoopbackLock

namespace PortLock

variable {l : PortLock} {t : ThreadId} {asleep : List ThreadId}

/-- A lock with these threads asleep in its gate. -/
def sleeping (l : PortLock) (asleep : List ThreadId) : PortLock :=
  { l with gate := { l.gate with asleep } }

theorem leave_sleeping (l : PortLock) (t : ThreadId) (choice : Nat) (asleep : List ThreadId) :
    ∃ asleep', (l.sleeping asleep).leave t choice = (l.leave t choice).sleeping asleep' := by
  unfold PortLock.leave Gate.leave sleeping
  by_cases ho : l.gate.owner = some t
  · by_cases hh : l.gate.holds ≤ 1
    · exact ⟨asleep.eraseIdx (choice % asleep.length), by simp [ho, hh, Gate.rouseOne]⟩
    · exact ⟨asleep, by simp [ho, hh]⟩
  · exact ⟨asleep, by simp [ho]⟩

theorem contend_sleeping (l : PortLock) (c : Contention) (r : Reply) (asleep : List ThreadId) :
    (l.sleeping asleep).contend c r = ((l.contend c r).1.sleeping asleep, (l.contend c r).2) := by
  unfold PortLock.contend
  rw [show (l.sleeping asleep).settings = l.settings from rfl]
  rcases c.step l.settings r with _ | _ | _ <;> cases c.stored? <;> cases r <;> rfl

theorem enter_sleeping (l : PortLock) (t : ThreadId) (asleep : List ThreadId) : ∃ asleep',
    (l.sleeping asleep).enter t = ((l.enter t).1.sleeping asleep', (l.enter t).2) := by
  rcases ho : l.gate.owner with _ | o
  · rw [enter_open ho]
    exact ⟨asleep, enter_open ho⟩
  · by_cases hot : o = t
    · subst hot
      rw [enter_own ho]
      exact ⟨asleep, enter_own ho⟩
    · rw [enter_barred ho hot]
      exact ⟨asleep ++ [t], enter_barred ho hot⟩

/-- Who sleeps in the gate makes no difference to a step of a call, but for who sleeps then. -/
theorem step_sleeping (l : PortLock) (t : ThreadId) (c : Call) (r : Reply)
    (asleep : List ThreadId) : ∃ asleep',
      (l.sleeping asleep).step t c r = ((l.step t c r).1.sleeping asleep', (l.step t c r).2) := by
  fun_cases PortLock.step l t c r
  case case1 => exact l.enter_sleeping t asleep
  case case3 c => exact ⟨asleep, l.contend_sleeping c r asleep⟩
  case case5 choice | case10 choice =>
    obtain ⟨asleep', hl⟩ := l.leave_sleeping t choice asleep
    exact ⟨asleep', congrArg (·, _) hl⟩
  case case8 d hd | case9 d hd | case13 d hd | case14 d hd =>
    refine ⟨asleep, ?_⟩
    unfold PortLock.step
    simp only [hd]
  case case11 hs | case12 hs =>
    refine ⟨asleep, ?_⟩
    unfold PortLock.step
    simp only [show (l.sleeping asleep).state = l.state from rfl, hs]
  case case15 =>
    -- the reply is none that this stage waits for
    refine ⟨asleep, ?_⟩
    cases c <;> cases r <;> first | rfl | exact (by simp_all : False).elim
  all_goals exact ⟨asleep, rfl⟩

end PortLock

/-- Neither an acquisition nor a release of a thread begins. -/
def Move.GoesOn (t : ThreadId) (move : Move) : Prop := move ≠ .acquires t ∧ move ≠ .releases t

/-- How an activity ended. -/
def Progress.ending? : Progress Call Ending → Option Ending
  | .over ending => some ending
  | .going _ => none

namespace Household

/-! ## What is seen of a household -/

/-- What the system is asked in a move. -/
def request (H : Household) : Move → Request
  | .replied t _ => (H.calls t).elim .nothing (·.request H.lock.settings)
  | _ => .nothing

/-- How a call ends with a move, if one does. -/
def ended? (H : Household) : Move → Option Ending
  | .replied t r => (H.calls t).bind fun c => (H.lock.step t c r).2.ending?
  | _ => none

/-- What is seen of a move: what the system was asked and replied, how the call ended if it did, and
the phase of the lock after that. -/
structure Report where
  move : Move
  request : Request
  ending : Option Ending
  phase : Phase
  deriving DecidableEq, Repr

/-- A move is seen, unless a sleeper wakes. -/
def report (H : Household) (move : Move) (H' : Household) : List Report :=
  match move with
  | .stirs _ => []
  | _ => [⟨move, H.request move, H.ended? move, H'.lock.phase⟩]

/-- What is seen of moves. -/
def reports : Household → List Move → List Report
  | _, [] => []
  | H, move :: moves =>
    match H.move? move with
    | none => []
    | some H' => H.report move H' ++ H'.reports moves

/-- This can be seen of a household. -/
def Exhibits (H : Household) (seen : List Report) : Prop :=
  ∃ moves H', H.run? moves = some H' ∧ H.reports moves = seen

variable {H H₁ H' : Household} {t : ThreadId} {r : Reply} {c : Call} {move : Move}
  {moves moves' : List Move}

theorem run?_cons : H.run? (move :: moves) = (H.move? move).bind (·.run? moves) :=
  List.foldlM_cons

theorem run?_append (h : H.run? moves = some H') : H.run? (moves ++ moves') = H'.run? moves' := by
  unfold run? at h ⊢
  rw [List.foldlM_append, h]
  rfl

theorem reports_append (h : H.run? moves = some H') :
    H.reports (moves ++ moves') = H.reports moves ++ H'.reports moves' := by
  induction moves generalizing H with
  | nil => cases h; rfl
  | cons move moves ih =>
    rw [run?_cons] at h
    obtain ⟨H₁, hmove, h⟩ := Option.bind_eq_some_iff.mp h
    rw [List.cons_append, reports, reports, hmove]
    show _ ++ H₁.reports (moves ++ moves') = _
    rw [ih h, List.append_assoc]

/-! ## Sleepers make no difference -/

/-- A household with these threads asleep in the gate. -/
def sleeping (H : Household) (asleep : List ThreadId) : Household :=
  { H with lock := H.lock.sleeping asleep }

/-- A sleeper can wake, however often it has been put to sleep. -/
theorem wakes (H : Household) (asleep : List ThreadId) (t : ThreadId) : ∃ moves asleep',
    t ∉ asleep' ∧ (H.sleeping asleep).run? moves = some (H.sleeping asleep') ∧
      (H.sleeping asleep).reports moves = [] := by
  induction hcount : asleep.count t generalizing asleep with
  | zero => exact ⟨[], asleep, List.count_eq_zero.mp hcount, rfl, rfl⟩
  | succ n ih =>
    obtain ⟨moves, asleep', hawake, hrun, hseen⟩ := ih (asleep.erase t) (by simp [hcount])
    exact ⟨.stirs t :: moves, asleep', hawake, hrun, hseen⟩

/-- A reply brings the same to whoever is awake. -/
theorem replied_sleeping (hc : H.calls t = some c) {asleep : List ThreadId} (hawake : t ∉ asleep)
    (r : Reply) : ∃ asleep',
      (H.sleeping asleep).move? (.replied t r) = some ((H.replied t c r).sleeping asleep') ∧
      (H.sleeping asleep).report (.replied t r) ((H.replied t c r).sleeping asleep') =
        H.report (.replied t r) (H.replied t c r) := by
  obtain ⟨asleep', hstep⟩ := H.lock.step_sleeping t c r asleep
  refine ⟨asleep', ?_, ?_⟩
  · rw [move?_replied (H := H.sleeping asleep) hc (by simp [PortLock.isAsleep, sleeping,
      PortLock.sleeping, hawake])]
    unfold replied sleeping
    simp only [hstep]
    rfl
  · have hended : (H.sleeping asleep).ended? (.replied t r) = H.ended? (.replied t r) := by
      simp only [ended?, sleeping, hc, Option.bind_some, hstep]
    show [Report.mk _ _ ((H.sleeping asleep).ended? (.replied t r)) _] = _
    rw [hended]
    rfl

/-- A household with other sleepers makes the same move, once the thread is awake. -/
theorem move_sleeping (h : H.move? move = some H') (asleep : List ThreadId) :
    ∃ moves asleep', (H.sleeping asleep).run? moves = some (H'.sleeping asleep') ∧
      (H.sleeping asleep).reports moves = H.report move H' := by
  rcases moved_of_move? h with ⟨hc⟩ | ⟨hc⟩ | @⟨t, r, c, hc⟩ | t
  case acquires t =>
    have hmove : (H.sleeping asleep).move? (.acquires t) = _ := if_pos hc
    exact ⟨[.acquires t], asleep, by rw [run?_cons, hmove]; rfl, by rw [reports, hmove]; rfl⟩
  case releases t =>
    have hmove := move?_releases (H := H.sleeping asleep) hc
    exact ⟨[.releases t], asleep, by rw [run?_cons, hmove]; rfl, by rw [reports, hmove]; rfl⟩
  case replied =>
    obtain ⟨moves, asleep₁, hawake, hwakes, hquiet⟩ := H.wakes asleep t
    obtain ⟨asleep', hmove, hseen⟩ := replied_sleeping hc hawake r
    refine ⟨moves ++ [.replied t r], asleep', ?_, ?_⟩
    · rw [run?_append hwakes, run?_cons, hmove]
      rfl
    · rw [reports_append hwakes, hquiet, reports, hmove, List.nil_append, ← hseen]
      exact List.append_nil _
  case stirs => exact ⟨[], asleep, rfl, rfl⟩

theorem run_sleeping (h : H.run? moves = some H') (asleep : List ThreadId) :
    ∃ moves' asleep', (H.sleeping asleep).run? moves' = some (H'.sleeping asleep') ∧
      (H.sleeping asleep).reports moves' = H.reports moves := by
  induction moves generalizing H asleep with
  | nil => cases h; exact ⟨[], asleep, rfl, rfl⟩
  | cons move moves ih =>
    rw [run?_cons] at h
    obtain ⟨H₁, hmove, h⟩ := Option.bind_eq_some_iff.mp h
    obtain ⟨moves₁, asleep₁, hrun₁, hseen₁⟩ := move_sleeping hmove asleep
    obtain ⟨moves₂, asleep₂, hrun₂, hseen₂⟩ := ih h asleep₁
    refine ⟨moves₁ ++ moves₂, asleep₂, (run?_append hrun₁).trans hrun₂, ?_⟩
    rw [reports_append hrun₁, hseen₁, hseen₂, reports, hmove]

/-- Households that differ in their sleepers exhibit the same. -/
theorem exhibits_sleeping (H : Household) (asleep : List ThreadId) (seen : List Report) :
    (H.sleeping asleep).Exhibits seen ↔ H.Exhibits seen := by
  constructor
  · rintro ⟨moves, H', hrun, rfl⟩
    obtain ⟨moves', asleep', hrun', hseen⟩ := run_sleeping hrun H.lock.gate.asleep
    exact ⟨moves', _, hrun', hseen⟩
  · rintro ⟨moves, H', hrun, rfl⟩
    obtain ⟨moves', asleep', hrun', hseen⟩ := run_sleeping hrun asleep
    exact ⟨moves', _, hrun', hseen⟩

/-! ## What a call has opened -/

/-- What a thread's call has open after a move. -/
def opens (H : Household) (t : ThreadId) (move : Move) (O : Opened) : Opened :=
  match move with
  | .replied t' r => if t' = t then O.after (H.request move) r else O
  | _ => O

/-- What a thread's call has open after moves. -/
def openedBy (t : ThreadId) : Household → List Move → Opened → Opened
  | _, [], O => O
  | H, move :: moves, O =>
    match H.move? move with
    | none => O
    | some H' => H'.openedBy t moves (H.opens t move O)

theorem opens_own (hc : H.calls t = some c) (r : Reply) (O : Opened) :
    H.opens t (.replied t r) O = O.after (c.request H.lock.settings) r := by
  show (if t = t then O.after (H.request (.replied t r)) r else O) = _
  simp only [request, hc, Option.elim_some, if_true]

theorem opens_other {t' : ThreadId} (htt : t' ≠ t) (r : Reply) (O : Opened) :
    H.opens t (.replied t' r) O = O := if_neg htt

/-- A move leaves open what the call of a thread has then in hand. -/
theorem opened_of_move {O : Opened} (hO : ∀ c ∈ H.calls t, O.Of c) (hgoes : Move.GoesOn t move)
    (h : H.move? move = some H') : ∀ c ∈ H'.calls t, (H.opens t move O).Of c := by
  rcases moved_of_move? h with ⟨hc⟩ | ⟨hc⟩ | @⟨t', r, c, hc⟩ | t'
  case acquires t' =>
    have htt : t ≠ t' := fun heq => hgoes.1 (by rw [heq])
    intro c hc'
    exact hO c ((put_of_ne htt).symm.trans hc')
  case releases t' =>
    have htt : t ≠ t' := fun heq => hgoes.2 (by rw [heq])
    intro c hc'
    exact hO c ((put_of_ne htt).symm.trans hc')
  case replied =>
    intro c' hc'
    by_cases htt : t = t'
    · subst htt
      have hc' : put H.calls t (H.lock.step t c r).2.call? t = some c' := hc'
      rw [put_same] at hc'
      rw [opens_own hc]
      exact (hO c hc).step (Progress.call?_eq_some hc')
    · rw [opens_other (Ne.symm htt)]
      exact hO c' ((put_of_ne htt).symm.trans hc')
  case stirs => exact hO

theorem failed_of_ended {why : LockError} (h : H.ended? (.replied t r) = some (.failed why)) :
    ∃ c, H.calls t = some c ∧ (H.lock.step t c r).2 = .over (.failed why) := by
  obtain ⟨c, hc, hstep⟩ := Option.bind_eq_some_iff.mp h
  refine ⟨c, hc, ?_⟩
  rcases hp : (H.lock.step t c r).2 with c' | ending <;> rw [hp] at hstep <;> cases hstep
  rfl

/-- A call that fails after moves has closed what it has opened. -/
theorem opened_of_run {O : Opened} {why : LockError} (hO : ∀ c ∈ H.calls t, O.Of c)
    (hgoes : ∀ move ∈ moves, move.GoesOn t) (h : H.run? moves = some H₁)
    (hlast : H₁.move? (.replied t r) = some H')
    (hfail : H₁.ended? (.replied t r) = some (.failed why)) :
    H.openedBy t (moves ++ [.replied t r]) O = {} := by
  induction moves generalizing H O with
  | nil =>
    cases h
    obtain ⟨c, hc, hstep⟩ := failed_of_ended hfail
    rw [List.nil_append, openedBy, hlast]
    show H₁.opens t (.replied t r) O = {}
    rw [opens_own hc]
    exact (hO c hc).failed hstep
  | cons move moves ih =>
    rw [run?_cons] at h
    obtain ⟨H₂, hmove, h⟩ := Option.bind_eq_some_iff.mp h
    rw [List.cons_append, openedBy, hmove]
    exact ih (opened_of_move hO (hgoes move List.mem_cons_self) hmove)
      (fun move hmem => hgoes move (List.mem_cons_of_mem _ hmem)) h

/-! ## What a failed call leaves -/

theorem settings_of_run {s : Settings} (h : (Household.new s).run? moves = some H) :
    H.lock.settings = s := by
  refine foldlM_invariant (P := fun H => H.lock.settings = s) (fun H move H' _ hH hmove => ?_) rfl h
  rcases moved_of_move? hmove with _ | _ | @⟨t, r, c, -⟩ | _
  case replied => exact (PortLock.step_settings H.lock t c r).trans hH
  all_goals exact hH

/-- A new lock, and calls that have just begun on it. -/
def anew (s : Settings) (calls : ThreadId → Option Call) : Household := { new s with calls }

/-- A lock whose gate is open is a new one, but for who sleeps in its gate. -/
theorem Kept.eq_new {m : Mutex} (h : H.Kept m) (ho : H.lock.gate.owner = none) :
    H = (anew H.lock.settings H.calls).sleeping H.lock.gate.asleep := by
  obtain ⟨hholds, -, -, hfree⟩ := h.shows.open_gate ho
  have hstate := h.gated.idle_of_open ho
  have hlistening := h.closed ho
  have hmutex := h.mutex
  subst hfree
  obtain ⟨⟨settings, ⟨owner, holds, asleep⟩, state⟩, calls, listening, mutex⟩ := H
  simp only at ho hholds hstate hlistening hmutex
  subst ho hholds hstate hlistening hmutex
  rfl

/-- A call that fails leaves the gate. -/
theorem Kept.open_of_failed {m : Mutex} {why : LockError} (h : H.Kept m)
    (hc : H.calls t = some c) (hfail : (H.lock.step t c r).2 = .over (.failed why)) :
    (H.replied t c r).lock.gate.owner = none := by
  obtain rfl := PortLock.failed_of_step hfail
  have howns : H.lock.Owns t 1 := ((hc ▸ h.stands t : H.lock.Stands t (some (.quitting why)))).1
  cases r
  case chosen choice =>
    obtain ⟨asleep, hl⟩ := PortLock.leave_last howns choice
    show (H.lock.leave t choice).gate.owner = none
    rw [hl]
  all_goals cases hfail

/-- While the gate is open, every call under way is one that has just begun. -/
theorem Kept.begun_of_open {m : Mutex} (h : H.Kept m) (ho : H.lock.gate.owner = none)
    (hc : H.calls t = some c) : c = .acquire ∨ c = .release :=
  PortLock.stage_of_foreign (hc ▸ h.stands t) (by simp [ho]) (h.undropped t c hc)

/-- An acquisition that fails, however the system replied, leaves the lock idle and its gate open,
with nothing listening and nothing open that the call has opened. Every call under way is one that
has just begun, and the household is that of a new lock with these calls, but for who sleeps in the
gate; so from then on it exhibits what that of the new lock does. -/
theorem failure_leaves_nothing {s : Settings} {before during : List Move} {H₀ H₁ : Household}
    {why : LockError} (hbefore : (Household.new s).run? before = some H₀)
    (hduring : H₀.run? (.acquires t :: during) = some H₁)
    (hgoes : ∀ move ∈ during, move.GoesOn t)
    (hlast : H₁.move? (.replied t r) = some H)
    (hfail : H₁.ended? (.replied t r) = some (.failed why)) :
    (H.lock.phase = .idle ∧ H.lock.gate.owner = none ∧ H.lock.gate.holds = 0) ∧
      H.listening = .closed ∧
      H₀.openedBy t (.acquires t :: during ++ [.replied t r]) {} = {} ∧
      (∀ t' c, H.calls t' = some c → c = .acquire ∨ c = .release) ∧
      H = (anew s H.calls).sleeping H.lock.gate.asleep ∧
      ∀ seen, H.Exhibits seen ↔ (anew s H.calls).Exhibits seen := by
  have hrun₁ : (Household.new s).run? (before ++ .acquires t :: during) = some H₁ :=
    (run?_append hbefore).trans hduring
  have hrun := run?_concat hrun₁ hlast
  obtain ⟨m₁, hkept₁⟩ := kept_of_run hrun₁
  obtain ⟨m, hkept⟩ := kept_of_run hrun
  obtain ⟨c, hc, hstep⟩ := failed_of_ended hfail
  have hopen : H.lock.gate.owner = none := by
    have hH : H = H₁.replied t c r := by
      rcases moved_of_move? hlast with _ | _ | @⟨_, _, c', hc'⟩ | _
      cases hc.symm.trans hc'
      rfl
    rw [hH]
    exact hkept₁.open_of_failed hc hstep
  obtain ⟨hholds, hphase, hlistening, -⟩ := hkept.shows.open_gate hopen
  have hnew := hkept.eq_new hopen
  rw [settings_of_run hrun] at hnew
  refine ⟨⟨hphase, hopen, hholds⟩, hlistening, ?_, fun t' c => hkept.begun_of_open hopen, hnew,
    fun seen => ?_⟩
  · rw [run?_cons] at hduring
    obtain ⟨H₂, hbegin, hduring⟩ := Option.bind_eq_some_iff.mp hduring
    have hbegun : ∀ c ∈ H₂.calls t, Opened.Of {} c := by
      rcases moved_of_move? hbegin with ⟨-⟩ | _ | _ | _
      intro c hc
      cases put_same.symm.trans hc
      exact Opened.Of.acquire
    rw [List.cons_append, openedBy, hbegin]
    exact opened_of_run hbegun hgoes hduring hlast hfail
  · exact (congrArg (·.Exhibits seen) hnew).to_iff.trans (exhibits_sleeping ..)

/-- While another thread sleeps in the gate, the port is found taken twice: at first by an occupant
that departs, and then by one that answers in a foreign tongue. -/
def rebuff : List Move :=
  [.replied 0 .done, .acquires 1, .replied 1 .done,
    .replied 0 .done, .replied 0 (.failed .addressInUse), .replied 0 .done,
    .replied 0 (.failed .connectionRefused),
    .replied 0 .done, .replied 0 (.failed .addressInUse), .replied 0 .done,
    .replied 0 (.connected 7), .replied 0 .done, .replied 0 .done,
    .replied 0 (.heard (Text.encode "HTTP/1.1 400 Bad Request\n")), .replied 0 .done,
    .replied 0 .done]

theorem rebuff_leaves_nothing :
    ∃ H₁ H, (Household.new {}).run? (.acquires 0 :: rebuff) = some H₁ ∧
      H₁.move? (.replied 0 (.chosen 0)) = some H ∧
      H₁.ended? (.replied 0 (.chosen 0)) = some (.failed (.protocolMismatch ({} : Settings).endpoint
        "unexpected reply 'HTTP/1.1 400 Bad Request'")) ∧
      H.lock.phase = .idle ∧
      (Household.new {}).openedBy 0 (.acquires 0 :: rebuff ++ [.replied 0 (.chosen 0)]) {} = {} := by
  have hended : ((Household.new {}).run? (.acquires 0 :: rebuff)).bind
      (·.ended? (.replied 0 (.chosen 0))) =
      some (.failed (.protocolMismatch ({} : Settings).endpoint
        "unexpected reply 'HTTP/1.1 400 Bad Request'")) := by decide +kernel
  have hmoves : (((Household.new {}).run? (.acquires 0 :: rebuff)).bind
      (·.move? (.replied 0 (.chosen 0)))).isSome := by decide +kernel
  obtain ⟨H₁, hduring, hfail⟩ := Option.bind_eq_some_iff.mp hended
  rw [hduring] at hmoves
  obtain ⟨H, hlast⟩ := Option.isSome_iff_exists.mp hmoves
  have hgoes : ∀ move ∈ rebuff, move.GoesOn 0 := by simp [rebuff, Move.GoesOn]
  have hnew : (Household.new {}).run? [] = some (Household.new {}) := rfl
  obtain ⟨⟨hphase, -⟩, -, hopened, -⟩ :=
    failure_leaves_nothing hnew hduring hgoes hlast hfail
  exact ⟨H₁, H, hduring, hlast, hfail, hphase, hopened⟩

end Household

end LoopbackLock
