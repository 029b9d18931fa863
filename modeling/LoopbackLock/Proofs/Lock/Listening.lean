import LoopbackLock.Proofs.Lock.Custody
import LoopbackLock.Proofs.Lock.Mutex

/-!
# What a lock has open

A lock has a listener open from the reply that it is bound to the reply that it is closed, or that
the accepting worker of its holder has ended. `Listening.after` follows the replies to the lock's
requests; where the owner of the gate stands tells the same (`PortLock.listening_step`), and a lock
whose gate is open has nothing open (`PortLock.listening_of_open`).
-/

namespace LoopbackLock

/-- What a lock has open on the network. -/
inductive Listening
  | closed
  /-- A listener that no holder works on. -/
  | bound (listener : ListenerId)
  /-- The listener of a holder. -/
  | serving (holder : HolderId)
  deriving DecidableEq, Repr

/-- What is open after the reply to a request. A holder that has come about has the listener, and
when its accepting worker has ended the listener is closed. -/
def Listening.after (L : Listening) : Request → Reply → Listening
  | .bind _, .bound ℓ => bound ℓ
  | .found _, .founded h => serving h
  | .unbind _, .done | .join _, .done => closed
  | _, _ => L

/-- What a lock in no call has open. -/
def LockState.listening : LockState → Listening
  | holding h => .serving h
  | _ => .closed

/-- What a lock has open whose contender stands here. -/
def Contention.listening : Contention → Listening
  | unblocking ℓ | founding ℓ | unbinding ℓ _ => .bound ℓ
  | installing h => .serving h
  | _ => .closed

/-- What a lock has open whose holder is dismantled. -/
def Dismantling.listening (h : HolderId) : Dismantling → Listening
  | sweeping | clearing .. | abandoning => .closed
  | _ => .serving h

/-- What a lock has open while the owner of its gate stands here. -/
def PortLock.listening (l : PortLock) : Option Call → Listening
  | some (.contending c) => c.listening
  | some (.dismantling h d) => d.listening h
  | _ => l.state.listening

theorem Listening.after_of_isIdle {L : Listening} {q : Request} (h : q.isIdle = true) (r : Reply) :
    L.after q r = L := by
  cases q <;> first | rfl | cases h

theorem Listening.after_of_isContact {L : Listening} {q : Request} (h : q.isContact = true)
    (r : Reply) : L.after q r = L := by
  cases q <;> first | rfl | cases h

theorem Contention.listening_resume (s : Settings) (outcome : WaitOutcome) :
    (resume s outcome).listening = .closed := by
  unfold resume
  split
  · rfl
  · rfl
  · split <;> rfl

theorem Dismantling.listening_notify (h : HolderId) (links : List LinkId) :
    (notify links).listening h = .serving h := by
  cases links <;> rfl

theorem Dismantling.listening_clear (h : HolderId) (links : List LinkId) :
    (clear links).listening h = .closed := by
  cases links <;> rfl

/-- The listener of a holder is closed when its accepting worker is waited for. -/
theorem Dismantling.listening_step {h : HolderId} {d d' : Dismantling} {r : Reply}
    (hd : d.step true r = .going d') :
    (d.listening h).after (d.request h) r = d'.listening h := by
  revert hd
  fun_cases Dismantling.step true d r
  case case1 => intro hd; cases hd; exact (listening_notify h _).symm
  case case8 => intro hd; cases hd; exact (listening_notify h _).symm
  case case11 | case12 => intro hd; cases hd; exact (listening_clear h _).symm
  case case14 =>
    -- the reply is none that this stage waits for
    intro hd
    cases hd
    cases d <;> cases r <;> first | rfl | exact (by simp_all : False).elim
  all_goals intro hd; cases hd <;> rfl

theorem Dismantling.listening_over {h : HolderId} {d : Dismantling} {r : Reply}
    (hd : d.step true r = .over ()) : (d.listening h).after (d.request h) r = .closed := by
  revert hd
  fun_cases Dismantling.step true d r <;> intro hd <;> cases hd
  rfl

namespace PortLock

variable {l : PortLock} {t : ThreadId} {c : Call}

theorem listening_contend {c : Contention} (r : Reply) (hf : c.Fits l.state) :
    c.listening.after (c.request l.settings) r =
      (l.contend c r).1.listening (l.contend c r).2.call? := by
  have hstate : ∀ {s : LockState}, s = .acquiring ∨ s = .waiting → s.listening = .closed := by
    rintro s (rfl | rfl) <;> rfl
  unfold PortLock.contend
  fun_cases Contention.step l.settings c r
  case case13 v outcome hv =>
    show _ = (Contention.resume l.settings outcome).listening
    rw [Contention.listening_resume]
    exact Listening.after_of_isContact (v.isContact_request l.settings) r
  case case12 v _ _ => exact Listening.after_of_isContact (v.isContact_request l.settings) r
  case case14 v _ _ =>
    have hafter := Listening.after_of_isContact (L := .closed) (v.isContact_request l.settings) r
    exact hafter.trans (hstate (.inr hf)).symm
  case case16 =>
    -- the reply is none that this stage waits for
    cases c <;> cases r <;> first | rfl | exact (by simp_all : False).elim
  all_goals
    simp_all [Contention.stored?, Contention.Fits, Contention.listening, Contention.request,
      Listening.after, PortLock.listening, LockState.listening, Progress.call?]

/-- A step of the thread that owns the gate, and what is then open. -/
theorem listening_step (r : Reply) (hs : l.Stands t (some c)) (ho : l.gate.owner = some t)
    (hdrop : c.isDrop = false) :
    (l.listening (some c)).after (c.request l.settings) r =
      (l.step t c r).1.listening (l.step t c r).2.call? := by
  fun_cases PortLock.step l t c r
  case case1 => rw [enter_own ho]; rfl
  case case3 c => exact listening_contend r hs.2
  case case4 =>
    show l.state.listening = _
    rcases hs.2 with hst | hst <;> rw [hst] <;> rfl
  case case6 =>
    rcases l.count_cases t with heq | heq | heq <;> rw [heq] <;> rfl
  case case7 next =>
    show l.state.listening = _
    rcases hst : l.state <;> simp only [next, hst] <;> rfl
  case case8 h d d' hd =>
    exact Dismantling.listening_step hd
  case case9 h d hd =>
    have hidle : l.state.listening = .closed := by rw [show l.state = .idle from hs.2]; rfl
    exact (Dismantling.listening_over hd).trans hidle.symm
  case case15 =>
    -- the reply is none that this stage waits for
    cases c <;> first | rfl | exact (by simp_all : False).elim
  case case11 | case12 | case13 | case14 => cases hdrop
  all_goals rfl

/-- A lock whose gate is open has nothing open on the network. -/
theorem listening_of_open {c : Option Call} (hg : l.Gated) (hs : l.Stands t c)
    (ho : l.gate.owner = none) : l.listening c = .closed := by
  have hidle : l.state.listening = .closed := by rw [hg.idle_of_open ho]; rfl
  have hno : ∀ n, ¬l.Owns t n := fun n hn => by simp [hn.1] at ho
  match c with
  | some (.contending _) | some (.dismantling ..) => exact absurd hs.1 (hno 1)
  | none | some .entering | some .counting | some .retiring | some .rejoining | some .leaving
  | some (.dropping ..) | some (.failing _) | some (.quitting _) | some .resetting => exact hidle

/-- Who enters the open gate has nothing open yet. -/
theorem listening_entered (r : Reply) (h : l.Stands t (some c)) (ho : l.gate.owner = none)
    (hdrop : c.isDrop = false) (ho' : (l.step t c r).1.gate.owner = some t) :
    (l.step t c r).1.listening (l.step t c r).2.call? = .closed := by
  rcases stage_of_foreign h (by simp [ho]) hdrop with rfl | rfl
  · cases r
    case done => rw [PortLock.step, enter_open ho]; rfl
    all_goals cases ho.symm.trans ho'
  · cases r <;> cases ho.symm.trans ho'

end PortLock

end LoopbackLock
