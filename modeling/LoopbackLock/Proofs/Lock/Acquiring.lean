import LoopbackLock.Proofs.Lock.Failure
import LoopbackLock.Proofs.Lock.Rounds

/-!
# What an acquisition comes to

An acquisition that is not a thread's second hold goes through the rounds of a contender, whatever
the other threads of the household do meanwhile. The answers to its requests and the states that its
steps leave are those of rounds that decide nothing, and of one that decides how the call is over
(`Household.acquisition_follows_rounds`). Where the policy is to bind the port again, no lock is ever
assumed (`Household.unassumed_of_run`).
-/

namespace LoopbackLock

/-- The answer that a reply to a call is, or completes. -/
def Call.answer? (s : Settings) : Call → Reply → Option Answer
  | .contending c, r => c.answer? s r
  | _, _ => none

/-- What an acquisition has been answered and has stored, where it stands. -/
def Call.Follows (s : Settings) : Call → List Answer → List LockState → Prop
  | .entering, A, S => A = [] ∧ S = []
  | .contending c, A, S => c.Follows s A S
  | .failing why, A, S => Concluded s (.error why) A (S ++ [.idle])
  | .quitting why, A, S => Concluded s (.error why) A S
  | _, _, _ => False

/-- The result of an acquisition. -/
def Ending.result? : Ending → Option (Except LockError Acquisition)
  | .acquired how => some (.ok how)
  | .failed why => some (.error why)
  | .released | .dropped => none

/-- A result tells how the acquisition ended. -/
theorem Ending.acquired_of_result {ending : Ending} {how : Acquisition}
    (h : ending.result? = some (.ok how)) : ending = .acquired how := by
  cases ending <;> cases h
  rfl

namespace Round

variable {s : Settings} {ρ : Round}

/-- A round that decides on a bound port has bound it. -/
theorem won_of_verdict (h : ρ.verdict s = some (.ok .bound)) : ∃ ℓ k, ρ = won ℓ k := by
  rcases ρ with ⟨ℓ, k⟩ | _ | _ | ⟨f, why | outcome⟩
  case won => exact ⟨ℓ, k, rfl⟩
  case waited.ok =>
    cases outcome
    case vanished => simp only [verdict] at h; split at h <;> cases h
    all_goals cases h
  all_goals cases h

/-- A round that decides to assume the lock has the policy for it. -/
theorem policy_of_verdict (h : ρ.verdict s = some (.ok .assumed)) : s.onVanished = .assume := by
  rcases ρ with _ | _ | _ | ⟨f, why | outcome⟩
  case waited.ok =>
    cases outcome
    case vanished =>
      simp only [verdict] at h
      split at h
      · cases h
      · assumption
    all_goals cases h
  all_goals cases h

end Round

namespace PortLock

variable {l : PortLock} {t : ThreadId} {c : Call} {A : List Answer} {S : List LockState}

theorem changed_self (st : LockState) : st.changed st = [] := if_pos rfl

/-- What a call goes on with, or is over with. -/
def Goes (l : PortLock) (t : ThreadId) (A : List Answer) (S : List LockState) :
    Progress Call Ending → Prop
  | .going c => c.Follows l.settings A S ∧ (c = .entering → l.gate.owner ≠ some t)
  | .over ending => ∃ result, ending.result? = some result ∧ Concluded l.settings result A S ∧
    S.getLast? = some l.state

/-- A contender that enters the gate has nothing answered or stored yet. -/
theorem follows_announcing (s : Settings) : Contention.announcing.Follows s [] [] :=
  ⟨[], [], [], fun _ h => absurd h List.not_mem_nil, ⟨rfl, rfl⟩, rfl, rfl⟩

/-- A step of a contender, and what the call goes on with. -/
theorem goes_contend {c : Contention} (h : c.Follows l.settings A S)
    (hf : c.Fits l.state) (r : Reply) :
    (l.contend c r).1.Goes t (A ++ (c.answer? l.settings r).toList)
      (S ++ l.state.changed (l.contend c r).1.state) (l.contend c r).2 := by
  have hstate : (l.contend c r).1.state = c.stateAfter r l.state := l.contend_state c r
  have hnext := Contention.follows_step h hf r
  have hsettings := l.contend_settings c r
  rw [hstate]
  rcases hstep : c.step l.settings r with c' | why | how <;> rw [hstep] at hnext
  · have hgoes : (l.contend c r).2 = .going (.contending c') := by simp only [contend, hstep]
    rw [hgoes]
    refine ⟨?_, fun heq => by cases heq⟩
    rw [hsettings]
    exact hnext
  · have hgoes : (l.contend c r).2 = .going (.failing why) := by simp only [contend, hstep]
    rw [hgoes]
    refine ⟨?_, fun heq => by cases heq⟩
    rw [hsettings]
    exact hnext
  · have hgoes : (l.contend c r).2 = .over (.acquired how) := by simp only [contend, hstep]
    rw [hgoes]
    refine ⟨_, rfl, ?_, ?_⟩
    · rw [hsettings]
      exact hnext
    · rw [hstate, Contention.changed_of_won hf hstep, List.getLast?_append]
      rfl

/-- A step of an acquisition goes on with its rounds. -/
theorem goes_step (h : c.Follows l.settings A S) (hs : l.Stands t (some c))
    (henter : c = .entering → l.gate.owner ≠ some t) (r : Reply) :
    (l.step t c r).1.Goes t (A ++ (c.answer? l.settings r).toList)
      (S ++ l.state.changed (l.step t c r).1.state) (l.step t c r).2 := by
  fun_cases PortLock.step l t c r
  case case1 =>
    obtain ⟨rfl, rfl⟩ := h
    rcases ho : l.gate.owner with _ | o
    · rw [enter_open ho]
      simp only [changed_self]
      exact ⟨follows_announcing l.settings, fun heq => by cases heq⟩
    · have hot : o ≠ t := fun heq => henter rfl (by rw [ho, heq])
      rw [enter_barred ho hot]
      simp only [changed_self]
      refine ⟨⟨rfl, rfl⟩, fun _ => ?_⟩
      rw [ho]
      simpa using hot
  case case3 c => exact goes_contend h hs.2 r
  case case4 why =>
    have hne : LockState.idle ≠ l.state := by
      rcases hs.2 with hst | hst <;> rw [hst] <;> exact LockState.noConfusion
    have hchanged : l.state.changed .idle = [.idle] := if_neg hne
    simp only [Call.answer?, Option.toList_none, List.append_nil, hchanged]
    exact ⟨h, fun heq => by cases heq⟩
  case case5 why choice =>
    have hstate : (l.leave t choice).state = l.state := rfl
    simp only [Call.answer?, Option.toList_none, List.append_nil, hstate, changed_self]
    exact ⟨_, rfl, h, h.getLast?_error.trans (congrArg some hs.2.symm)⟩
  case case15 =>
    -- the reply is none that this stage waits for
    simp only [changed_self, List.append_nil]
    cases c
    case contending => exact (by simp_all : False).elim
    case entering => exact ⟨by simpa [Call.answer?] using h, henter⟩
    case failing => exact ⟨by simpa [Call.answer?] using h, henter⟩
    case quitting => exact ⟨by simpa [Call.answer?] using h, henter⟩
    all_goals exact h.elim
  all_goals exact h.elim

end PortLock

namespace Household

variable {H H₁ H' : Household} {t : ThreadId} {r : Reply} {c : Call} {move : Move}
  {moves : List Move} {m : Mutex} {A : List Answer} {S : List LockState}

/-- The answer that a thread's call takes with a move. -/
def answered (t : ThreadId) (H : Household) : Move → List Answer
  | .replied t' r => if t' = t then ((H.calls t).bind (·.answer? H.lock.settings r)).toList else []
  | _ => []

/-- The state that a step of a thread leaves, if it is another one. -/
def stored (t : ThreadId) (H : Household) : Move → List LockState
  | .replied t' r =>
    if t' = t then (H.calls t).elim [] fun c => H.lock.state.changed (H.lock.step t c r).1.state
    else []
  | _ => []

/-- What the moves of a run tell, one after the other. -/
def gather {α : Type} (tell : Household → Move → List α) : Household → List Move → List α
  | _, [] => []
  | H, move :: moves =>
    match H.move? move with
    | none => []
    | some H' => tell H move ++ H'.gather tell moves

theorem gather_cons {α : Type} (tell : Household → Move → List α) (h : H.move? move = some H') :
    H.gather tell (move :: moves) = tell H move ++ H'.gather tell moves := by
  rw [gather, h]

/-- Where an acquisition of a thread stands. -/
def Acquires (H : Household) (t : ThreadId) (A : List Answer) (S : List LockState) : Prop :=
  ∀ c, H.calls t = some c → c.Follows H.lock.settings A S ∧
    (c = .entering → H.lock.gate.owner ≠ some t)

theorem answered_own (hc : H.calls t = some c) (r : Reply) :
    H.answered t (.replied t r) = (c.answer? H.lock.settings r).toList := by
  simp [answered, hc]

theorem stored_own (hc : H.calls t = some c) (r : Reply) :
    H.stored t (.replied t r) = H.lock.state.changed (H.lock.step t c r).1.state := by
  simp [stored, hc]

/-- A move of the household goes on with the acquisition of a thread. -/
theorem acquires_of_move (hk : H.Kept m) (hA : H.Acquires t A S) (hgoes : move.GoesOn t)
    (h : H.move? move = some H') :
    H'.Acquires t (A ++ H.answered t move) (S ++ H.stored t move) := by
  rcases moved_of_move? h with ⟨hc⟩ | ⟨hc⟩ | @⟨t', r, c, hc⟩ | t'
  case acquires t' =>
    have htt : t ≠ t' := fun heq => hgoes.1 (by rw [heq])
    intro c hc'
    have hc' : H.calls t = some c := (put_of_ne htt).symm.trans hc'
    simpa [answered, stored] using hA c hc'
  case releases t' =>
    have htt : t ≠ t' := fun heq => hgoes.2 (by rw [heq])
    intro c hc'
    have hc' : H.calls t = some c := (put_of_ne htt).symm.trans hc'
    simpa [answered, stored] using hA c hc'
  case replied =>
    intro c' hc'
    have hc' : put H.calls t' (H.lock.step t' c r).2.call? t = some c' := hc'
    by_cases htt : t = t'
    · subst htt
      rw [put_same] at hc'
      obtain ⟨hfollows, henter⟩ := hA c hc
      have hgo := PortLock.goes_step hfollows (hc ▸ hk.stands t) henter r
      rw [Progress.call?_eq_some hc'] at hgo
      rw [answered_own hc, stored_own hc]
      exact hgo
    · rw [put_of_ne htt] at hc'
      obtain ⟨hfollows, henter⟩ := hA c' hc'
      have hsettings : (H.replied t' c r).lock.settings = H.lock.settings :=
        PortLock.step_settings H.lock t' c r
      have hanswered : H.answered t (.replied t' r) = [] := if_neg (Ne.symm htt)
      have hstored : H.stored t (.replied t' r) = [] := if_neg (Ne.symm htt)
      rw [hanswered, hstored, List.append_nil, List.append_nil, hsettings]
      refine ⟨hfollows, fun heq ho => ?_⟩
      have ho : (H.lock.step t' c r).1.gate.owner = some t := ho
      rcases PortLock.step_owner H.lock t' c r with hsame | hown | hnone
      · exact henter heq (hsame.symm.trans ho)
      · exact htt (Option.some.inj (ho.symm.trans hown))
      · cases hnone.symm.trans ho
  case stirs =>
    intro c hc
    simp only [answered, stored, List.append_nil]
    exact hA c hc

/-- A run of the household goes on with the acquisition of a thread. -/
theorem acquires_of_run (hk : H.Kept m) (hA : H.Acquires t A S)
    (hgoes : ∀ move ∈ moves, move.GoesOn t) (h : H.run? moves = some H₁) :
    H₁.Acquires t (A ++ H.gather (answered t) moves) (S ++ H.gather (stored t) moves) := by
  induction moves generalizing H A S m with
  | nil =>
    obtain rfl := Option.some.inj h
    simpa [gather] using hA
  | cons move moves ih =>
    rw [run?_cons] at h
    obtain ⟨H₂, hmove, hrun⟩ := Option.bind_eq_some_iff.mp h
    obtain ⟨m₂, hk₂⟩ := hk.moved (moved_of_move? hmove)
    have hnext := acquires_of_move hk hA (hgoes move List.mem_cons_self) hmove
    have hrest := ih hk₂ hnext (fun move hmem => hgoes move (List.mem_cons_of_mem _ hmem)) hrun
    simpa [gather_cons _ hmove, List.append_assoc] using hrest

/-- A call that ends is over with its last step. -/
theorem over_of_ended {ending : Ending} (hmove : H.move? (.replied t r) = some H')
    (hended : H.ended? (.replied t r) = some ending) :
    ∃ c, H.calls t = some c ∧ (H.lock.step t c r).2 = .over ending ∧ H' = H.replied t c r := by
  obtain ⟨c, hc, hstep⟩ := Option.bind_eq_some_iff.mp hended
  refine ⟨c, hc, ?_, ?_⟩
  · rcases hp : (H.lock.step t c r).2 with c' | ending' <;> rw [hp] at hstep <;> cases hstep
    rfl
  · rcases moved_of_move? hmove with _ | _ | @⟨_, _, c', hc'⟩ | _
    cases hc.symm.trans hc'
    rfl

/-- The last step of an acquisition ends with what its rounds have decided. -/
theorem concluded_of_ended {ending : Ending} (hk : H.Kept m) (hA : H.Acquires t A S)
    (hmove : H.move? (.replied t r) = some H') (hended : H.ended? (.replied t r) = some ending) :
    ∃ result, ending.result? = some result ∧
      Concluded H.lock.settings result (A ++ H.answered t (.replied t r))
        (S ++ H.stored t (.replied t r)) ∧
      (S ++ H.stored t (.replied t r)).getLast? = some H'.lock.state := by
  obtain ⟨c, hc, hover, rfl⟩ := over_of_ended hmove hended
  obtain ⟨hfollows, henter⟩ := hA c hc
  have hgo := PortLock.goes_step hfollows (hc ▸ hk.stands t) henter r
  rw [hover] at hgo
  rw [answered_own hc, stored_own hc]
  obtain ⟨result, hresult, hconcluded, hlast⟩ := hgo
  rw [PortLock.step_settings] at hconcluded
  exact ⟨result, hresult, hconcluded, hlast⟩

/-! ## Locks that bind the port again -/

end Household

theorem Contention.resume_ne_assuming {s : Settings} (hp : s.onVanished = .rebind)
    (outcome : WaitOutcome) : resume s outcome ≠ assuming := by
  cases outcome <;> simp [resume, hp]

theorem Contention.step_ne_assuming {s : Settings} (hp : s.onVanished = .rebind)
    {c : Contention} (hc : c ≠ assuming) (r : Reply) : c.step s r ≠ .going assuming := by
  fun_cases Contention.step s c r
  case case13 v outcome hv =>
    intro heq
    exact resume_ne_assuming hp outcome (Progress.going.inj heq)
  case case16 =>
    intro heq
    exact hc (Progress.going.inj heq)
  all_goals exact fun heq => by cases heq

namespace PortLock

theorem unassumed_contend {l : PortLock} {c : Contention} (r : Reply)
    (hp : l.settings.onVanished = .rebind) (hs : l.state ≠ .assumed) (hc : c ≠ .assuming) :
    (l.contend c r).1.state ≠ .assumed ∧ (l.contend c r).2 ≠ .going (.contending .assuming) := by
  have hstep := Contention.step_ne_assuming hp hc r
  refine ⟨?_, ?_⟩
  · rw [contend_state]
    cases c <;> cases r <;> first | exact hs | exact LockState.noConfusion | exact absurd rfl hc
  · intro heq
    apply hstep
    unfold PortLock.contend at heq
    rcases hp' : c.step l.settings r with c' | why | how <;> rw [hp'] at heq <;> cases heq
    rfl

/-- A lock that binds the port again is not assumed by a step. -/
theorem unassumed_step {l : PortLock} {t : ThreadId} {c : Call} (r : Reply)
    (hp : l.settings.onVanished = .rebind) (hs : l.state ≠ .assumed)
    (hc : c ≠ .contending .assuming) :
    (l.step t c r).1.state ≠ .assumed ∧ (l.step t c r).2 ≠ .going (.contending .assuming) := by
  fun_cases PortLock.step l t c r
  case case1 =>
    obtain ⟨_, _, hentered, rfl | rfl | rfl⟩ := l.enter_cases t <;> rw [hentered] <;>
      exact ⟨hs, fun heq => by cases heq⟩
  case case3 c => exact unassumed_contend r hp hs fun heq => hc (by rw [heq])
  case case6 =>
    rcases l.count_cases t with hcount | hcount | hcount <;> rw [hcount] <;>
      exact ⟨hs, fun heq => by cases heq⟩
  case case7 next =>
    refine ⟨LockState.noConfusion, ?_⟩
    rcases hst : l.state <;> simp only [next, hst] <;> exact fun heq => by cases heq
  case case15 =>
    refine ⟨hs, fun heq => hc (Progress.going.inj heq)⟩
  all_goals first | exact ⟨hs, fun heq => by cases heq⟩ |
    exact ⟨LockState.noConfusion, fun heq => by cases heq⟩

end PortLock

namespace Household

variable {s : Settings} {H : Household} {moves : List Move}

/-- A lock whose policy is to bind the port again is never assumed. -/
theorem unassumed_of_run (hp : s.onVanished = .rebind)
    (hrun : (Household.new s).run? moves = some H) : H.lock.phase ≠ .assumed := by
  have hinv : H.lock.settings = s ∧ H.lock.state ≠ .assumed ∧
      ∀ t, H.calls t ≠ some (.contending .assuming) := by
    refine foldlM_invariant (P := fun H => H.lock.settings = s ∧ H.lock.state ≠ .assumed ∧
      ∀ t, H.calls t ≠ some (.contending .assuming)) (fun H move H' _ hH hmove => ?_)
      ⟨rfl, LockState.noConfusion, fun _ heq => by cases heq⟩ hrun
    obtain ⟨hs, hst, hcalls⟩ := hH
    rcases moved_of_move? hmove with @⟨t, -⟩ | @⟨t, -⟩ | @⟨t, r, c, hc⟩ | t
    case acquires | releases =>
      refine ⟨hs, hst, fun t' => ?_⟩
      by_cases htt : t' = t
      · subst htt
        exact fun heq => by cases put_same.symm.trans heq
      · exact fun heq => hcalls t' ((put_of_ne htt).symm.trans heq)
    case replied =>
      have hne : c ≠ .contending .assuming := fun heq => hcalls t (by rw [hc, heq])
      obtain ⟨hst', hstep⟩ := PortLock.unassumed_step (t := t) r (hs ▸ hp) hst hne
      refine ⟨(PortLock.step_settings H.lock t c r).trans hs, hst', fun t' heq => ?_⟩
      have heq : put H.calls t (H.lock.step t c r).2.call? t' = _ := heq
      by_cases htt : t' = t
      · rw [htt, put_same] at heq
        exact hstep (Progress.call?_eq_some heq)
      · exact hcalls t' ((put_of_ne htt).symm.trans heq)
    case stirs => exact ⟨hs, hst, hcalls⟩
  intro hphase
  refine hinv.2.1 ?_
  rcases hst : H.lock.state <;> rw [PortLock.phase, hst] at hphase <;>
    first | rfl | cases hphase

/-! ## The whole acquisition -/

variable {before during : List Move} {H₀ : Household}

/-- An acquisition of a thread that does not own the gate begins with nothing answered or stored. -/
theorem acquires_begun {H₁ : Household} {t : ThreadId} (ho : H₀.lock.gate.owner ≠ some t)
    (hbegin : H₀.move? (.acquires t) = some H₁) : H₁.Acquires t [] [] := by
  rcases moved_of_move? hbegin with @⟨_, -⟩ | _ | _ | _
  intro c hc
  have hc : put H₀.calls t (some .acquire) t = some c := hc
  rw [put_same] at hc
  cases hc
  exact ⟨⟨rfl, rfl⟩, fun _ => ho⟩

theorem gather_append {α : Type} (tell : Household → Move → List α) {H H' : Household}
    {moves' : List Move} (h : H.run? moves = some H') :
    H.gather tell (moves ++ moves') = H.gather tell moves ++ H'.gather tell moves' := by
  induction moves generalizing H with
  | nil => cases h; rfl
  | cons move moves ih =>
    rw [run?_cons] at h
    obtain ⟨H₁, hmove, h⟩ := Option.bind_eq_some_iff.mp h
    rw [List.cons_append, gather_cons tell hmove, gather_cons tell hmove, ih h, List.append_assoc]

theorem gather_single {α : Type} (tell : Household → Move → List α) {H H' : Household}
    {move : Move} (h : H.move? move = some H') : H.gather tell [move] = tell H move := by
  rw [gather_cons tell h, gather, List.append_nil]

/-- These rounds decide nothing, and the last one decides what an acquisition returns. What the
acquisition stores alternates until the last round settles it. -/
structure Resolved (s : Settings) (rounds : List Round) (last : Round)
    (result : Except LockError Acquisition) (answers : List Answer) (states : List LockState)
    (H : Household) : Prop where
  retries : Retries s rounds
  arises : last.Arises
  verdict : last.verdict s = some result
  answers_eq : answers = rounds.flatMap Round.answers ++ last.answers
  states_eq : states = .acquiring :: (swings rounds.length ++ last.settled s)
  /-- The lock is left in the state that is stored last. -/
  left : states.getLast? = some H.lock.state
  /-- A lock that has bound the port serves it with the holder of that very bind. -/
  bound : result = .ok .bound →
    ∃ ℓ h, last = .won ℓ h ∧ H.lock.state = .holding h ∧ H.listening = .serving h
  assumed : result = .ok .assumed → s.onVanished = .assume

/-- A thread whose acquisition has just returned has the mutex. -/
theorem held_of_ended {how : Acquisition} {H' : Household} (hk : H.Kept m)
    (hmove : H.move? (.replied t r) = some H')
    (hended : H.ended? (.replied t r) = some (.acquired how)) :
    ∃ m', H'.Kept m' ∧ ∃ n, m' = .held t how n := by
  have hmoved := moved_of_move? hmove
  obtain ⟨m', hk'⟩ := hk.moved hmoved
  obtain ⟨c, hc, hover, rfl⟩ := over_of_ended hmove hended
  have hacquire : m.acquire? t how = some m' := by
    have hmutex : H.mutex.bind (·.settle? t (H.lock.step t c r).2) = some m' := hk'.mutex
    rw [hk.mutex, hover] at hmutex
    exact hmutex
  refine ⟨m', hk', ?_⟩
  rcases m with _ | ⟨o, how₀, n⟩
  · cases hacquire
    exact ⟨0, rfl⟩
  · obtain ⟨⟨rfl, rfl⟩, heq⟩ := Option.ite_none_right_eq_some.mp hacquire
    cases heq
    exact ⟨n + 1, rfl⟩

/-- An acquisition of a thread that does not own the gate goes through rounds, whatever the other
threads do and however the system replies. The first round that decides anything decides what it
returns, and what it stores tells no other story. With the policy to bind the port again no lock is
ever assumed. -/
theorem acquisition_follows_rounds {s : Settings} (hbefore : (Household.new s).run? before = some H₀) :
    (s.onVanished = .rebind → H₀.lock.phase ≠ .assumed) ∧
    ∀ {t : ThreadId} {during : List Move} {r : Reply} {H₁ H : Household} {ending : Ending},
      H₀.lock.gate.owner ≠ some t → H₀.run? (.acquires t :: during) = some H₁ →
      (∀ move ∈ during, move.GoesOn t) → H₁.move? (.replied t r) = some H →
      H₁.ended? (.replied t r) = some ending →
      ∃ rounds last result, ending.result? = some result ∧
        Resolved s rounds last result
          (H₀.gather (answered t) (.acquires t :: during ++ [.replied t r]))
          (H₀.gather (stored t) (.acquires t :: during ++ [.replied t r])) H := by
  refine ⟨fun hp => unassumed_of_run hp hbefore, ?_⟩
  intro t during r H₁ H ending howner hduring hgoes hlast hended
  have hrun₁ : (Household.new s).run? (before ++ .acquires t :: during) = some H₁ :=
    (run?_append hbefore).trans hduring
  obtain ⟨m₀, hkept₀⟩ := kept_of_run hbefore
  obtain ⟨m₁, hkept₁⟩ := kept_of_run hrun₁
  obtain ⟨H₂, hbegin, hrest⟩ := Option.bind_eq_some_iff.mp (run?_cons ▸ hduring)
  obtain ⟨m₂, hkept₂⟩ := hkept₀.moved (moved_of_move? hbegin)
  have hacquires := acquires_of_run hkept₂ (acquires_begun howner hbegin) hgoes hrest
  obtain ⟨result, hresult, hconcluded, hleft⟩ := concluded_of_ended hkept₁ hacquires hlast hended
  -- nothing is answered or stored when the acquisition begins
  have hgather {α : Type} (tell : Household → Move → List α) (hnone : tell H₀ (.acquires t) = []) :
      H₀.gather tell (.acquires t :: during ++ [.replied t r]) =
        [] ++ H₂.gather tell during ++ tell H₁ (.replied t r) := by
    rw [List.cons_append, gather_cons tell hbegin, hnone, gather_append tell hrest,
      gather_single tell hlast, List.append_assoc]
  rw [hgather (answered t) rfl, hgather (stored t) rfl]
  rw [settings_of_run hrun₁] at hconcluded
  obtain ⟨rounds, last, hretries, harises, hverdict, hanswers, hstates⟩ := hconcluded
  have hstates := hstates.trans (waits_append rounds.length (last.settled s))
  refine ⟨rounds, last, result, hresult, hretries, harises, hverdict, hanswers, hstates, hleft,
    fun hok => ?_, fun hok => ?_⟩
  · subst hok
    obtain ⟨ℓ, h, rfl⟩ := Round.won_of_verdict hverdict
    have hstate : H.lock.state = .holding h := by
      rw [hstates] at hleft
      simpa [Round.settled, List.getLast?_cons, List.getLast?_append] using hleft.symm
    obtain ⟨m, hkept, n, hheld⟩ := held_of_ended hkept₁ hlast (Ending.acquired_of_result hresult ▸ hended)
    obtain ⟨h', hstate', hserving⟩ := hkept.shows.listening t n hheld
    cases hstate.symm.trans hstate'
    exact ⟨ℓ, h, rfl, hstate, hserving⟩
  · subst hok
    exact Round.policy_of_verdict hverdict

/-- A thread finds the port taken by an occupant that departs, and binds it in the next round. -/
def reprise : List Move :=
  [.replied 0 .done, .acquires 1, .replied 1 .done,
    .replied 0 .done, .replied 0 (.failed .addressInUse), .replied 0 .done,
    .replied 0 (.failed .connectionRefused),
    .replied 0 .done, .replied 0 (.bound 4), .replied 0 .done, .replied 0 (.founded 2)]

theorem reprise_follows_rounds : ∃ H₁ H rounds last result,
    (Household.new {}).run? (.acquires 0 :: reprise) = some H₁ ∧ H₁.lock.phase ≠ .assumed ∧
      H₁.move? (.replied 0 .done) = some H ∧
      H₁.ended? (.replied 0 .done) = some (.acquired .bound) ∧
      Resolved {} rounds last result
        ((Household.new {}).gather (answered 0) (.acquires 0 :: reprise ++ [.replied 0 .done]))
        ((Household.new {}).gather (stored 0) (.acquires 0 :: reprise ++ [.replied 0 .done])) H ∧
      result = .ok .bound ∧
      (Household.new {}).gather (stored 0) (.acquires 0 :: reprise ++ [.replied 0 .done]) =
        [.acquiring, .waiting, .acquiring, .holding 2] := by
  have hended : ((Household.new {}).run? (.acquires 0 :: reprise)).bind
      (·.ended? (.replied 0 .done)) = some (.acquired .bound) := by decide +kernel
  have hmoves : (((Household.new {}).run? (.acquires 0 :: reprise)).bind
      (·.move? (.replied 0 .done))).isSome := by decide +kernel
  have hstored : (Household.new {}).gather (stored 0)
      (.acquires 0 :: reprise ++ [.replied 0 .done]) =
        [.acquiring, .waiting, .acquiring, .holding 2] := by decide +kernel
  obtain ⟨H₁, hduring, hend⟩ := Option.bind_eq_some_iff.mp hended
  rw [hduring] at hmoves
  obtain ⟨H, hlast⟩ := Option.isSome_iff_exists.mp hmoves
  have hgoes : ∀ move ∈ reprise, move.GoesOn 0 := by simp [reprise, Move.GoesOn]
  have hnew : (Household.new {}).run? [] = some (Household.new {}) := rfl
  obtain ⟨rounds, last, result, hresult, hresolved⟩ :=
    (acquisition_follows_rounds hnew).2 (by simp [new]) hduring hgoes hlast hend
  have hunassumed := (acquisition_follows_rounds hduring).1 rfl
  exact ⟨H₁, H, rounds, last, result, hduring, hunassumed, hlast, hend, hresolved,
    by cases hresult; rfl, hstored⟩

end Household

end LoopbackLock
