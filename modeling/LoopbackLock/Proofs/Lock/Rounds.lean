import LoopbackLock.Proofs.Lock.Standing

/-!
# The rounds of a contender

Contending turns on few answers of the environment: whether the port could be bound, whether the
holder could be set to work on it, and how waiting ended. A round takes the answers of one try. It
decides the result or it does not (`Round.verdict`), and it shows in the states that the lock
stores meanwhile (`Round.shown`). Wherever a call stands, what it has been answered and has stored
is that of rounds that decided nothing and of the round it is in (`Call.Follows`), step by step
(`PortLock.follows_step`); so what a call is over with is the verdict of the first round that decides
(`Concluded`).
-/

namespace LoopbackLock

/-- An answer of the environment that contending turns on. -/
inductive Answer
  /-- The port could not be bound. -/
  | refused (f : Fault)
  | bound (listener : ListenerId)
  /-- No holder could be set to work on the listener. -/
  | unstarted (listener : ListenerId) (f : Fault) (operation : String)
  | started (listener : ListenerId) (holder : HolderId)
  /-- Waiting for the occupant ended. -/
  | waited (result : Except LockError WaitOutcome)

/-- The answers of one try. -/
inductive Round
  /-- The port was bound, and a holder works on its listener. -/
  | won (listener : ListenerId) (holder : HolderId)
  | unstarted (listener : ListenerId) (f : Fault) (operation : String)
  /-- The port could not be bound, and not because it is in use. -/
  | barred (f : Fault)
  /-- The port was in use, and its occupant was waited for. -/
  | waited (f : Fault) (result : Except LockError WaitOutcome)

namespace Round

/-- The answers in their order. -/
def answers : Round → List Answer
  | won ℓ h => [.bound ℓ, .started ℓ h]
  | unstarted ℓ f operation => [.bound ℓ, .unstarted ℓ f operation]
  | barred f => [.refused f]
  | waited f result => [.refused f, .waited result]

/-- An occupant is waited for exactly if the port is in use. -/
def Arises : Round → Prop
  | barred f => f.kind ≠ .addrInUse
  | waited f _ => f.kind = .addrInUse
  | _ => True

/-- What the round decides, if it decides anything. -/
def verdict (s : Settings) : Round → Option (Except LockError Acquisition)
  | won .. => some (.ok .bound)
  | unstarted _ f operation => some (.error (.io f s.endpoint operation))
  | barred f => some (.error (.io f s.endpoint "bind lock port"))
  | waited _ (.error why) => some (.error why)
  | waited _ (.ok .vanished) =>
    match s.onVanished with
    | .rebind => none
    | .assume => some (.ok .assumed)
  | waited _ (.ok .released) | waited _ (.ok .disconnected) => none

/-- The states stored after the lock has begun to acquire, by the round and by a call that fails
with it. -/
def settled (s : Settings) : Round → List LockState
  | won _ h => [.holding h]
  | unstarted .. | barred _ => [.idle]
  | waited _ (.error _) => [.waiting, .idle]
  | waited _ (.ok .vanished) =>
    match s.onVanished with
    | .rebind => [.waiting]
    | .assume => [.waiting, .assumed]
  | waited _ (.ok .released) | waited _ (.ok .disconnected) => [.waiting]

/-- The states stored in a round. -/
def shown (s : Settings) (ρ : Round) : List LockState := .acquiring :: ρ.settled s

end Round

/-- Rounds that decide nothing. -/
def Retries (s : Settings) (rounds : List Round) : Prop :=
  ∀ ρ ∈ rounds, ρ.Arises ∧ ρ.verdict s = none

/-- The states that so many rounds store which decide nothing. -/
def waits (k : Nat) : List LockState := (List.replicate k [.acquiring, .waiting]).flatten

/-- The first round that decides anything decides this. -/
def Concluded (s : Settings) (result : Except LockError Acquisition) (answers : List Answer)
    (shown : List LockState) : Prop :=
  ∃ (rounds : List Round) (last : Round), Retries s rounds ∧ last.Arises ∧ last.verdict s = some result ∧
    answers = rounds.flatMap Round.answers ++ last.answers ∧
    shown = waits rounds.length ++ last.shown s

namespace Contention

/-- The answer that a reply is, or completes. -/
def answer? (s : Settings) : Contention → Reply → Option Answer
  | binding, .bound ℓ => some (.bound ℓ)
  | binding, .failed f => some (.refused f)
  | unblocking ℓ, .failed f => some (.unstarted ℓ f "configure listener")
  | founding ℓ, .failed f => some (.unstarted ℓ f "spawn accept loop")
  | founding ℓ, .founded h => some (.started ℓ h)
  | watching v, r =>
    match v.step s r with
    | .over result => some (.waited result)
    | .going _ => none
  | _, _ => none

/-- What has been answered and stored in the round under way. -/
def Since (s : Settings) : Contention → List Answer → List LockState → Prop
  | announcing, A, S => A = [] ∧ S = []
  | binding, A, S => A = [] ∧ S = [.acquiring]
  | unblocking ℓ, A, S | founding ℓ, A, S => A = [.bound ℓ] ∧ S = [.acquiring]
  | unbinding ℓ why, A, S => S = [.acquiring] ∧
    ∃ f operation, why = .io f s.endpoint operation ∧ A = [.bound ℓ, .unstarted ℓ f operation]
  | installing h, A, S => S = [.acquiring] ∧ ∃ ℓ, A = [.bound ℓ, .started ℓ h]
  | yielding, A, S => S = [.acquiring] ∧ ∃ f, f.kind = .addrInUse ∧ A = [.refused f]
  | watching _, A, S => S = [.acquiring, .waiting] ∧
    ∃ f, f.kind = .addrInUse ∧ A = [.refused f]
  | assuming, A, S => S = [.acquiring, .waiting] ∧ s.onVanished = .assume ∧
    ∃ f, f.kind = .addrInUse ∧ A = [.refused f, .waited (.ok .vanished)]

/-- What has been answered and stored is that of rounds that decided nothing and of the round
under way. -/
def Follows (s : Settings) (c : Contention) (answers : List Answer) (stored : List LockState) :
    Prop :=
  ∃ rounds A S, Retries s rounds ∧ c.Since s A S ∧
    answers = rounds.flatMap Round.answers ++ A ∧ stored = waits rounds.length ++ S

end Contention

/-- The state after a step, if it is another one. -/
def LockState.changed (before after : LockState) : List LockState :=
  if after = before then [] else [after]

theorem waits_succ (k : Nat) : waits (k + 1) = waits k ++ [.acquiring, .waiting] := by
  unfold waits
  rw [List.replicate_succ', List.flatten_append]
  rfl

/-- The lock waits, and begins to acquire again, so many times. -/
def swings (k : Nat) : List LockState := (List.replicate k [.waiting, .acquiring]).flatten

/-- What rounds store that decide nothing alternates. -/
theorem waits_append (k : Nat) (S : List LockState) :
    waits k ++ .acquiring :: S = .acquiring :: (swings k ++ S) := by
  induction k with
  | zero => rfl
  | succ k ih =>
    have hwaits : waits (k + 1) = .acquiring :: .waiting :: waits k := rfl
    have hswings : swings (k + 1) = .waiting :: .acquiring :: swings k := rfl
    rw [hwaits, hswings, List.cons_append, List.cons_append, ih]
    rfl

variable {s : Settings} {A : List Answer} {S : List LockState}

/-- An acquisition that fails stores last that the lock is idle. -/
theorem Concluded.getLast?_error {why : LockError} (h : Concluded s (.error why) A S) :
    S.getLast? = some .idle := by
  obtain ⟨rounds, last, -, -, hv, -, rfl⟩ := h
  have hlast : (last.shown s).getLast? = some .idle := by
    rcases last with _ | _ | _ | ⟨f, why' | outcome⟩
    case won => cases hv
    case waited.ok =>
      cases outcome
      case vanished => simp only [Round.verdict] at hv; split at hv <;> cases hv
      all_goals cases hv
    all_goals rfl
  rw [List.getLast?_append, hlast]
  rfl

/-- A round that decides nothing is followed by the next one. -/
theorem Contention.follows_retry {rounds : List Round} {ρ : Round} (hr : Retries s rounds)
    (ha : ρ.Arises) (hv : ρ.verdict s = none) :
    announcing.Follows s (rounds.flatMap Round.answers ++ ρ.answers)
      (waits rounds.length ++ [.acquiring, .waiting]) := by
  refine ⟨rounds ++ [ρ], [], [], ?_, ⟨rfl, rfl⟩, by simp, by simp [waits_succ]⟩
  intro ρ' hmem
  obtain hmem | hmem := List.mem_append.mp hmem
  · exact hr ρ' hmem
  · obtain rfl : ρ' = ρ := by simpa using hmem
    exact ⟨ha, hv⟩

/-- What a contender goes on with, and what is stored of it. -/
def Progress.Follows (s : Settings) (A : List Answer) (S : List LockState) :
    Progress Contention (Except LockError Acquisition) → Prop
  | .going c => c.Follows s A S
  | .over (.ok how) => Concluded s (.ok how) A S
  | .over (.error why) => Concluded s (.error why) A (S ++ [.idle])

/-- The state after a contender's step. -/
def Contention.stateAfter (c : Contention) (r : Reply) (st : LockState) : LockState :=
  match c.stored?, r with
  | some state, .done => state
  | _, _ => st

namespace Contention

variable {c : Contention} {st : LockState} {rounds : List Round} {A' : List Answer}
  {S' : List LockState}

/-- The round goes on with an answer, or with a state stored. -/
theorem Since.on (h : c.Since s (A' ++ A) (S' ++ S)) (hr : Retries s rounds) :
    c.Follows s (rounds.flatMap Round.answers ++ A' ++ A) (waits rounds.length ++ S' ++ S) :=
  ⟨rounds, A' ++ A, S' ++ S, hr, h, List.append_assoc .., List.append_assoc ..⟩

/-- The round ends, and decides the result. -/
theorem concluded {result : Except LockError Acquisition} (last : Round) (hr : Retries s rounds)
    (ha : last.Arises) (hv : last.verdict s = some result) (hA : A' ++ A = last.answers)
    (hS : S' ++ S = last.shown s) :
    Concluded s result (rounds.flatMap Round.answers ++ A' ++ A)
      (waits rounds.length ++ S' ++ S) :=
  ⟨rounds, last, hr, ha, hv, by rw [List.append_assoc, hA], by rw [List.append_assoc, hS]⟩

/-- The round ends with an error; that the lock is idle is still to be stored. -/
theorem concluded_failed {why : LockError} (last : Round) (hr : Retries s rounds)
    (ha : last.Arises) (hv : last.verdict s = some (.error why)) (hA : A' ++ A = last.answers)
    (hS : S' ++ [.idle] = last.shown s) :
    Concluded s (.error why) (rounds.flatMap Round.answers ++ A' ++ A)
      (waits rounds.length ++ S' ++ [] ++ [.idle]) := by
  rw [List.append_nil]
  exact concluded last hr ha hv hA hS

/-- Waiting has ended, and the policy tells whether the round decides anything. -/
theorem follows_resume {f : Fault} (hr : Retries s rounds) (hf : f.kind = .addrInUse)
    (outcome : WaitOutcome) :
    (resume s outcome).Follows s
      (rounds.flatMap Round.answers ++ [.refused f] ++ [.waited (.ok outcome)])
      (waits rounds.length ++ [.acquiring, .waiting]) := by
  have hretry (h : (Round.waited f (.ok outcome)).verdict s = none) :
      announcing.Follows s
        (rounds.flatMap Round.answers ++ [.refused f] ++ [.waited (.ok outcome)])
        (waits rounds.length ++ [.acquiring, .waiting]) := by
    rw [List.append_assoc]
    have ha : (Round.waited f (.ok outcome)).Arises := hf
    exact follows_retry hr ha h
  cases outcome with
  | released => exact hretry rfl
  | disconnected => exact hretry rfl
  | vanished =>
    unfold resume
    cases hp : s.onVanished with
    | rebind =>
      apply hretry
      simp only [Round.verdict, hp]
    | assume =>
      refine ⟨rounds, [.refused f, .waited (.ok .vanished)], [.acquiring, .waiting], hr, ?_,
        by simp, rfl⟩
      exact ⟨rfl, hp, f, hf, rfl⟩

/-- A step of a contender goes on with the round, or ends it. -/
theorem follows_step (h : c.Follows s A S) (hf : c.Fits st) (r : Reply) :
    (c.step s r).Follows s (A ++ (c.answer? s r).toList)
      (S ++ st.changed (c.stateAfter r st)) := by
  obtain ⟨rounds, A', S', hr, hsince, rfl, rfl⟩ := h
  fun_cases Contention.step s c r
  case case1 =>
    obtain ⟨rfl, rfl⟩ := hsince
    apply Since.on _ hr
    refine ⟨rfl, ?_⟩
    rcases hf with rfl | rfl <;> rfl
  case case2 ℓ =>
    obtain ⟨rfl, rfl⟩ := hsince
    obtain rfl := hf
    exact Since.on ⟨rfl, rfl⟩ hr
  case case3 f hkind =>
    obtain ⟨rfl, rfl⟩ := hsince
    obtain rfl := hf
    exact Since.on ⟨rfl, f, hkind, rfl⟩ hr
  case case4 f hkind =>
    obtain ⟨rfl, rfl⟩ := hsince
    obtain rfl := hf
    rw [Progress.Follows]
    exact concluded_failed (.barred f) hr hkind rfl rfl rfl
  case case5 ℓ =>
    obtain ⟨rfl, rfl⟩ := hsince
    obtain rfl := hf
    exact Since.on ⟨rfl, rfl⟩ hr
  case case6 ℓ f =>
    obtain ⟨rfl, rfl⟩ := hsince
    obtain rfl := hf
    exact Since.on ⟨rfl, f, _, rfl, rfl⟩ hr
  case case7 ℓ h =>
    obtain ⟨rfl, rfl⟩ := hsince
    obtain rfl := hf
    exact Since.on ⟨rfl, ℓ, rfl⟩ hr
  case case8 ℓ f =>
    obtain ⟨rfl, rfl⟩ := hsince
    obtain rfl := hf
    exact Since.on ⟨rfl, f, _, rfl, rfl⟩ hr
  case case9 ℓ why =>
    obtain ⟨rfl, f, operation, rfl, rfl⟩ := hsince
    obtain rfl := hf
    exact concluded_failed (.unstarted ℓ f operation) hr trivial rfl rfl rfl
  case case10 h =>
    obtain ⟨rfl, ℓ, rfl⟩ := hsince
    obtain rfl := hf
    exact concluded (.won ℓ h) hr trivial rfl rfl rfl
  case case11 =>
    obtain ⟨rfl, f, hkind, rfl⟩ := hsince
    obtain rfl := hf
    exact Since.on ⟨rfl, f, hkind, rfl⟩ hr
  case case12 v v' hv =>
    obtain ⟨rfl, f, hkind, rfl⟩ := hsince
    obtain rfl := hf
    simp only [answer?, hv]
    exact Since.on ⟨rfl, f, hkind, rfl⟩ hr
  case case13 v outcome hv =>
    obtain ⟨rfl, f, hkind, rfl⟩ := hsince
    obtain rfl := hf
    have hsame : LockState.waiting.changed ((watching v).stateAfter r .waiting) = [] := rfl
    simp only [answer?, hv, hsame, List.append_nil]
    exact follows_resume hr hkind outcome
  case case14 v why hv =>
    obtain ⟨rfl, f, hkind, rfl⟩ := hsince
    obtain rfl := hf
    simp only [answer?, hv]
    exact concluded_failed (.waited f (.error why)) hr hkind rfl rfl rfl
  case case15 =>
    obtain ⟨rfl, hp, f, hkind, rfl⟩ := hsince
    obtain rfl := hf
    exact concluded (.waited f (.ok .vanished)) hr hkind
      (by simp only [Round.verdict, hp]) rfl (by simp only [Round.shown, Round.settled, hp]; rfl)
  case case16 =>
    -- the reply is none that this stage waits for
    have hanswer : c.answer? s r = none := by
      cases c <;> cases r <;> first | rfl | exact (by simp_all : False).elim
    have hstate : c.stateAfter r st = st := by
      cases c <;> cases r <;> first | rfl | exact (by simp_all : False).elim
    rw [hanswer, hstate]
    exact Since.on (by simpa [LockState.changed] using hsince) hr

/-- A contender that gets the lock stores another state than the lock had. -/
theorem changed_of_won {how : Acquisition} {r : Reply} (hf : c.Fits st)
    (h : c.step s r = .over (.ok how)) :
    st.changed (c.stateAfter r st) = [c.stateAfter r st] := by
  revert h
  fun_cases Contention.step s c r <;> intro h <;> cases h
  all_goals
    obtain rfl := hf
    rfl

end Contention

end LoopbackLock
