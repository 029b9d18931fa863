import LoopbackLock.Lock.Vigil
import LoopbackLock.Exchange.Chance
import LoopbackLock.Proofs.Wire.Opening
import Mathlib.Logic.Function.Basic

/-!
# What a waiter meets

`Surroundings` are all that a challenge or a waiter gets to see: how its attempts to connect end,
one by one, and for each connection how setting its time limits and sending over it end and what its
reads bring, in any pieces and with any failures. An activity of given surroundings goes one way
(`Leads`, `Leads.unique`). A challenge that gets through to its connection listens until a call of a
reader on that connection is over (`Challenge.leads_takes`).
-/

namespace LoopbackLock

/-- What a waiter meets. -/
structure Surroundings where
  /-- How the attempts to connect end; when none is left, they are refused. -/
  connects : List (Except Fault LinkId)
  /-- How setting a time limit of a connection ends. -/
  limits : LinkId → UInt64 → Except Fault Unit
  /-- How sending over a connection ends. -/
  sends : LinkId → Except Fault Unit
  /-- What the reads of a connection bring; behind them its stream is at its end. -/
  reads : LinkId → List ReadAnswer

namespace Surroundings

/-- The reply to a request that brings nothing but success. -/
def outcome : Except Fault Unit → Reply
  | .ok () => .done
  | .error f => .failed f

/-- The reads of a connection that are left. -/
def withReads (E : Surroundings) (x : LinkId) (left : List ReadAnswer) : Surroundings :=
  { E with reads := Function.update E.reads x left }

/-- The reply to a request, and what there is to meet from then on. -/
def reply (E : Surroundings) : Request → Reply × Surroundings
  | .connect _ _ =>
    match E.connects with
    | [] => (.failed .connectionRefused, E)
    | .error f :: more => (.failed f, { E with connects := more })
    | .ok x :: more => (.connected x, { E with connects := more })
  | .limit x limit => (outcome (E.limits x limit), E)
  | .send x _ => (outcome (E.sends x), E)
  | .read x _ =>
    match E.reads x with
    | [] => (.heard [], E)
    | read :: left => (Network.replyOf read, E.withReads x left)
  | _ => (.done, E)

variable {E : Surroundings} {x y : LinkId} {left left' : List ReadAnswer}

@[simp] theorem withReads_connects : (E.withReads x left).connects = E.connects := rfl

@[simp] theorem withReads_limits : (E.withReads x left).limits = E.limits := rfl

@[simp] theorem withReads_sends : (E.withReads x left).sends = E.sends := rfl

@[simp] theorem withReads_same : (E.withReads x left).reads x = left := Function.update_self ..

theorem withReads_other (h : y ≠ x) : (E.withReads x left).reads y = E.reads y :=
  Function.update_of_ne h ..

@[simp] theorem withReads_withReads :
    (E.withReads x left).withReads x left' = E.withReads x left' := by
  unfold withReads
  rw [Function.update_idem]

theorem withReads_eq_self : E.withReads x (E.reads x) = E := by
  unfold withReads
  rw [Function.update_eq_self]

theorem reply_connect {more : List (Except Fault LinkId)} {result : Except Fault LinkId}
    (h : E.connects = result :: more) (endpoint : Endpoint) (limit : UInt64) :
    E.reply (.connect endpoint limit) =
      (match result with | .ok x => .connected x | .error f => .failed f,
        { E with connects := more }) := by
  unfold reply
  rcases result with f | x <;> simp only [h]

theorem reply_limit {limit : UInt64} {result : Except Fault Unit} (h : E.limits x limit = result) :
    E.reply (.limit x limit) = (outcome result, E) := by
  rw [← h]
  rfl

theorem reply_send {result : Except Fault Unit} (h : E.sends x = result) (m : Message) :
    E.reply (.send x m) = (outcome result, E) := by
  rw [← h]
  rfl

theorem reply_read {read : ReadAnswer} (h : E.reads x = read :: left) (limit : UInt64) :
    E.reply (.read x limit) = (Network.replyOf read, E.withReads x left) := by
  unfold reply
  simp only [h]

theorem reply_read_nil (h : E.reads x = []) (limit : UInt64) :
    E.reply (.read x limit) = (.heard [], E) := by
  unfold reply
  simp only [h]

end Surroundings

/-! ## Runs -/

section Runs

variable {Stage Result Stage' Result' : Type} {request : Stage → Request}
  {step : Stage → Reply → Progress Stage Result} {E E₁ E₂ : Surroundings}
  {p p₁ p₂ : Progress Stage Result}

/-- Step by step, an activity goes from one point to another, and its surroundings change so. -/
inductive Leads {Stage Result : Type} (request : Stage → Request)
    (step : Stage → Reply → Progress Stage Result) :
    Surroundings → Progress Stage Result → Surroundings → Progress Stage Result → Prop
  | here {E : Surroundings} {p : Progress Stage Result} : Leads request step E p E p
  | next {E E' : Surroundings} {stage : Stage} {p : Progress Stage Result}
    (htail : Leads request step (E.reply (request stage)).2
      (step stage (E.reply (request stage)).1) E' p) :
    Leads request step E (.going stage) E' p

/-- One step, from the reply to the request. -/
theorem Leads.of_reply {stage : Stage} {r : Reply} (hreply : E.reply (request stage) = (r, E₁))
    (h : Leads request step E₁ (step stage r) E₂ p) : Leads request step E (.going stage) E₂ p :=
  .next (by rw [hreply]; exact h)

theorem Leads.trans (h : Leads request step E p E₁ p₁) (h' : Leads request step E₁ p₁ E₂ p₂) :
    Leads request step E p E₂ p₂ := by
  induction h with
  | here => exact h'
  | next _ ih => exact .next (ih h')

/-- Of two points on a run, one leads to the other. -/
theorem Leads.tail {result : Result} (h : Leads request step E p E₁ p₁)
    (h' : Leads request step E p E₂ (.over result)) :
    Leads request step E₁ p₁ E₂ (.over result) := by
  induction h with
  | here => exact h'
  | next _ ih =>
    cases h' with
    | next htail => exact ih htail

/-- In given surroundings an activity ends in one way. -/
theorem Leads.unique {result result' : Result} (h : Leads request step E p E₁ (.over result))
    (h' : Leads request step E p E₂ (.over result')) : E₂ = E₁ ∧ result' = result := by
  cases h.tail h' with
  | here => exact ⟨rfl, rfl⟩

/-- What one activity does inside another. -/
theorem Leads.inside {request' : Stage' → Request}
    {step' : Stage' → Reply → Progress Stage' Result'} (put : Stage → Stage')
    (pass : Progress Stage Result → Progress Stage' Result')
    (hput : ∀ stage, pass (.going stage) = .going (put stage))
    (hrequest : ∀ stage, request' (put stage) = request stage)
    (hstep : ∀ stage r, step' (put stage) r = pass (step stage r))
    (h : Leads request step E p E₁ p₁) : Leads request' step' E (pass p) E₁ (pass p₁) := by
  induction h with
  | here => exact .here
  | @next E E₁ stage p htail ih =>
    rw [hput]
    refine .next ?_
    rw [hrequest, hstep]
    exact ih

end Runs

/-! ## A challenge -/

namespace Challenge

variable {s : Settings} {E E' : Surroundings} {x : LinkId} {c : Challenge} {t t' : Turn}
  {p p' : Progress Challenge Verdict} {used left : List ReadAnswer}

/-- A challenge in its surroundings. -/
abbrev Leads (s : Settings) : Surroundings → Progress Challenge Verdict → Surroundings →
    Progress Challenge Verdict → Prop :=
  LoopbackLock.Leads (Challenge.request s) (Challenge.step s)

theorem step_replyOf (read : ReadAnswer) (reader : LineReader) (begun : Bool) :
    step s (listening x reader begun) (Network.replyOf read) =
      turn s x (reader.supply begun read) := by
  rcases read with k | bytes
  · cases k <;> rfl
  · rfl

/-- The challenge listens as a call of a reader takes the reads of the connection. -/
theorem leads_takes (h : LineReader.Takes t used t')
    (hreads : E.reads x ++ [.ok []] = used ++ left) :
    Leads s E (turn s x t) (E.withReads x left.dropLast) (turn s x t') := by
  induction h generalizing E with
  | none =>
    have hleft : left.dropLast = E.reads x := by
      rw [List.nil_append] at hreads
      rw [← hreads, List.dropLast_concat]
    rw [hleft, Surroundings.withReads_eq_self]
    exact .here
  | @read r begun read reads t htakes ih =>
    rcases hscript : E.reads x with _ | ⟨first, rest⟩
    · -- The script is used up: the read meets the end of the stream, which ends the call.
      rw [hscript, List.nil_append, List.cons_append, List.cons.injEq] at hreads
      obtain ⟨rfl, hnil⟩ := hreads
      obtain ⟨rfl, rfl⟩ := List.append_eq_nil_iff.mp hnil.symm
      have hself : E.withReads x ([] : List ReadAnswer).dropLast = E := by
        rw [List.dropLast_nil, ← hscript, Surroundings.withReads_eq_self]
      obtain ⟨result, next, hsupply⟩ := LineReader.supply_nil r begun
      rw [hsupply] at htakes
      obtain ⟨-, rfl⟩ := htakes.of_done
      rw [hself, ← hsupply]
      exact .of_reply (Surroundings.reply_read_nil hscript _) .here
    · rw [hscript, List.cons_append, List.cons_append, List.cons.injEq] at hreads
      obtain ⟨rfl, hrest⟩ := hreads
      refine .of_reply (Surroundings.reply_read hscript _) ?_
      rw [step_replyOf]
      have htail := @ih (E.withReads x rest) (by rwa [Surroundings.withReads_same])
      rwa [Surroundings.withReads_withReads] at htail

end Challenge

/-! ## A waiter -/

namespace Vigil

variable {s : Settings} {E E' : Surroundings} {p p' : Progress Challenge Verdict}

/-- A waiter in its surroundings. -/
abbrev Leads (s : Settings) : Surroundings → Progress Vigil (Except LockError WaitOutcome) →
    Surroundings → Progress Vigil (Except LockError WaitOutcome) → Prop :=
  LoopbackLock.Leads (Vigil.request s) (Vigil.step s)

/-- The waiter at its first challenge. -/
def probed (s : Settings) : Progress Challenge Verdict →
    Progress Vigil (Except LockError WaitOutcome)
  | .going c => .going (probing c)
  | .over (.ok (x, _)) => .going (dismissing x)
  | .over (.error why) => .over (refused s why)

/-- The waiter at its second challenge. -/
def joined (s : Settings) : Progress Challenge Verdict →
    Progress Vigil (Except LockError WaitOutcome)
  | .going c => .going (joining c)
  | .over (.ok (x, reader)) => .going (limiting x reader)
  | .over (.error why) => .over (refused s why)

/-- The waiter at a challenge after it has heard nothing. -/
def rechecked (x : LinkId) (reader : LineReader) : Progress Challenge Verdict →
    Progress Vigil (Except LockError WaitOutcome)
  | .going c => .going (rechecking x reader c)
  | .over (.ok (spare, _)) => .going (excusing x reader spare)
  | .over (.error _) => .going (closing x .vanished)

theorem leads_probed (h : Challenge.Leads s E p E' p') :
    Leads s E (probed s p) E' (probed s p') :=
  h.inside probing (probed s) (fun _ => rfl) (fun _ => rfl) fun c r => by
    simp only [step]
    rcases c.step s r with c' | why | ⟨x, reader⟩ <;> rfl

theorem leads_joined (h : Challenge.Leads s E p E' p') :
    Leads s E (joined s p) E' (joined s p') :=
  h.inside joining (joined s) (fun _ => rfl) (fun _ => rfl) fun c r => by
    simp only [step]
    rcases c.step s r with c' | why | ⟨x, reader⟩ <;> rfl

theorem leads_rechecked (x : LinkId) (reader : LineReader) (h : Challenge.Leads s E p E' p') :
    Leads s E (rechecked x reader p) E' (rechecked x reader p') :=
  h.inside (rechecking x reader) (rechecked x reader) (fun _ => rfl) (fun _ => rfl) fun c r => by
    simp only [step]
    rcases c.step s r with c' | why | ⟨spare, _⟩ <;> rfl

theorem leads_closing (x : LinkId) (outcome : WaitOutcome) :
    Leads s E (.going (closing x outcome)) E (.over (.ok outcome)) := .next .here

end Vigil

end LoopbackLock
