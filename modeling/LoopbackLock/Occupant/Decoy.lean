import LoopbackLock.Exchange.Chance

/-!
# Decoys

A decoy occupies a port and behaves as a contender may find it there: as an unrelated service, as a
process that hangs, or as a holder that stops answering. It looks for connections every ten
milliseconds, waits a second for the first line of each, and keeps those it has answered open.
-/

namespace LoopbackLock

/-- How a decoy behaves. -/
inductive Disguise
  /-- Every first line is answered with this line. -/
  | reply (line : String)
  /-- No connection is ever accepted. -/
  | silent
  /-- So many connections are answered as a holder does, then no more are accepted. -/
  | holderThenSilent (answers : Nat)
  deriving DecidableEq, Repr

namespace Disguise

/-- Whether another connection is accepted when so many have been answered. -/
def accepts (d : Disguise) (answered : Nat) : Bool :=
  match d with
  | reply _ => true
  | silent => false
  | holderThenSilent answers => answered < answers

/-- The line that is answered. -/
def answer : Disguise → String
  | reply line => line ++ "\n"
  | silent => "\n"
  | holderThenSilent _ => Message.success.line

end Disguise

/-- Where a decoy stands. -/
inductive DecoyStage
  /-- It is to be seen whether the decoy is to stop and whether it accepts. -/
  | checking
  | accepting
  | resting
  /-- The first line is being read. -/
  | hearing (link : LinkId) (heard : Bytes)
  /-- The answer is being written; `rest` is not written yet. -/
  | answering (link : LinkId) (rest : Bytes)
  | gone
  deriving DecidableEq, Repr

/-- A decoy. -/
structure Decoy where
  listener : ListenerId
  disguise : Disguise
  /-- The connections answered. -/
  answered : List LinkId := []
  stopping : Bool := false
  stage : DecoyStage := .checking
  deriving DecidableEq, Repr

namespace Decoy

/-- The time between two looks for connections, in milliseconds. -/
def restTime : Nat := 10

/-- How long a first line is waited for, in milliseconds. -/
def patience : Nat := 1000

/-- A connection is given up unanswered. -/
def dismiss (d : Decoy) (link : LinkId) (n : Network) : Decoy × Network :=
  ({ d with stage := .checking }, n.release link .callee)

/-- The first line is there, or the stream ended: it is answered if it is well-formed text. -/
def respond (d : Decoy) (link : LinkId) (line : Bytes) (n : Network) : Decoy × Network :=
  if (Text.decode? line).isSome then
    ({ d with stage := .answering link (Text.encode d.disguise.answer) }, n)
  else d.dismiss link n

/-- A reply to a read of the first line. -/
def hear (d : Decoy) (link : LinkId) (heard : Bytes) (n : Network) : Reply → Decoy × Network
  | .heard [] => d.respond link heard n
  | .heard bytes =>
    match LineReader.splitLine bytes with
    | some (line, _) => d.respond link (heard ++ line) n
    | none => ({ d with stage := .hearing link (heard ++ bytes) }, n)
  | .failed { kind := .interrupted, .. } => (d, n)
  | _ => d.dismiss link n

/-- A reply to a write of the answer. -/
def written (d : Decoy) (link : LinkId) (rest : Bytes) (n : Network) : Reply → Decoy × Network
  | .took count =>
    if rest.length ≤ count then
      ({ d with answered := d.answered ++ [link], stage := .checking }, n)
    else if count = 0 then d.dismiss link n
    else ({ d with stage := .answering link (rest.drop count) }, n)
  | .failed { kind := .interrupted, .. } => (d, n)
  | _ => d.dismiss link n

/-- A step of a decoy; nothing if it has to wait or is gone. -/
def step? (d : Decoy) (n : Network) (chance : Chance) : Option (Decoy × Network) :=
  match d.stage, chance with
  | .checking, _ =>
    if d.stopping then
      some ({ d with stage := .gone, answered := [] },
        (n.releaseAll d.answered).unbind d.listener)
    else if d.disguise.accepts d.answered.length then some ({ d with stage := .accepting }, n)
    else some ({ d with stage := .resting }, n)
  | .accepting, .fail _ => some ({ d with stage := .resting }, n)
  | .accepting, _ =>
    match n.accept? d.listener with
    | some (link, n) => some ({ d with stage := .hearing link [] }, n)
    | none => some ({ d with stage := .resting }, n)
  | .resting, .expire => some ({ d with stage := .checking }, n)
  | .resting, _ => none
  | .hearing link heard, _ => do
    let (reply, n) ← n.hear? link .callee chance
    some (d.hear link heard n reply)
  | .answering link rest, _ =>
    let (reply, n) := n.say link .callee rest chance
    some (d.written link rest n reply)
  | .gone, _ => none

/-- How long the decoy waits for what it waits for, in milliseconds. -/
def limit? (d : Decoy) : Option Nat :=
  match d.stage with
  | .resting => some restTime
  | .hearing .. => some patience
  | _ => none

end Decoy

end LoopbackLock
