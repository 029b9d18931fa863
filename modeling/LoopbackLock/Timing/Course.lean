import LoopbackLock.Exchange.Chance

/-!
# The course of a system in time

A system of agents moves in steps and has no clock. A course puts its steps in time: every agent
that can make a step makes it, the earliest first, and takes its time for it; an agent that had to
wait takes a moment to wake; and a wait ends when its time limit has passed. Times are in
microseconds, limits in milliseconds.
-/

namespace LoopbackLock

/-- Agents that act on a common state. -/
structure System (State Agent : Type) where
  /-- The agents that may have something to do. -/
  agents : State → List Agent
  /-- A step of an agent; nothing if it has nothing to do or has to wait. -/
  step? : State → Agent → Chance → Option State
  /-- How long an agent waits at most for what it waits for, in milliseconds. -/
  limit? : State → Agent → Option Nat
  /-- How many times as long as usual the next step of an agent takes. -/
  effort : State → Agent → Nat := fun _ _ => 1

/-- How long things take, in microseconds. -/
structure Pace where
  /-- A usual step of an agent. -/
  step : Nat
  /-- To wake up once there is no reason to wait any more. -/
  wake : Nat
  deriving DecidableEq, Repr

/-- The pace of a machine on which a step takes a tenth of a millisecond. -/
def Pace.usual : Pace := { step := 100, wake := 200 }

/-- An agent in time: since when it has been ready or waiting, and whether it waits. -/
structure Seat (Agent : Type) where
  agent : Agent
  since : Nat
  waits : Bool := false
  deriving Repr

/-- What is due: when, who, and how. -/
structure Due (Agent : Type) where
  time : Nat
  agent : Agent
  chance : Chance
  deriving Repr

/-- A state with the time and the agents in time. -/
structure Course (State Agent : Type) where
  state : State
  now : Nat := 0
  seats : List (Seat Agent) := []
  pace : Pace := .usual

namespace Course

variable {State Agent : Type} [DecidableEq Agent]

/-- An agent notices that it can go on, or that it cannot. -/
def notice (sys : System State Agent) (c : Course State Agent) (s : Seat Agent) : Seat Agent :=
  if (sys.step? c.state s.agent .plain).isSome then
    if s.waits then { s with since := c.now + c.pace.wake, waits := false } else s
  else { s with waits := true }

/-- The agents of the state take their seats; one that is new is ready from now on. -/
def seated (sys : System State Agent) (c : Course State Agent) : Course State Agent :=
  { c with seats := (sys.agents c.state).map fun a =>
      c.notice sys ((c.seats.find? (·.agent = a)).getD ⟨a, c.now, false⟩) }

/-- When and how an agent goes on next. -/
def due? (sys : System State Agent) (c : Course State Agent) (s : Seat Agent) :
    Option (Due Agent) :=
  if s.waits then
    (sys.limit? c.state s.agent).map fun limit =>
      ⟨max c.now (s.since + limit * 1000), s.agent, .expire⟩
  else some ⟨max c.now s.since, s.agent, .plain⟩

/-- The earlier of two steps, the first of them if they are due at once. -/
def sooner : Option (Due Agent) → Due Agent → Option (Due Agent)
  | none, b => some b
  | some a, b => if b.time < a.time then some b else some a

/-- The next step. -/
def next? (sys : System State Agent) (c : Course State Agent) : Option (Due Agent) :=
  (c.seats.filterMap (c.due? sys)).foldl sooner none

/-- An agent makes a step; if it cannot, it goes on waiting from then on. -/
def perform (sys : System State Agent) (c : Course State Agent) (d : Due Agent) :
    Course State Agent :=
  let (state, waits) :=
    match sys.step? c.state d.agent d.chance with
    | some state => (state, false)
    | none => (c.state, true)
  let since := d.time + c.pace.step * sys.effort c.state d.agent
  let seats := c.seats.map fun s =>
    if s.agent = d.agent then { s with since, waits } else s
  { c with state, now := d.time, seats }

/-- Goes on until something is reached or the time has come, for at most so many steps. -/
def proceed (sys : System State Agent) (reached : State → Bool) (deadline : Nat) :
    Nat → Course State Agent → Course State Agent
  | 0, c => c
  | steps + 1, c =>
    if reached c.state then c
    else
      let c := c.seated sys
      match c.next? sys with
      | some d =>
        if d.time ≤ deadline then (c.perform sys d).proceed sys reached deadline steps
        else { c with now := max c.now deadline }
      | none => { c with now := max c.now deadline }

/-- Goes on until something is reached or the time has come. There is room for more steps than the
agents could make if each made one in every microsecond. -/
def goOn (sys : System State Agent) (reached : State → Bool) (deadline : Nat)
    (c : Course State Agent) : Course State Agent :=
  c.proceed sys reached deadline
    (((sys.agents c.state).length + 2) * (deadline - c.now + 100))

end Course

end LoopbackLock
