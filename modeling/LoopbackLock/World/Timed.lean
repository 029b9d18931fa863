import LoopbackLock.Timing.Course
import LoopbackLock.World.Event

/-!
# The world in time

The actors of a world are the threads in calls, the workers of holders and the occupants of ports.
Reads wait for their time limit, an accepting worker for the poll time, and occupants for what
their behavior says. To bind or connect takes longer with IPv6 addresses.
-/

namespace LoopbackLock.World

/-- The actors of a holder that are not gone. -/
def holderActors (w : World) (h : HolderId) : List Actor :=
  match w.holders[h]? with
  | none => []
  | some holder =>
    (if holder.worker = .gone then [] else [.worker h]) ++
      (List.range holder.attendants.length).filterMap fun (k : Nat) =>
        match holder.attendants[k]? with
        | some { stage := .gone, .. } => none
        | _ => some (.attendant h k)

/-- The actors that may have something to do. -/
def actors (w : World) : List Actor :=
  let threads := (List.range w.threads.length).filterMap fun (t : Nat) =>
    match w.threads[t]? with
    | some (.busy ..) => some (Actor.thread t)
    | _ => none
  threads ++ (List.range w.holders.length).flatMap w.holderActors ++
    (List.range w.occupants.length).map .occupant

/-- How long an actor waits at most for what it waits for, in milliseconds. -/
def limit? (w : World) : Actor → Option Nat
  | .thread t =>
    match w.threads[t]? with
    | some (.busy i call) =>
      (w.lock? i).bind fun lock =>
        match call.request lock.settings with
        | .read _ limit => some limit.toNat
        | _ => none
    | _ => none
  | .worker h =>
    match w.holders[h]? with
    | some { worker := .resting, acceptPoll, .. } => some acceptPoll.toNat
    | _ => none
  | .attendant h k =>
    (w.holders[h]?).bind fun holder =>
      match holder.attendants[k]? with
      | some { stage := .reading .., .. } => some holder.challengeTimeout.toNat
      | _ => none
  | .occupant o =>
    match w.occupants[o]? with
    | some (.decoy d) => d.limit?
    | some (.puppet p) => p.limit?
    | none => none

/-- How many times as long as usual a request takes: those that set up an IPv6 connection or
listener take twice as long. -/
def requestEffort : Request → Nat
  | .bind ⟨.v6 _, _, _⟩ | .connect ⟨.v6 _, _, _⟩ _ => 2
  | _ => 1

/-- How many times as long as usual the next step of an actor takes. -/
def effort (w : World) : Actor → Nat
  | .thread t =>
    match w.threads[t]? with
    | some (.busy i call) =>
      match w.lock? i with
      | some lock => requestEffort (call.request lock.settings)
      | none => 1
    | _ => 1
  | _ => 1

/-- The world as a system of its actors. -/
def system : System World Actor where
  agents := actors
  step? := step?
  limit? := limit?
  effort := effort

end LoopbackLock.World
