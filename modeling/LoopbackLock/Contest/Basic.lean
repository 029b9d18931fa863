import LoopbackLock.World.Timed

/-!
# Contests

Contestants, a thread each, take a lock round by round. Inside the lock a contestant reads a shared
counter, rests for a millisecond, and writes the number after the one it read; then it gives its
guard back. A round in which the lock could not be taken is skipped. Only the lock keeps the
contestants from losing each other's numbers.
-/

namespace LoopbackLock

/-- Where a contestant stands. -/
inductive Play
  /-- The next round is to begin, if there is one. -/
  | ready
  /-- The lock was called for. -/
  | calling
  /-- The lock is taken; the counter is to be read. -/
  | reading
  /-- The counter was read; a millisecond passes. -/
  | resting (value : Nat)
  | writing (value : Nat)
  /-- The guard is to be given back. -/
  | leaving
  | returning
  | done
  deriving DecidableEq, Repr

/-- A contestant: its lock, the rounds it has yet to play, and where it stands. -/
structure Contestant where
  lock : LockId
  rounds : Nat
  play : Play := .ready
  deriving DecidableEq, Repr

/-- A contest; the thread of a contestant has the contestant's number. -/
structure Contest where
  world : World
  contestants : List Contestant
  counter : Nat := 0
  /-- How many contestants are inside the lock. -/
  inside : Nat := 0
  /-- The most that were inside at once. -/
  most : Nat := 0
  /-- How many calls for the lock failed. -/
  failures : Nat := 0
  deriving DecidableEq, Repr

/-- Who makes a step in a contest. -/
inductive Party
  | actor (a : Actor)
  | contestant (t : ThreadId)
  deriving DecidableEq, Repr

namespace Contest

/-- The settings of a contest's locks: one that all share, or one for each contestant. -/
def locks (s : Settings) (threads : Nat) (shared : Bool) : List (Option PortLock) :=
  List.replicate (if shared then 1 else threads) (some { settings := s })

/-- A contest that has not begun. -/
def start (terrain : Terrain) (s : Settings) (threads rounds : Nat) (shared : Bool) : Contest where
  world :=
    { network := { terrain }
      locks := locks s threads shared
      threads := List.replicate threads (.free none) }
  contestants := (List.range threads).map fun t => { lock := if shared then 0 else t, rounds }

/-- A contestant comes to stand elsewhere. -/
def put (c : Contest) (t : ThreadId) (play : Play) : Contest :=
  { c with contestants := c.contestants.modify t fun k => { k with play } }

/-- A round of a contestant is over. -/
def endRound (c : Contest) (t : ThreadId) : Contest :=
  { c with contestants := c.contestants.modify t fun k =>
      { k with rounds := k.rounds - 1, play := .ready } }

/-- A contestant sees how its call for the lock ended. -/
def judge (c : Contest) (t : ThreadId) : Option Ending → Contest
  | some (.acquired _) =>
    { c.put t .reading with inside := c.inside + 1, most := max c.most (c.inside + 1) }
  | _ => { c.endRound t with failures := c.failures + 1 }

/-- A step of a contestant; nothing if it has to wait or is done. -/
def move? (c : Contest) (t : ThreadId) (chance : Chance) : Option Contest := do
  let k ← c.contestants[t]?
  match k.play, chance with
  | .ready, _ =>
    if k.rounds = 0 then some (c.put t .done)
    else
      let world ← c.world.begin? t k.lock .acquire
      some { c.put t .calling with world }
  | .calling, _ =>
    match ← c.world.threads[t]? with
    | .free last => some (c.judge t last)
    | .busy .. => none
  | .reading, _ => some (c.put t (.resting c.counter))
  | .resting value, .expire => some (c.put t (.writing value))
  | .resting _, _ => none
  | .writing value, _ =>
    some { c.put t .leaving with counter := value + 1, inside := c.inside - 1 }
  | .leaving, _ =>
    let world ← c.world.begin? t k.lock .release
    some { c.put t .returning with world }
  | .returning, _ =>
    match ← c.world.threads[t]? with
    | .free _ => some (c.endRound t)
    | .busy .. => none
  | .done, _ => none

/-- A step in a contest. -/
def step? (c : Contest) (p : Party) (chance : Chance) : Option Contest :=
  match p with
  | .actor a => (c.world.step? a chance).map fun world => { c with world }
  | .contestant t => c.move? t chance

/-- All contestants are done. -/
def isOver (c : Contest) : Bool := c.contestants.all (·.play = .done)

/-- A contest as a system. -/
def system : System Contest Party where
  agents c :=
    c.world.actors.map .actor ++
      (List.range c.contestants.length).map Party.contestant
  step? := step?
  limit? c
    | .actor a => c.world.limit? a
    | .contestant t =>
      match c.contestants[t]? with
      | some { play := .resting _, .. } => some 1
      | _ => none
  effort c
    | .actor a => c.world.effort a
    | .contestant _ => 1

/-- A contest after it has been played, for at most ten minutes. -/
def played (c : Contest) : Contest :=
  let course : Course Contest Party := { state := c }
  (course.goOn system isOver 600000000).state

end Contest

end LoopbackLock
