import LoopbackLock.Scenario.Basic

/-!
# Playing a scenario

A session is a scenario under way: the world in time, and what the scenario's names stand for.
Threads come into being with their first act. A call that takes longer than five seconds is left
alone; its thread stays busy until the call is waited for to its end.

The clock of the scenario itself is coarse: its waits end at whole milliseconds. Before it looks
once more at what it has waited for, and before it tries an address, a moment passes.
-/

namespace LoopbackLock

/-- A lock of a session: its settings with the port it got, and the slot it takes the port from. -/
structure NamedLock where
  id : LockId
  settings : Settings
  slot : Option String
  isDropped : Bool := false
  deriving DecidableEq, Repr

/-- An errand that was not waited for to its end. -/
structure Started where
  errand : Errand
  /-- The lock that was named with the errand. -/
  lock : String
  /-- The lock of the call that the errand came to, if it came to one. -/
  target : Option String
  deriving DecidableEq, Repr

/-- A thread of a session. -/
structure Performer where
  id : ThreadId
  /-- What the thread is at. -/
  call : Option Started := none
  /-- The locks of the guards, the newest first. -/
  guards : List String := []
  deriving DecidableEq, Repr

/-- A scenario under way. -/
structure Session where
  course : Course World Actor
  locks : List (String × NamedLock) := []
  performers : List (String × Performer) := []
  /-- The slots in the order of their ports. -/
  slots : List String := []
  clients : List (String × Ear) := []
  occupants : List (String × OccupantId) := []

namespace Session

/-! ## Time -/

/-- How long a call is waited for, in milliseconds. -/
def patience : Nat := 5000

/-- A moment, in microseconds. -/
def moment : Nat := 600

/-- The world as it stands. -/
def world (s : Session) : World := s.course.state

/-- Changes the world. -/
def setWorld (s : Session) (w : World) : Session :=
  { s with course := { s.course with state := w } }

/-- Lets the world go on until something is reached, or until the first whole millisecond after so
many milliseconds. -/
def await (s : Session) (reached : World → Bool) (time : Nat) : Session :=
  let deadline := (s.course.now + time * 1000 + 999) / 1000 * 1000
  { s with course := s.course.goOn World.system reached deadline }

/-- A moment passes. -/
def pause (s : Session) : Session :=
  { s with course := s.course.goOn World.system (fun _ => false) (s.course.now + moment) }

/-! ## Names -/

/-- The entry of a name in a list is replaced or added. -/
def put {α : Type} (entries : List (String × α)) (name : String) (a : α) : List (String × α) :=
  (name, a) :: entries.filter (·.1 ≠ name)

/-- The port of the slot with an index. -/
def portOf (index : Nat) : UInt16 := (20000 + index).toUInt16

/-- The session with a slot, and the port of the slot. -/
def withSlot (s : Session) (slot : String) : Session × UInt16 :=
  match s.slots.findIdx? (· = slot) with
  | some i => (s, portOf i)
  | none => ({ s with slots := s.slots ++ [slot] }, portOf s.slots.length)

/-- Adds a lock. Without a port of its own it takes the port of a slot. -/
def addLock (s : Session) (name : String) (settings : Settings) (port : Option UInt16)
    (slot : String) : Session :=
  let (s, slotPort) := s.withSlot slot
  let settings := { settings with port := port.getD slotPort }
  let lock : NamedLock :=
    { id := s.world.locks.length, settings, slot := if port.isSome then none else some slot }
  { s.setWorld { s.world with locks := s.world.locks ++ [some { settings }] } with
    locks := s.locks ++ [(name, lock)] }

/-- A lock that was not dropped. -/
def lock? (s : Session) (name : String) : Option NamedLock :=
  (s.locks.lookup name).filter (!·.isDropped)

/-- The session with a thread, and the thread. -/
def withPerformer (s : Session) (name : String) : Session × Performer :=
  match s.performers.lookup name with
  | some p => (s, p)
  | none =>
    let p : Performer := { id := s.world.threads.length }
    ({ s.setWorld { s.world with threads := s.world.threads ++ [.free none] } with
        performers := put s.performers name p }, p)

/-- Changes a thread. -/
def setPerformer (s : Session) (name : String) (p : Performer) : Session :=
  { s with performers := put s.performers name p }

/-- How messages name the endpoint of a lock: by the slot its port is from. -/
def placeOf (lock : NamedLock) : String :=
  match lock.slot with
  | some slot => lock.settings.endpoint.textWith ("<" ++ slot ++ ">")
  | none => lock.settings.endpoint.text

/-! ## Calls -/

/-- The thread is in no call. -/
def isFree (t : ThreadId) (w : World) : Bool :=
  match w.threads[t]? with
  | some (.busy ..) => false
  | _ => true

/-- How the last call of a thread ended. -/
def lastEnding (s : Session) (t : ThreadId) : Option Ending :=
  match s.world.threads[t]? with
  | some (.free last) => last
  | _ => none

/-- An errand with this lock was not waited for to its end. -/
def isCalled (s : Session) (lock : String) : Bool :=
  s.performers.any fun p => p.2.call.any (·.lock = lock)

/-- An outcome with the phase of a lock, unless a call on it is not over. -/
def withPhase (s : Session) (lock : String) (outcome : Outcome) : Report :=
  match s.lock? lock with
  | some l => { outcome, phase := if s.isCalled lock then none else some (s.world.phase l.id) }
  | none => { outcome }

/-- An act that is done. -/
def done (word : String) : Report := { outcome := .done word }

/-- An act that cannot be done. -/
def cannot (why : Obstacle) : Report := { outcome := .cannot why }

/-- How a call on a lock ended. -/
def endingOutcome (lock : NamedLock) : Ending → Outcome
  | .acquired how => .acquired how
  | .failed why => .failed why (why.messageAt (placeOf lock))
  | .released => .done "released"
  | .dropped => .done "dropped"

/-- The call that an errand comes to, and the lock it is on; none for a guard when there is none. -/
def callOf (p : Performer) (errand : Errand) (lock : String) : Option (String × CallKind) :=
  match errand with
  | .acquire | .lock => some (lock, .acquire)
  | .release => some (lock, .release)
  | .dropGuard => p.guards.head?.map (·, .release)

/-- A thread begins an errand. A guard of a lock that was dropped has nothing to give back. -/
def begin? (s : Session) (errand : Errand) (thread lock : String) : Except Obstacle Session :=
  match s.lock? lock, errand with
  | none, .acquire | none, .lock | none, .release => .error .noLock
  | _, _ =>
    let (s, p) := s.withPerformer thread
    if p.call.isSome then .error .threadBusy
    else
      match callOf p errand lock with
      | none => .ok (s.setPerformer thread { p with call := some ⟨errand, lock, none⟩ })
      | some (target, kind) =>
        let p := { p with call := some ⟨errand, lock, some target⟩ }
        match s.lock? target with
        | none => .ok (s.setPerformer thread p)
        | some l =>
          match s.world.begin? p.id l.id kind with
          | some w => .ok ((s.setWorld w).setPerformer thread p)
          | none => .error .threadBusy

/-- What an errand comes to when its call is over. -/
def outcomeOf (s : Session) (started : Started) (ending : Option Ending) : Outcome :=
  match started.errand, started.target, ending with
  | .dropGuard, none, _ => .done "none"
  | .dropGuard, some _, _ => .done "dropped"
  | _, some target, some ending =>
    match s.locks.lookup target with
    | some l => endingOutcome l ending
    | none => .cannot .noLock
  | _, _, _ => .cannot .noCall

/-- The guards of a thread after an errand. -/
def guardsAfter (guards : List String) (started : Started) (ending : Option Ending) :
    List String :=
  match started.errand, ending with
  | .lock, some (.acquired _) => started.lock :: guards
  | .dropGuard, _ => guards.tail
  | _, _ => guards

/-- Waits for the errand of a thread. When it is over its outcome is told, and a guard that it took
is kept; otherwise the given word is. -/
def collect (s : Session) (thread : String) (time : Nat) (otherwise : String) :
    Session × Outcome :=
  match s.performers.lookup thread with
  | some { id, call := some started, guards } =>
    let s := s.await (isFree id) time
    if !isFree id s.world then (s, .done otherwise)
    else
      let ending := s.lastEnding id
      (s.setPerformer thread { id, guards := guardsAfter guards started ending },
        s.outcomeOf started ending)
  | _ => (s, .cannot .noCall)

/-- A thread goes on an errand, and it is waited for. The phase of the named lock is told. -/
def run (s : Session) (errand : Errand) (thread lock : String) : Session × Report :=
  match s.begin? errand thread lock with
  | .error why => (s, cannot why)
  | .ok s =>
    let (s, outcome) := s.collect thread patience "stuck"
    (s, s.withPhase lock outcome)

/-- A lock is dropped by a thread of the scenario's own. A lock that a thread is calling lives on
without its name. -/
def dropLock (s : Session) (name : String) : Session × Report :=
  match s.lock? name with
  | none => (s, cannot .noLock)
  | some l =>
    let t := s.world.threads.length
    let s := s.setWorld { s.world with threads := s.world.threads ++ [.free none] }
    let s :=
      match s.world.begin? t l.id .drop with
      | some w => (s.setWorld w).await (isFree t) patience
      | none => s
    ({ s with locks := put s.locks name { l with isDropped := true } }, done "dropped")

/-! ## Clients and occupants -/

/-- Changes the network. -/
def setNetwork (s : Session) (network : Network) : Session :=
  s.setWorld { s.world with network }

/-- Where a client connects from: the endpoint asked for, which must be one to bind, or any. -/
def sourceOf (s : Session) (target : Endpoint) :
    Option (Host × String) → Session × Except Fault Endpoint
  | none => (s, .ok (s.world.network.sourceFor target))
  | some (host, slot) =>
    let (s, port) := s.withSlot slot
    (s, (s.world.network.bind { host, port }).map fun _ => { host, port })

/-- Connects a client. -/
def connect (s : Session) (client : String) (l : NamedLock) (origin : Option (Host × String)) :
    Session × Report :=
  let target := l.settings.endpoint
  let (s, source) := s.sourceOf target origin
  match source.bind fun source => s.world.network.connect source target with
  | .ok (link, network) =>
    ({ s.setNetwork network with clients := put s.clients client { link } }, done "connected")
  | .error f =>
    (s, if f.kind = .connectionRefused then done "refused" else cannot (.fault f))

/-- A client listens for one line. -/
def hear (client : String) (deadline : Nat) : Nat → Session → Ear → Session × Hearing
  | 0, s, _ => (s, .timedOut "")
  | pieces + 1, s, ear =>
    match ear.listen? .caller s.world.network .plain with
    | some (some heard, ear, network) =>
      ({ s.setNetwork network with clients := put s.clients client ear }, heard)
    | some (none, ear, network) => hear client deadline pieces (s.setNetwork network) ear
    | none =>
      let ready (w : World) := (ear.listen? .caller w.network .plain).isSome
      let s := { s with course := s.course.goOn World.system ready deadline }
      if ready s.world then hear client deadline pieces s ear
      else
        match ear.listen? .caller s.world.network .expire with
        | some (some heard, ear, network) =>
          ({ s.setNetwork network with clients := put s.clients client ear }, heard)
        | _ => (s, .timedOut "")

/-- Does something with a client. -/
def withClient (s : Session) (client : String) (f : Ear → Session × Report) : Session × Report :=
  match s.clients.lookup client with
  | some ear => f ear
  | none => (s, cannot .noClient)

/-- An occupant settles on the port of a slot. -/
def settleIn (s : Session) (slot : String) (occupant : ListenerId → Occupant) :
    Session × Report :=
  let (s, port) := s.withSlot slot
  match s.world.network.bind { host := .loopback, port } with
  | .ok (listener, network) =>
    let o := s.world.occupants.length
    let w := { s.world with network, occupants := s.world.occupants ++ [occupant listener] }
    ({ s.setWorld w with occupants := put s.occupants slot o }, done "occupied")
  | .error f => (s, cannot (.fault f))

/-- An occupant has left. -/
def hasLeft (o : OccupantId) (w : World) : Bool :=
  match w.occupants[o]? with
  | some (.decoy d) => d.stage = .gone
  | some (.puppet p) => p.isGone
  | none => true

/-- An occupant is told to leave. -/
def dismiss : Occupant → Occupant
  | .decoy d => .decoy { d with stopping := true }
  | .puppet p => .puppet { p with stopping := true }

/-- The log of an occupant. -/
def logOf (s : Session) (o : OccupantId) : List Note :=
  match s.world.occupants[o]? with
  | some (.puppet p) => p.log
  | _ => []

/-- The occupant of a slot leaves, however long it takes; its thread then takes a millisecond to
end. -/
def evict (s : Session) (slot : String) (told : Session → OccupantId → Outcome) :
    Session × Report :=
  match s.occupants.lookup slot with
  | none => (s, cannot .noOccupant)
  | some o =>
    let s := s.setWorld { s.world with occupants := s.world.occupants.modify o dismiss }
    let s := (s.await (hasLeft o) 600000).await (fun _ => false) 1
    ({ s with occupants := s.occupants.filter (·.1 ≠ slot) }, { outcome := told s o })

/-! ## Acts -/

/-- Does something with a lock. -/
def withLock (s : Session) (lock : String) (f : NamedLock → Session × Report) : Session × Report :=
  match s.lock? lock with
  | some l => f l
  | none => (s, cannot .noLock)

/-- Waits for a phase and tells the phase at the end. -/
def awaitPhase (s : Session) (l : NamedLock) (phase : String) (time : Nat) : Session × Report :=
  let reached (w : World) := (w.phase l.id).name = phase
  let s := s.await (fun w => reached w) time
  let s := if reached s.world then s.pause else s
  (s, { outcome := .phase (s.world.phase l.id) })

/-- Waits for a number of waiters and tells their number at the end. -/
def awaitWaiters (s : Session) (l : NamedLock) (count time : Nat) : Session × Report :=
  let s := s.await (fun w => w.waiterCount l.id = count) time
  (s, { outcome := .count (s.world.waiterCount l.id) })

/-- Does an act. -/
def act (s : Session) : Act → Session × Report
  | .run errand thread lock => s.run errand thread lock
  | .start errand thread lock =>
    match s.begin? errand thread lock with
    | .ok s => (s, done "started")
    | .error why => (s, cannot why)
  | .pending thread time =>
    let (s, outcome) := s.collect thread time "pending"
    (s, { outcome })
  | .join thread =>
    let (s, outcome) := s.collect thread patience "stuck"
    (s, { outcome })
  | .phase lock => s.withLock lock fun l => (s, { outcome := .phase (s.world.phase l.id) })
  | .awaitPhase lock phase time => s.withLock lock fun l => s.awaitPhase l phase time
  | .waiters lock count time => s.withLock lock fun l => s.awaitWaiters l count time
  | .awaitWaiter lock =>
    s.withLock lock fun l =>
      let s := s.await (fun w => 1 ≤ w.waiterCount l.id) patience
      (s, { outcome := .holds (1 ≤ s.world.waiterCount l.id) })
  | .bindable lock =>
    match s.locks.lookup lock with
    | some l =>
      let s := s.pause
      (s, { outcome := .holds (s.world.network.isBindable l.settings.endpoint) })
    | none => (s, cannot .noLock)
  | .dropLock lock => s.dropLock lock
  | .connect client lock origin =>
    match s.locks.lookup lock with
    | some l => s.connect client l origin
    | none => (s, cannot .noLock)
  | .send client bytes =>
    s.withClient client fun ear =>
      match s.world.network.write ear.link .caller bytes with
      | .ok network => (s.setNetwork network, done "sent")
      | .error _ => (s, done "closed")
  | .recv client time =>
    s.withClient client fun ear =>
      let (s, heard) := hear client (s.course.now + time * 1000) 1000 s ear
      (s, { outcome := .heard heard })
  | .shutdownWrite client =>
    s.withClient client fun ear =>
      match s.world.network.finish ear.link .caller with
      | .ok network => (s.setNetwork network, done "shut")
      | .error f => (s, cannot (.fault f))
  | .close client =>
    match s.clients.lookup client with
    | some ear =>
      ({ s.setNetwork (s.world.network.release ear.link .caller) with
          clients := s.clients.filter (·.1 ≠ client) }, done "closed")
    | none => (s, done "none")
  | .sleep time => (s.await (fun _ => false) time, done "slept")
  | .occupy slot cues => s.settleIn slot fun listener => .puppet { listener, cues }
  | .vacate slot => s.evict slot fun s o => .log (s.logOf o)
  | .disguise slot disguise => s.settleIn slot fun listener => .decoy { listener, disguise }
  | .unmask slot => s.evict slot fun _ _ => .done "vacated"

/-- Plays acts one after the other. -/
def play (s : Session) : List Act → Session × List Report
  | [] => (s, [])
  | a :: acts =>
    let (s, report) := s.act a
    let (s, reports) := s.play acts
    (s, report :: reports)

/-- A session on a machine, before anything has happened. -/
def on (terrain : Terrain) : Session := { course := { state := { network := { terrain } } } }

end Session

end LoopbackLock
