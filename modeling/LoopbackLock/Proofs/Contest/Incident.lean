import LoopbackLock.Contest.Basic
import LoopbackLock.Proofs.World.Step

/-!
# What happens in a contest

Anything may happen in any order: the actors of the world and the contestants make steps, sleepers
stir, registries come to yield their entries in another order, and others use the network. `Befell`
says what each incident does to a contest, `Moved` what the step of a contestant does.
-/

namespace LoopbackLock

/-- Something that happens in a contest. -/
inductive Incident
  | step (p : Party) (chance : Chance)
  /-- A sleeper in a gate wakes without having been roused. -/
  | stir (t : ThreadId) (i : LockId)
  /-- The registry of a holder comes to yield its entries in another order. -/
  | shuffle (h : HolderId) (turns : List Nat)
  /-- Others on the machine connect, write and close: its network becomes another one on the same
  terrain with the same ports. -/
  | upheaval (network : Network)

namespace Contest

/-- Something happens, if it can. -/
def happen? (c : Contest) : Incident → Option Contest
  | .step p chance => c.step? p chance
  | .stir t i => (c.world.happen? (.stir t i)).map fun world => { c with world }
  | .shuffle h turns => (c.world.happen? (.shuffle h turns)).map fun world => { c with world }
  | .upheaval network =>
    if network.ports = c.world.network.ports ∧ network.terrain = c.world.network.terrain then
      some { c with world := { c.world with network } }
    else none

/-- A sequence of incidents happens. -/
def run? (c : Contest) (incidents : List Incident) : Option Contest := incidents.foldlM happen? c

/-- The contestant is between the end of a call that took the lock and the beginning of the one
that gives it back. -/
def IsInside (c : Contest) (t : ThreadId) : Prop :=
  ∃ k, c.contestants[t]? = some k ∧
    match k.play with
    | .calling => ∃ how, c.world.threads[t]? = some (.free (some (.acquired how)))
    | .reading | .resting _ | .writing _ | .leaving => True
    | _ => False

variable {c c' : Contest} {t : ThreadId} {chance : Chance}

theorem world_judge (c : Contest) (t : ThreadId) (last : Option Ending) :
    (c.judge t last).world = c.world := by
  unfold judge
  split <;> rfl

/-- What a step of a contestant does. -/
inductive Moved (c : Contest) (t : ThreadId) : Contest → Prop
  | finished {k : Contestant} (hk : c.contestants[t]? = some k) (hplay : k.play = .ready)
      (hrounds : k.rounds = 0) : Moved c t (c.put t .done)
  | called {k : Contestant} {world : World} (hk : c.contestants[t]? = some k)
      (hplay : k.play = .ready) (hrounds : k.rounds ≠ 0)
      (hw : c.world.begin? t k.lock .acquire = some world) :
    Moved c t { c.put t .calling with world }
  | judged {k : Contestant} {last : Option Ending} (hk : c.contestants[t]? = some k)
      (hplay : k.play = .calling) (ht : c.world.threads[t]? = some (.free last)) :
    Moved c t (c.judge t last)
  | read {k : Contestant} (hk : c.contestants[t]? = some k) (hplay : k.play = .reading) :
    Moved c t (c.put t (.resting c.counter))
  | rested {k : Contestant} {value : Nat} (hk : c.contestants[t]? = some k)
      (hplay : k.play = .resting value) : Moved c t (c.put t (.writing value))
  | wrote {k : Contestant} {value : Nat} (hk : c.contestants[t]? = some k)
      (hplay : k.play = .writing value) :
    Moved c t { c.put t .leaving with counter := value + 1, inside := c.inside - 1 }
  | left {k : Contestant} {world : World} (hk : c.contestants[t]? = some k)
      (hplay : k.play = .leaving) (hw : c.world.begin? t k.lock .release = some world) :
    Moved c t { c.put t .returning with world }
  | returned {k : Contestant} {last : Option Ending} (hk : c.contestants[t]? = some k)
      (hplay : k.play = .returning) (ht : c.world.threads[t]? = some (.free last)) :
    Moved c t (c.endRound t)

theorem moved_of_move? (h : c.move? t chance = some c') : c.Moved t c' := by
  unfold move? at h
  obtain ⟨k, hk, h⟩ := Option.bind_eq_some_iff.mp h
  rcases hplay : k.play with _ | _ | _ | value | value | _ | _ | _ <;> simp only [hplay] at h
  case ready =>
    split at h
    · next hrounds => cases h; exact .finished hk hplay hrounds
    · next hrounds =>
      obtain ⟨world, hw, h⟩ := Option.bind_eq_some_iff.mp h
      cases h
      exact .called hk hplay hrounds hw
  case calling =>
    obtain ⟨a, ht, h⟩ := Option.bind_eq_some_iff.mp h
    rcases a with last | _ <;> cases h
    exact .judged hk hplay ht
  case reading => cases h; exact .read hk hplay
  case resting =>
    rcases chance with _ | _ | _ | _ <;> cases h
    exact .rested hk hplay
  case writing => cases h; exact .wrote hk hplay
  case leaving =>
    obtain ⟨world, hw, h⟩ := Option.bind_eq_some_iff.mp h
    cases h
    exact .left hk hplay hw
  case returning =>
    obtain ⟨a, ht, h⟩ := Option.bind_eq_some_iff.mp h
    rcases a with last | _ <;> cases h
    exact .returned hk hplay ht
  case done => cases h

/-- A contestant's step changes of the world what its thread does at most. -/
theorem Moved.world (h : c.Moved t c') : ∃ threads, c'.world = { c.world with threads } := by
  rcases h with ⟨-, -, -⟩ | ⟨-, -, -, hw⟩ | @⟨k, last, -, -, -⟩ | ⟨-, -⟩ | ⟨-, -⟩ | ⟨-, -⟩ |
    ⟨-, -, hw⟩ | ⟨-, -, -⟩
  case called | left =>
    obtain ⟨-, -, -, rfl⟩ := World.begin?_eq_some hw
    exact ⟨_, rfl⟩
  case judged => exact ⟨_, world_judge c t last⟩
  all_goals exact ⟨_, rfl⟩

/-- What an incident does. -/
inductive Befell (c : Contest) : Contest → Prop
  | acted {a : Actor} {chance : Chance} {world : World}
      (he : c.world.happen? (.step a chance) = some world) : Befell c { c with world }
  | stirred {t : ThreadId} {i : LockId} {world : World}
      (he : c.world.happen? (.stir t i) = some world) : Befell c { c with world }
  | shuffled {h : HolderId} {turns : List Nat} {world : World}
      (he : c.world.happen? (.shuffle h turns) = some world) : Befell c { c with world }
  | upset {network : Network} (hports : network.ports = c.world.network.ports)
      (hterrain : network.terrain = c.world.network.terrain) :
    Befell c { c with world := { c.world with network } }
  | moved {t : ThreadId} {c' : Contest} (h : c.Moved t c') : Befell c c'

theorem befell_of_happen? {incident : Incident} (h : c.happen? incident = some c') :
    c.Befell c' := by
  rcases incident with ⟨a | t, chance⟩ | ⟨t, i⟩ | ⟨h', turns⟩ | network
  · obtain ⟨world, he, rfl⟩ := Option.map_eq_some_iff.mp h
    exact .acted he
  · exact .moved (moved_of_move? h)
  · obtain ⟨world, he, rfl⟩ := Option.map_eq_some_iff.mp h
    exact .stirred he
  · obtain ⟨world, he, rfl⟩ := Option.map_eq_some_iff.mp h
    exact .shuffled he
  · obtain ⟨⟨hports, hterrain⟩, h⟩ := Option.ite_none_right_eq_some.mp h
    cases h
    exact .upset hports hterrain

end Contest

end LoopbackLock
