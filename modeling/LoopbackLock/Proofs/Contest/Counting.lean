import LoopbackLock.Proofs.Contest.Holding

/-!
# No number is lost

The contestants of a contest count together: every round adds one to the counter or to the failures
(`Tallied`). For who has read the counter and not yet written it is inside, and nobody else is, so
what it writes is one more than what the counter then is.

`Contest.gather` is a contest among any locks at one endpoint, seated in any way. One lock that all
share and one for each contestant are cases of it (`start_eq_gather`).
-/

namespace LoopbackLock

namespace Play

/-- What the contestant has read and not written yet. -/
def value? : Play → Option Nat
  | resting value | writing value => some value
  | _ => none

/-- How often the contest counts the contestant as inside. -/
def weight : Play → Nat
  | reading | resting _ | writing _ => 1
  | _ => 0

theorem weight_of_value? {p : Play} {v : Nat} (h : p.value? = some v) : p.weight = 1 := by
  cases p
  case resting | writing => rfl
  all_goals cases h

end Play

namespace Contestant

/-- How many rounds have yet to add to the counter or to the failures. -/
def owed (k : Contestant) : Nat :=
  match k.play with
  | .leaving | .returning => k.rounds - 1
  | _ => k.rounds

/-- Who is in a round has it yet to play, and who is done has none. -/
def InRound (k : Contestant) : Prop :=
  match k.play with
  | .ready => True
  | .done => k.rounds = 0
  | _ => 1 ≤ k.rounds

end Contestant

namespace Contest

variable {c c' : Contest} {t t' : ThreadId} {k : Contestant} {g : Contestant → Contestant}
variable {due : Nat}

/-- Whom the contest counts as inside is. -/
theorem isInside_of_weight (hk : c.contestants[t]? = some k) (hw : k.play.weight ≠ 0) :
    c.IsInside t := by
  refine ⟨k, hk, ?_⟩
  rcases hplay : k.play with _ | _ | _ | _ | _ | _ | _ | _ <;> rw [hplay] at hw
  case reading | resting | writing => trivial
  all_goals exact absurd rfl hw

/-- A contest counts right: so many rounds are due in all. -/
structure Tallied (due : Nat) (c : Contest) : Prop where
  /-- What a contestant has read and not written yet the counter still is. -/
  current : ∀ (t : ThreadId) (k : Contestant) v, c.contestants[t]? = some k →
    k.play.value? = some v → v = c.counter
  inside : c.inside = total (·.play.weight) c.contestants
  most : c.most ≤ 1
  rounds : ∀ k ∈ c.contestants, k.InRound
  sum : total Contestant.owed c.contestants + c.counter + c.failures = due

/-- A contestant comes to stand elsewhere, and the contest counts on. -/
theorem Tallied.put (h : c.Tallied due) (hk : c.contestants[t]? = some k)
    (hcontestants : c'.contestants = c.contestants.modify t g)
    (hothers : ∀ t' k' v, t' ≠ t → c.contestants[t']? = some k' → k'.play.value? = some v →
      v = c'.counter)
    (hvalue : ∀ v, (g k).play.value? = some v → v = c'.counter)
    (hinside : c'.inside + k.play.weight = c.inside + (g k).play.weight) (hmost : c'.most ≤ 1)
    (hround : (g k).InRound)
    (hsum : (g k).owed + c'.counter + c'.failures = k.owed + c.counter + c.failures) :
    c'.Tallied due where
  current t' k' v hk' hv := by
    rw [hcontestants] at hk'
    rcases getElem?_modify_cases hk hk' with ⟨-, rfl⟩ | ⟨htt, hk'⟩
    · exact hvalue v hv
    · exact hothers t' k' v htt hk' hv
  inside := by
    have htotal := total_modify (f := fun k => k.play.weight) (g := g) hk
    have hold := h.inside
    rw [hcontestants]
    omega
  most := hmost
  rounds k' hmem := by
    rw [hcontestants] at hmem
    obtain ⟨t', hk'⟩ := List.getElem?_of_mem hmem
    rcases getElem?_modify_cases hk hk' with ⟨-, rfl⟩ | ⟨-, hk'⟩
    · exact hround
    · exact h.rounds k' (List.mem_of_getElem? hk')
  sum := by
    have htotal := total_modify (f := Contestant.owed) (g := g) hk
    have hold := h.sum
    rw [hcontestants]
    omega

/-- While a contestant is about to come in, the contest counts nobody as inside. -/
theorem Tallied.inside_eq_zero (h : c.Tallied due)
    (hone : ∀ t t', c.IsInside t → c.IsInside t' → t = t') (hk : c.contestants[t]? = some k)
    (hw : k.play.weight = 0) (hi : c.IsInside t) : c.inside = 0 := by
  rw [h.inside]
  refine total_eq_zero fun k' hmem => ?_
  obtain ⟨t', hk'⟩ := List.getElem?_of_mem hmem
  by_cases hw' : k'.play.weight = 0
  · exact hw'
  · obtain rfl := hone t t' hi (isInside_of_weight hk' hw')
    rwa [← Option.some.inj (hk.symm.trans hk')]

/-- A contestant's step counts right, when no other contestant is inside with it. -/
theorem Tallied.moved (h : c.Tallied due) (hone : ∀ t t', c.IsInside t → c.IsInside t' → t = t')
    (hm : c.Moved t c') : c'.Tallied due := by
  have hsame : ∀ t' k' v, t' ≠ t → c.contestants[t']? = some k' → k'.play.value? = some v →
      v = c.counter := fun t' k' v _ => h.current t' k' v
  rcases hm with @⟨k, hk, hplay, hnone⟩ | @⟨k, _, hk, hplay⟩ | @⟨k, last, hk, hplay, ht⟩ |
    @⟨k, hk, hplay⟩ | @⟨k, value, hk, hplay⟩ | @⟨k, value, hk, hplay⟩ | @⟨k, _, hk, hplay⟩ |
    @⟨k, _, hk, hplay⟩
  all_goals
    have hround := h.rounds k (List.mem_of_getElem? hk)
    obtain ⟨lock, rounds, _⟩ := k
    cases hplay
  case finished => exact h.put hk rfl hsame (by rintro _ ⟨⟩) rfl h.most hnone rfl
  case called hrounds _ =>
    exact h.put hk rfl hsame (by rintro _ ⟨⟩) rfl h.most (Nat.pos_of_ne_zero hrounds) rfl
  case judged =>
    have hpos : 1 ≤ rounds := hround
    by_cases how : ∃ how, last = some (.acquired how)
    · obtain ⟨how, rfl⟩ := how
      have hi : c.IsInside t := ⟨_, hk, how, ht⟩
      have hempty := h.inside_eq_zero hone hk rfl hi
      have hmost := h.most
      refine h.put hk rfl hsame (by rintro _ ⟨⟩) rfl ?_ hpos rfl
      show max c.most (c.inside + 1) ≤ 1
      omega
    · have hjudge : c.judge t last = { c.endRound t with failures := c.failures + 1 } := by
        unfold judge
        split
        · exact absurd ⟨_, rfl⟩ how
        · rfl
      rw [hjudge]
      refine h.put hk rfl hsame (by rintro _ ⟨⟩) rfl h.most trivial ?_
      show rounds - 1 + c.counter + (c.failures + 1) = rounds + c.counter + c.failures
      omega
  case read => exact h.put hk rfl hsame (by rintro _ ⟨⟩; rfl) rfl h.most hround rfl
  case rested =>
    have hcurrent := h.current t _ value hk rfl
    exact h.put hk rfl hsame (by rintro _ ⟨⟩; exact hcurrent) rfl h.most hround rfl
  case wrote =>
    have hpos : 1 ≤ rounds := hround
    have hcurrent := h.current t _ value hk rfl
    have hi : c.IsInside t := isInside_of_weight hk Nat.one_ne_zero
    have hinside := le_total (f := fun k => k.play.weight) hk
    rw [← h.inside] at hinside
    refine h.put hk rfl (fun t' k' v hne hk' hv => ?_) (by rintro _ ⟨⟩) ?_ h.most hround ?_
    · -- whoever has read the number that is now out of date would be inside too
      have hw' : k'.play.weight ≠ 0 := by rw [Play.weight_of_value? hv]; exact Nat.one_ne_zero
      exact absurd (hone t' t (isInside_of_weight hk' hw') hi) hne
    · show c.inside - 1 + 1 = c.inside + 0
      exact Nat.sub_add_cancel hinside
    · show rounds - 1 + (value + 1) + c.failures = rounds + c.counter + c.failures
      omega
  case left => exact h.put hk rfl hsame (by rintro _ ⟨⟩) rfl h.most hround rfl
  case returned => exact h.put hk rfl hsame (by rintro _ ⟨⟩) rfl h.most trivial rfl

/-- Nothing else has the contest count. -/
theorem Tallied.befell (h : c.Tallied due) (hone : ∀ t t', c.IsInside t → c.IsInside t' → t = t')
    (hb : c.Befell c') : c'.Tallied due := by
  rcases hb with _ | _ | _ | _ | hm
  case moved => exact h.moved hone hm
  all_goals exact ⟨h.current, h.inside, h.most, h.rounds, h.sum⟩

/-- When a contest is over, each round has added to the counter or to the failures. -/
theorem Tallied.over (h : c.Tallied due) (hover : c.isOver = true) :
    c.counter + c.failures = due := by
  have hnone : total Contestant.owed c.contestants = 0 := by
    refine total_eq_zero fun k hk => ?_
    have hround := h.rounds k hk
    have hdone : k.play = .done := by simpa using List.all_eq_true.mp hover k hk
    obtain ⟨_, rounds, _⟩ := k
    cases hdone
    exact hround
  have hsum := h.sum
  omega

end Contest

/-- The lock is there and idle, and its gate is open. -/
def World.IsVacant (w : World) (i : LockId) : Prop :=
  ∃ l, w.lock? i = some l ∧ l.phase = .idle ∧ l.gate.owner = none ∧ l.gate.holds = 0

namespace Contest

/-! ## A whole contest -/

/-- A contest that has not begun, among locks with these settings; each contestant is seated at one
of them and has so many rounds to play. -/
def gather (terrain : Terrain) (settings : List Settings) (seats : List LockId) (rounds : Nat) :
    Contest where
  world :=
    { network := { terrain }
      locks := settings.map fun s => some { settings := s }
      threads := List.replicate seats.length (.free none) }
  contestants := seats.map fun lock => { lock, rounds }

/-- One lock that all share, or one for each contestant. -/
theorem start_eq_gather (terrain : Terrain) (s : Settings) (threads rounds : Nat) (shared : Bool) :
    start terrain s threads rounds shared =
      gather terrain (List.replicate (if shared then 1 else threads) s)
        (if shared then List.replicate threads 0 else List.range threads) rounds := by
  cases shared
  · simp [start, gather, locks]
  · simp [start, gather, locks, List.map_const']

variable {terrain : Terrain} {settings : List Settings} {seats : List LockId} {rounds : Nat}
variable {e : Endpoint}

theorem Sound.gather
    (hsettings : ∀ s ∈ settings, s.validate = .ok s ∧ s.endpoint = e ∧ s.onVanished = .rebind) :
    (gather terrain settings seats rounds).Sound e fun _ _ => {} where
  audited := (World.Audited.blank e terrain).made settings seats.length hsettings
  seats := by simp [Contest.gather]
  plays t k a hk ha := by
    obtain ⟨lock, -, rfl⟩ := List.mem_map.mp (List.mem_of_getElem? hk)
    obtain rfl := List.eq_of_mem_replicate (List.mem_of_getElem? ha)
    exact ⟨⟨none, rfl⟩, rfl⟩
  elsewhere _ _ _ := rfl

theorem Tallied.gather :
    (gather terrain settings seats rounds).Tallied (seats.length * rounds) where
  current t k v hk hv := by
    obtain ⟨lock, -, rfl⟩ := List.mem_map.mp (List.mem_of_getElem? hk)
    cases hv
  inside := by
    refine (total_eq_zero fun k hk => ?_).symm
    obtain ⟨lock, -, rfl⟩ := List.mem_map.mp hk
    rfl
  most := Nat.zero_le 1
  rounds k hk := by
    obtain ⟨lock, -, rfl⟩ := List.mem_map.mp hk
    trivial
  sum := by
    show total Contestant.owed (seats.map fun lock => { lock, rounds }) + 0 + 0 = _
    induction seats with
    | nil => simp
    | cons lock seats ih =>
      rw [List.map_cons, total_cons, List.length_cons, Nat.succ_mul]
      show rounds + _ + 0 + 0 = _
      omega

/-- What every incident of a contest keeps holds at its end. -/
theorem sound_of_run {incidents : List Incident}
    (hsettings : ∀ s ∈ settings, s.validate = .ok s ∧ s.endpoint = e ∧ s.onVanished = .rebind)
    (hrun : (gather terrain settings seats rounds).run? incidents = some c) :
    (∃ L, c.Sound e L) ∧ c.Tallied (seats.length * rounds) ∧
      c.world.network.terrain = terrain ∧
      c.world.locks.map Option.isSome = settings.map fun _ => true := by
  have hstart : (gather terrain settings seats rounds).world.locks.map Option.isSome =
      settings.map fun _ => true := List.map_map ..
  refine foldlM_invariant (P := fun c => (∃ L, Sound e L c) ∧ Tallied (seats.length * rounds) c ∧
      c.world.network.terrain = terrain ∧
      c.world.locks.map Option.isSome = settings.map fun _ => true)
    (fun c incident c' _ ⟨⟨L, hs⟩, ht, hterrain, hlocks⟩ hc => ?_)
    ⟨⟨_, .gather hsettings⟩, .gather, rfl, hstart⟩ hrun
  have hb := befell_of_happen? hc
  exact ⟨hs.befell hb, ht.befell (fun _ _ => hs.one_inside) hb, (hs.terrain hb).trans hterrain,
    (hs.locks hb).trans hlocks⟩

/-- At every moment of a contest one contestant at most is between a call that took the lock and
the beginning of the one that gives it back. When all are done, the counter is the number of all
rounds less the failed calls, and the locks and their port are free. -/
theorem no_lost_update {incidents : List Incident}
    (hsettings : ∀ s ∈ settings, s.validate = .ok s ∧ s.endpoint = e ∧ s.onVanished = .rebind)
    (hrun : (gather terrain settings seats rounds).run? incidents = some c) :
    (∀ t t', c.IsInside t → c.IsInside t' → t = t') ∧ c.most ≤ 1 ∧
      (c.isOver = true →
        c.counter + c.failures = seats.length * rounds ∧
        (∀ i < settings.length, c.world.IsVacant i) ∧
        c.world.network.isBindable e = (terrain.bindFault? e.host).isNone ∧
        (∀ s ∈ settings, terrain = .usual → c.world.network.isBindable s.endpoint = true)) := by
  obtain ⟨⟨L, hs⟩, ht, hterrain, hlocks⟩ := sound_of_run hsettings hrun
  refine ⟨fun _ _ => hs.one_inside, ht.most, fun hover => ?_⟩
  obtain ⟨hfree, hL⟩ := hs.over hover
  have hport : c.world.network.isBindable e = (terrain.bindFault? e.host).isNone := by
    rw [Network.isBindable_of_closed (hs.audited.closed hfree hL), hterrain]
  refine ⟨ht.over hover, fun i hi => ?_, hport, fun s hmem husual => ?_⟩
  · have hslot := congrArg (·[i]?) hlocks
    simp only [List.getElem?_map, List.getElem?_eq_getElem hi, Option.map_some] at hslot
    obtain ⟨slot, hsome, hthere⟩ := Option.map_eq_some_iff.mp hslot
    obtain ⟨l, rfl⟩ := Option.isSome_iff_exists.mp hthere
    have hl : c.world.lock? i = some l := by unfold World.lock?; rw [hsome]; rfl
    obtain ⟨hidle, howner, hholds⟩ := hs.audited.idle hfree hL hl
    exact ⟨l, hl, by rw [PortLock.phase, hidle]; rfl, howner, hholds⟩
  · obtain ⟨hvalid, rfl, -⟩ := hsettings s hmem
    have hhost : s.endpoint.host.isLoopback = true := (Settings.valid_cases hvalid).1
    rw [hport, husual, Terrain.bindFault?_loopback hhost]
    rfl

/-- A party makes so many steps on end. -/
def turns (n : Nat) (p : Party) : List Incident := List.replicate n (.step p .plain)

/-- Two contestants with a lock and a round each; one counts, and meanwhile the call of the other
fails. -/
def duel : List Incident := List.flatten
  [turns 1 (.contestant 0), turns 1 (.contestant 1), turns 6 (.actor (.thread 0)),
    turns 2 (.actor (.thread 1)), [.step (.actor (.thread 1)) (.fail .invalidArgument)],
    turns 2 (.actor (.thread 1)), turns 2 (.contestant 0), [.step (.contestant 0) .expire],
    turns 2 (.contestant 0), turns 2 (.contestant 1), turns 4 (.actor (.thread 0)),
    turns 1 (.actor (.worker 0)), turns 4 (.actor (.thread 0)), turns 2 (.contestant 0)]

theorem duel_counted :
    ∃ c, (start .usual {} 2 1 false).run? duel = some c ∧ c.isOver = true ∧ c.failures = 1 ∧
      c.counter + c.failures = 2 * 1 ∧ (∀ i < 2, c.world.IsVacant i) ∧
      c.world.network.isBindable ({} : Settings).endpoint = true := by
  have hend : ((start .usual {} 2 1 false).run? duel).map (fun c => (c.isOver, c.failures)) =
      some (true, 1) := by decide +kernel
  obtain ⟨c, hrun, hend⟩ := Option.map_eq_some_iff.mp hend
  obtain ⟨hover, hfailures⟩ := Prod.mk.inj hend
  have hgather := start_eq_gather .usual {} 2 1 false
  obtain ⟨-, -, hleft⟩ := no_lost_update (e := ({} : Settings).endpoint)
    (fun s hs => by rw [List.eq_of_mem_replicate hs]; exact ⟨rfl, rfl, rfl⟩) (hgather ▸ hrun)
  obtain ⟨hsum, hvacant, -, hport⟩ := hleft hover
  exact ⟨c, hrun, hover, hfailures, hsum, hvacant, hport {} (by decide) rfl⟩

end Contest

end LoopbackLock
