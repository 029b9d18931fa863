import Mathlib.Data.List.Nodup
import Mathlib.Data.List.Perm.Subperm
import LoopbackLock.Proofs.Network.Ports
import LoopbackLock.Proofs.Occupant.Talk
import LoopbackLock.Proofs.World.Readiness

/-!
# A contender before a decoy

One contender acquires a lock whose port is occupied by a decoy (`Standoff.scene`). What the system
does for the contender is said by `Standoff.Serves`: requests do not fail, and the answers that the
decoy does give come in time. A connection needs a port, and one is left as long as there are fewer
connections than ports (`Network.hasPort_of_length_lt`). So each request has one reply but for
reads: the port is taken, the decoy is called, time limits are set and the question is asked.
-/

namespace LoopbackLock

/-! ## Ports for connections -/

namespace Network

variable {n : Network}

/-- A search for a port that ends at one in use has found all that it tried in use. -/
theorem mem_of_freshPort_go {used : List UInt16} {tries : Nat} {p : UInt16}
    (h : freshPort.go used tries p ∈ used) {i : Nat} (hi : i ≤ tries) : p + .ofNat i ∈ used := by
  induction tries generalizing p i with
  | zero =>
    obtain rfl := Nat.le_zero.mp hi
    simpa [freshPort.go] using h
  | succ tries ih =>
    by_cases hp : p ∈ used
    · rw [freshPort.go, if_pos hp] at h
      rcases i with _ | i
      · simpa using hp
      · have hnext := ih h (Nat.le_of_succ_le_succ hi)
        rwa [UInt16.add_assoc, UInt16.add_comm 1, ← UInt16.ofNat_one, ← UInt16.ofNat_add] at hnext
    · rw [freshPort.go, if_neg hp] at h
      exact absurd h hp

/-- As long as some port is not in use, one is found. -/
theorem freshPort_not_mem {used : List UInt16} (h : used.length < UInt16.size) :
    freshPort used ∉ used := by
  intro hmem
  let tried := (List.range (used.length + 1)).map fun i => 32768 + UInt16.ofNat i
  have hsub : tried ⊆ used := by
    intro p hp
    obtain ⟨i, hi, rfl⟩ := List.mem_map.mp hp
    exact mem_of_freshPort_go hmem (Nat.le_of_lt_succ (List.mem_range.mp hi))
  have hnodup : tried.Nodup := by
    refine List.Nodup.map_on (fun i hi j hj heq => ?_) List.nodup_range
    have hi := List.mem_range.mp hi
    have hj := List.mem_range.mp hj
    have hsame : UInt16.ofNat i = UInt16.ofNat j := by simpa using heq
    have hsame := congrArg UInt16.toNat hsame
    simp only [UInt16.toNat_ofNat'] at hsame
    unfold UInt16.size at h
    omega
  have hle := (List.subperm_of_subset hnodup hsub).length_le
  simp only [tried, List.length_map, List.length_range] at hle
  omega

/-- A port is left for a connection to any endpoint. -/
def HasPort (n : Network) : Prop := ∀ e, n.isLinked (n.sourceFor e) e = false

/-- There are more ports than connections. -/
theorem hasPort_of_length_lt (h : n.links.length < UInt16.size) : n.HasPort := by
  intro e
  refine Bool.eq_false_iff.mpr fun hlinked => ?_
  obtain ⟨l, hl, hsame⟩ := List.any_eq_true.mp hlinked
  obtain ⟨⟨halive, hsource⟩, -⟩ : (l.isAlive = true ∧ l.source = n.sourceFor e) ∧ l.target = e := by
    simpa using hsame
  have hused : ((n.links.filter (·.isAlive)).map (·.source.port)).length < UInt16.size := by
    rw [List.length_map]
    exact Nat.lt_of_le_of_lt (List.length_filter_le ..) h
  refine freshPort_not_mem hused (List.mem_map.mpr ⟨l, List.mem_filter.mpr ⟨hl, halive⟩, ?_⟩)
  rw [hsource]
  rfl

end Network
namespace Standoff

variable {s : Settings} {j : Nat} {l l' : PortLock} {a : Activity} {c : Call} {d : Decoy}
variable {n n' : Network} {x : LinkId} {chance : Chance} {r : Reply} {links before : List Link}
variable {backlog : List LinkId} {source : Endpoint} {asked unheard said unread : Bytes}
variable {w w' : World} {p : Progress Call Ending}

/-! ## The scene -/

/-- One lock, one thread and one decoy. -/
def scene (l : PortLock) (a : Activity) (d : Decoy) (n : Network) : World where
  network := n
  locks := [some l]
  threads := [a]
  occupants := [.decoy d]

/-- A served request is taken by the call. -/
theorem step_of_serve (hawake : l.isAsleep 0 c = false)
    (hserve : (scene l (.busy 0 c) d n).serve? l.settings chance (c.request l.settings) =
      some (r, scene l (.busy 0 c) d n')) (hstep : l.step 0 c r = (l', p))
    (hp : p ≠ .over .dropped) :
    (scene l (.busy 0 c) d n).step? (.thread 0) chance = some (scene l' (p.activity 0) d n') := by
  have hsettle : (scene l (.busy 0 c) d n').settle 0 0 l' p = scene l' (p.activity 0) d n' := by
    rcases p with c' | ending
    · rfl
    · cases ending <;> first | rfl | exact absurd rfl hp
  rw [World.step?_of_serve? c rfl rfl hawake hserve, hstep, hsettle]

theorem step_of_going {c' : Call} (hawake : l.isAsleep 0 c = false)
    (hserve : (scene l (.busy 0 c) d n).serve? l.settings chance (c.request l.settings) =
      some (r, scene l (.busy 0 c) d n')) (hstep : l.step 0 c r = (l', .going c')) :
    (scene l (.busy 0 c) d n).step? (.thread 0) chance = some (scene l' (.busy 0 c') d n') :=
  step_of_serve hawake hserve hstep nofun

/-- A step of the decoy is one of the network and of nothing else. -/
theorem step_decoy : (scene l a d n).step? (.occupant 0) chance =
    (d.step? n chance).map fun p => scene l a p.1 p.2 := by
  simp only [World.step?, World.stepOccupant?, scene, List.getElem?_cons_zero,
    Option.bind_eq_bind, Option.bind_some]
  cases d.step? n chance <;> rfl

/-- A call that reads has heard something. -/
theorem heard_of_step {limit : UInt64} (hawake : l.isAsleep 0 c = false)
    (hrequest : c.request l.settings = .read x limit)
    (h : (scene l (.busy 0 c) d n).step? (.thread 0) chance = some w') :
    ∃ r n', n.hear? x .caller chance = some (r, n') ∧ ∀ l' c', l.step 0 c r = (l', .going c') →
      w' = scene l' (.busy 0 c') d n' := by
  rcases hhear : n.hear? x .caller chance with _ | ⟨r, n'⟩
  · simp only [World.step?, World.stepThread?, scene, List.getElem?_cons_zero, World.lock?,
      Option.join_some, hawake, Option.bind_eq_bind, Option.bind_some, hrequest, World.serve?,
      hhear, Option.map_none, Option.bind_none] at h
    cases h
  · refine ⟨r, n', rfl, fun l' c' hstep => ?_⟩
    have hserve : (scene l (.busy 0 c) d n).serve? l.settings chance (c.request l.settings) =
        some (r, scene l (.busy 0 c) d n') := by
      rw [hrequest]
      show (n.hear? x .caller chance).map _ = _
      rw [hhear]
      rfl
    exact Option.some.inj (h.symm.trans (step_of_going hawake hserve hstep))

/-- A call that reads where nothing has arrived and nobody has hung up can run out of time. -/
theorem ready_expire {limit : UInt64} {link : Link}
    (hrequest : c.request l.settings = .read x limit) (hlink : n.links[x]? = some link)
    (hinbox : (link.atSide .caller).inbox = []) (hended : (link.atSide .caller).ended = false)
    (hreset : (link.atSide .caller).reset = false) :
    ((scene l (.busy 0 c) d n).step? (.thread 0) .expire).isSome = true := by
  have hwaits : (n.hear? x .caller .plain).isSome = false := by
    rw [Network.hear?_empty hlink hinbox hended hreset]
    rfl
  exact World.ready_read rfl rfl hrequest (World.hear?_expire hwaits)

/-! ## What the system does for the contender -/

/-- The system serves a call: only a read fails, and only because it is interrupted; a connection is
made, from a port that is not in use; and an answer comes in time as long as decoys give answers. -/
structure Serves (w : World) (s : Settings) (c : Call) (chance : Chance) : Prop where
  unfailing : ∀ f, chance = .fail f → (∃ x limit, c.request s = .read x limit) ∧
    f.kind = .interrupted
  connects : ∀ e limit, c.request s = .connect e limit → chance ≠ .expire ∧
    w.network.isLinked (w.network.sourceFor e) e = false
  timely : ∀ x limit, c.request s = .read x limit → c.challenge?.isSome = true →
    chance = .expire → ∀ d, .decoy d ∈ w.occupants → d.disguise.accepts d.answered.length = false

/-- A request that is no read does not fail. -/
theorem Serves.plain (h : Serves w s c chance) (hc : ∀ x limit, c.request s ≠ .read x limit)
    (f : Fault) : chance ≠ .fail f := by
  intro hf
  obtain ⟨⟨x, limit, hread⟩, -⟩ := h.unfailing f hf
  exact hc x limit hread

/-- Where a port is left for a connection, a system that does all it can serves every call. -/
theorem serves_plain (hport : w.network.HasPort) :
    Serves w s c .plain :=
  ⟨nofun, fun e _ _ => ⟨nofun, hport e⟩, nofun⟩

/-- The port of a decoy is taken. -/
theorem serve_bind (hvalid : s.validate = .ok s) (hchance : ∀ f, chance ≠ .fail f) :
    (scene l a d (.decoyed s.endpoint backlog links)).serve? s chance (.bind s.endpoint) =
      some (.failed .addressInUse, scene l a d (.decoyed s.endpoint backlog links)) := by
  obtain ⟨hhost, hport, -⟩ := Settings.valid_cases hvalid
  have hfault : Terrain.usual.bindFault? s.endpoint.host = none :=
    Terrain.bindFault?_loopback hhost
  have hsettle : (Network.decoyed s.endpoint backlog links).settle s.endpoint = s.endpoint :=
    if_neg hport
  have htaken : (Network.decoyed s.endpoint backlog links).isTaken s.endpoint = true := by
    simp [Network.isTaken, Network.decoyed, Network.clashes_self]
  have hbind : (Network.decoyed s.endpoint backlog links).bind s.endpoint =
      .error .addressInUse := by
    unfold Network.bind
    rw [show (Network.decoyed s.endpoint backlog links).terrain.bindFault? s.endpoint.host = none
      from hfault]
    simp only [hsettle, htaken, if_true]
  cases chance with
  | fail f => exact absurd rfl (hchance f)
  | _ =>
    show some (World.bind _ s.endpoint _) = _
    unfold World.bind
    rw [show (scene l a d (.decoyed s.endpoint backlog links)).network =
      .decoyed s.endpoint backlog links from rfl, hbind]

/-- The decoy is called. -/
theorem serve_connect (hvalid : s.validate = .ok s) (hchance : ∀ f, chance ≠ .fail f)
    (hexpire : chance ≠ .expire)
    (hport : (Network.decoyed s.endpoint backlog links).isLinked
      ((Network.decoyed s.endpoint backlog links).sourceFor s.endpoint) s.endpoint = false) :
    ∃ source, (scene l a d (.decoyed s.endpoint backlog links)).serve? s chance
      (.connect s.endpoint s.challengeTimeout) = some (.connected links.length,
        scene l a d (.decoyed s.endpoint (backlog ++ [links.length])
          (links ++ [.talked source s.endpoint [] [] [] []]))) := by
  obtain ⟨hhost, -, htimeout, -⟩ := Settings.valid_cases hvalid
  have hfault : Terrain.usual.connectFault? s.endpoint.host = none :=
    Terrain.connectFault?_loopback hhost
  have hat : (Network.decoyed s.endpoint backlog links).listenerAt? s.endpoint = some 0 := by
    simp [Network.listenerAt?, Network.decoyed, Endpoint.hears, Host.covers]
  refine ⟨(Network.decoyed s.endpoint backlog links).sourceFor s.endpoint, ?_⟩
  have hconnect : (Network.decoyed s.endpoint backlog links).connect
      ((Network.decoyed s.endpoint backlog links).sourceFor s.endpoint) s.endpoint =
      .ok (links.length, .decoyed s.endpoint (backlog ++ [links.length]) (links ++
        [.talked ((Network.decoyed s.endpoint backlog links).sourceFor s.endpoint) s.endpoint
          [] [] [] []])) := by
    unfold Network.connect
    rw [show (Network.decoyed s.endpoint backlog links).terrain.connectFault? s.endpoint.host = none
      from hfault]
    simp only [hat, hport]
    rfl
  cases chance with
  | fail f => exact absurd rfl (hchance f)
  | expire => exact absurd rfl hexpire
  | _ =>
    show some (World.connect _ s.endpoint s.challengeTimeout _) = _
    unfold World.connect
    rw [show (scene l a d (.decoyed s.endpoint backlog links)).network =
      .decoyed s.endpoint backlog links from rfl]
    simp only [hconnect, if_neg htimeout]
    rfl

/-- Time limits that are not zero can be set. -/
theorem serve_limit {limit : UInt64} (hlimit : limit ≠ 0) (hchance : ∀ f, chance ≠ .fail f) :
    w.serve? s chance (.limit x limit) = some (.done, w) := by
  cases chance with
  | fail f => exact absurd rfl (hchance f)
  | _ =>
    show some (if limit = 0 then _ else _) = _
    rw [if_neg hlimit]

/-- The question is asked on the last connection. -/
theorem serve_send {e : Endpoint} (hchance : ∀ f, chance ≠ .fail f) (hbefore : before.length = j) :
    (scene l a d (.decoyed e backlog
      (before ++ [.talked source e asked unheard said unread]))).serve? s chance (.send j .check) =
        some (.done, scene l a d (.decoyed e backlog (before ++ [.talked source e
          (asked ++ Challenge.question) (unheard ++ Challenge.question) said unread]))) := by
  have hlink : (Link.talked source e asked unheard said unread).write .caller
      (Text.encode Message.check.line) = .ok (.talked source e (asked ++ Challenge.question)
        (unheard ++ Challenge.question) said unread) := rfl
  have hwrite : (Network.decoyed e backlog
      (before ++ [.talked source e asked unheard said unread])).write j .caller
        (Text.encode Message.check.line) = .ok (.decoyed e backlog (before ++ [.talked source e
          (asked ++ Challenge.question) (unheard ++ Challenge.question) said unread])) := by
    simp only [Network.write, Network.links_last hbefore, hlink, Except.map,
      Network.modifyLink_last hbefore]
  cases chance with
  | fail f => exact absurd rfl (hchance f)
  | _ =>
    show some (World.send _ j .check _) = _
    unfold World.send
    simp only [scene, hwrite]

end Standoff

end LoopbackLock
