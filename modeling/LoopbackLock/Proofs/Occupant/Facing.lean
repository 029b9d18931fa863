import LoopbackLock.Proofs.Occupant.Standoff

/-!
# Between two challenges, and in one

A decoy answers `k` connections and then accepts no more. The contender before it is either between
two challenges (`Standoff.Pause`), and then the first `k` of its connections were answered and no
other; or it is making a challenge on the last connection (`Standoff.Asks`), and what it has read is
a part of what the decoy has said there. So it is told by `Standoff.Faces`, with the number of times
that it has confirmed the holder again. Each step of the contender leads on from there and brings it
nearer to the end of its acquisition (`Standoff.Faces.step`).
-/

namespace LoopbackLock

/-! ## How far it is to the end -/

/-- How many steps a challenge is away from its end, at most, beyond those of a wait. -/
def Challenge.strides : Challenge → Nat
  | connecting => 3
  | limiting _ => 22 + Attendance.answer.length
  | asking _ => 21 + Attendance.answer.length
  | listening _ reader _ => 20 + (Attendance.answer.length - reader.pending.length)
  | closing .. => 12

/-- How many steps a wait is away from the next connection or from its end, at most. -/
def Vigil.strides : Vigil → Nat
  | probing c | joining c | rechecking _ _ c => c.strides
  | dismissing _ | limiting .. | excusing .. => 6
  | listening .. => 5
  | awaiting .. => 4
  | closing .. => 11
  | failing .. => 0

/-- How many steps an acquisition is away from the next connection or from its end, at most. -/
def Activity.strides : Activity → Nat
  | .busy _ .entering => 10
  | .busy _ (.contending .announcing) => 9
  | .busy _ (.contending .binding) => 8
  | .busy _ (.contending .yielding) => 7
  | .busy _ (.contending (.watching v)) => v.strides
  | .busy _ (.contending .assuming) => 1
  | .busy _ (.failing _) => 2
  | .busy _ (.quitting _) => 1
  | _ => 0

/-- The holder has just been confirmed again. -/
def Activity.confirms : Activity → Nat
  | .busy _ (.contending (.watching (.excusing ..))) => 1
  | _ => 0

/-- How many steps an occupant is away from having answered so many connections, at most. -/
def Occupant.strides (calls : Nat) : Occupant → Nat
  | .decoy d => d.strides calls
  | .puppet _ => 0

/-- On a connection that the contender does not read so much was said, and nobody hung up on it. -/
structure Link.Quiet (l : Link) (said : Bytes) : Prop where
  said : l.callee.said = said
  inbox : l.caller.inbox = []
  ended : l.caller.ended = false
  reset : l.caller.reset = false

/-- A connection stays quiet when the contender hangs up. -/
theorem Link.Quiet.release {l : Link} {said : Bytes} (h : l.Quiet said) :
    (l.release .caller).Quiet said := by
  obtain ⟨hsaid, hinbox, hended, hreset⟩ := h
  have hclear : ¬(l.atSide .caller).inbox ≠ [] := fun h => h hinbox
  simp only [Link.release, if_neg hclear]
  split <;> exact ⟨hsaid, hinbox, hended, hreset⟩

namespace World

/-- How many threads have just confirmed the holder again. -/
def confirms (w : World) : Nat := total Activity.confirms w.threads

/-- More steps than can be made without another connection. -/
def lap : Nat := Challenge.question.length + 2 * Attendance.answer.length + 27

/-- How many steps the occupants are away from having answered all connections, at most. -/
def due (w : World) : Nat :=
  total (Occupant.strides w.network.links.length) w.occupants

/-- How many steps are left, at most, until an acquisition before a decoy that answers `k`
connections is over. -/
def toGo (k : Nat) (w : World) : Nat :=
  (k + 3 - w.network.links.length) * lap + (total Activity.strides w.threads + w.due)

end World

namespace Standoff

variable {s : Settings} {k j m : Nat} {l l' : PortLock} {a : Activity} {c : Call}
variable {ch ch' : Challenge} {v v' : Vigil} {f : Challenge → Vigil} {d : Decoy} {x : LinkId}
variable {chance : Chance} {r : Reply} {links links' before : List Link} {source e : Endpoint}
variable {backlog answered : List LinkId} {stage : DecoyStage} {w w' : World}
variable {asked unheard said unread pending : Bytes} {p : Progress Call Ending}

/-- The scene when the decoy is at the endpoint of the lock. -/
abbrev stand (l : PortLock) (a : Activity) (d : Decoy) (backlog : List LinkId)
    (links : List Link) : World :=
  scene l a d (.decoyed l.settings.endpoint backlog links)

/-- The thread waits for the occupant of the port. -/
abbrev watch (v : Vigil) : Activity := .busy 0 (.contending (.watching v))

theorem due_scene :
    (scene l a d (.decoyed e backlog links)).due = d.strides links.length := by
  simp [World.due, scene, Network.decoyed, Occupant.strides]

theorem toGo_scene : (scene l a d (.decoyed e backlog links)).toGo k =
    (k + 3 - links.length) * World.lap + (a.strides + d.strides links.length) := by
  rw [World.toGo, due_scene]
  simp [scene, Network.decoyed]

theorem toGo_lt {a' : Activity} {backlog' : List LinkId} (hlength : links'.length = links.length)
    (hless : a'.strides < a.strides) : (scene l' a' d (.decoyed e backlog' links')).toGo k <
      (scene l a d (.decoyed e backlog links)).toGo k := by
  rw [toGo_scene, toGo_scene, hlength]
  omega

theorem confirms_scene {n : Network} : (scene l a d n).confirms = a.confirms := by
  simp [World.confirms, scene]

/-! ## Connections that were left -/

/-- The first `k` connections were answered, and the contender has read that; the others were
not. -/
def Settled (k : Nat) (links : List Link) : Prop :=
  ∀ (i : Nat) (l : Link), links[i]? = some l → l.Quiet (if i < k then Attendance.answer else [])

theorem Settled.append {link : Link} (h : Settled k before)
    (hlink : link.Quiet (if before.length < k then Attendance.answer else [])) :
    Settled k (before ++ [link]) := by
  intro i l hl
  rcases Nat.lt_trichotomy i before.length with hlt | rfl | hgt
  · exact h i l ((List.getElem?_append_left hlt).symm.trans hl)
  · obtain rfl := Option.some.inj (List.getElem?_concat_length.symm.trans hl)
    exact hlink
  · have hlen : (before ++ [link]).length ≤ i := by
      rw [List.length_append]
      exact hgt
    rw [List.getElem?_eq_none hlen] at hl
    cases hl

theorem Settled.hangUp (h : Settled k links) (x : LinkId) :
    Settled k (links.modify x (·.release .caller)) := by
  intro i l hl
  obtain ⟨l₀, hl₀, rfl⟩ := Option.map_eq_some_iff.mp ((List.getElem?_modify ..).symm.trans hl)
  have hquiet := h i l₀ hl₀
  split
  · exact hquiet.release
  · exact hquiet

/-! ## Where an acquisition stands -/

/-- What is said of a decoy that does not answer. -/
def refusal (s : Settings) : LockError :=
  .protocolMismatch s.endpoint (Mismatch.silence s.challengeTimeout).reason

/-- A round begins with this connection: the first one, or one after the decoy has fallen silent and
the policy is not to assume the lock. -/
def IsRound (s : Settings) (k j : Nat) : Prop :=
  j = 0 ∨ j = k + 1 ∧ 2 ≤ k ∧ s.onVanished = .rebind

/-- What a challenge on this connection is made for. -/
inductive Front (s : Settings) (k : Nat) : Nat → (Challenge → Vigil) → Prop
  | probing {j : Nat} (hround : IsRound s k j) : Front s k j .probing
  | joining (hk : 1 ≤ k) : Front s k 1 .joining
  | rechecking {j : Nat} (hj : 2 ≤ j) (hle : j ≤ k) : Front s k j (.rechecking 1 {})

/-- How an acquisition ends, and after how many connections. -/
inductive Ends (s : Settings) (k : Nat) : Nat → Ending → Prop
  | refused (hk : k < 2) : Ends s k (k + 1) (.failed (refusal s))
  | assumed (hk : 2 ≤ k) (hpolicy : s.onVanished = .assume) : Ends s k (k + 1) (.acquired .assumed)
  | rebound (hk : 2 ≤ k) (hpolicy : s.onVanished = .rebind) : Ends s k (k + 2) (.failed (refusal s))

/-- Where an acquisition stands that has made so many connections and is not making a challenge. -/
inductive Pause (s : Settings) (k : Nat) (l : PortLock) : Nat → Activity → Prop
  | entering (hgate : l.gate = {}) : Pause s k l 0 (.busy 0 .entering)
  | announcing {j : Nat} (hround : IsRound s k j) :
    Pause s k l j (.busy 0 (.contending .announcing))
  | binding {j : Nat} (hround : IsRound s k j) : Pause s k l j (.busy 0 (.contending .binding))
  | yielding {j : Nat} (hround : IsRound s k j) : Pause s k l j (.busy 0 (.contending .yielding))
  | connecting {j : Nat} {f : Challenge → Vigil} (hfront : Front s k j f) :
    Pause s k l j (watch (f .connecting))
  | dismissing (hk : 1 ≤ k) : Pause s k l 1 (watch (.dismissing 0))
  | limiting (hk : 2 ≤ k) : Pause s k l 2 (watch (.limiting 1 {}))
  | listening {j : Nat} (hj : 2 ≤ j) (hle : j ≤ k) :
    Pause s k l j (watch (.listening 1 {}))
  | awaiting {j : Nat} (hj : 2 ≤ j) (hle : j ≤ k) :
    Pause s k l j (watch (.awaiting 1 {} false))
  | excusing {j : Nat} (hj : 2 ≤ j) (hle : j + 1 ≤ k) :
    Pause s k l (j + 1) (watch (.excusing 1 {} j))
  | refused {j : Nat} {f : Challenge → Vigil} (hfront : Front s k j f) (hj : k ≤ j) :
    Pause s k l (j + 1) (watch (f (.closing j (.mismatch (.silence s.challengeTimeout)))))
  | closing (hk : 2 ≤ k) : Pause s k l (k + 1) (watch (.closing 1 .vanished))
  | assuming (hk : 2 ≤ k) (hpolicy : s.onVanished = .assume) :
    Pause s k l (k + 1) (.busy 0 (.contending .assuming))
  | failing {j : Nat} (hends : Ends s k j (.failed (refusal s))) :
    Pause s k l j (.busy 0 (.failing (refusal s)))
  | quitting {j : Nat} (hends : Ends s k j (.failed (refusal s))) :
    Pause s k l j (.busy 0 (.quitting (refusal s)))
  | returned {j : Nat} {ending : Ending} (hends : Ends s k j ending) :
    Pause s k l j (.free (some ending))

/-- What was asked on a connection and what was read from it, where a challenge stands. -/
inductive Asks (j : Nat) : Bytes → Bytes → Challenge → Prop
  | limiting : Asks j [] [] (.limiting j)
  | asking : Asks j [] [] (.asking j)
  | listening {pending : Bytes} {begun : Bool} :
    Asks j Challenge.question pending (.listening j ⟨[], pending⟩ begun)

/-- The contender is before the decoy and has confirmed it again so many times. -/
inductive Faces (s : Settings) (k : Nat) : Nat → World → Prop
  | resting {l : PortLock} {a : Activity} {links : List Link} {backlog answered : List LinkId}
    {stage : DecoyStage} (hl : l.settings = s) (hpause : Pause s k l links.length a)
    (hsettled : Settled k links) (hrested : stage.Rested k links.length answered backlog) :
    Faces s k (min links.length k - 2) (stand l a (.fading k answered stage) backlog links)
  | talking {l : PortLock} {f : Challenge → Vigil} {ch : Challenge} {before : List Link}
    {source : Endpoint} {asked unheard said unread pending : Bytes} {stage : DecoyStage}
    {backlog answered : List LinkId} (hl : l.settings = s) (hfront : Front s k before.length f)
    (hsettled : Settled k before)
    (hreception : Reception k before.length asked unheard said answered stage backlog)
    (hasks : Asks before.length asked pending ch) (hread : pending ++ unread = said)
    (hopen : lineFeed ∉ pending) :
    Faces s k (min before.length k - 2) (stand l (watch (f ch)) (.fading k answered stage) backlog
      (before ++ [.talked source l.settings.endpoint asked unheard said unread]))

/-- The contender has gone on. -/
def Advances (s : Settings) (k m : Nat) (w w' : World) : Prop :=
  Faces s k (m + w'.confirms) w' ∧ w'.toGo k < w.toGo k

/-! ## The front of a challenge -/

theorem Front.le (h : Front s k j f) : j ≤ k + 1 := by
  cases h with
  | probing hround => rcases hround with rfl | ⟨rfl, -⟩ <;> omega
  | joining hk => omega
  | rechecking hj hle => omega

theorem Front.request (h : Front s k j f) : (f ch).request s = ch.request s := by
  cases h <;> rfl

theorem Front.strides (h : Front s k j f) : (f ch).strides = ch.strides := by
  cases h <;> rfl

theorem Front.challenge? (h : Front s k j f) :
    (Call.contending (.watching (f ch))).challenge? = some ch := by
  cases h <;> rfl

theorem Front.confirms (h : Front s k j f) :
    (watch (f ch)).confirms = 0 := by
  cases h <;> rfl

theorem contend_of_going (hv : v.step l.settings r = .going v') :
    l.step 0 (.contending (.watching v)) r = (l, .going (.contending (.watching v'))) := by
  simp only [PortLock.step, PortLock.contend, Contention.stored?, Contention.step, hv]

/-- A challenge goes on. -/
theorem Front.going (h : Front l.settings k j f) (hch : ch.step l.settings r = .going ch') :
    l.step 0 (.contending (.watching (f ch))) r =
      (l, .going (.contending (.watching (f ch')))) := by
  refine contend_of_going ?_
  cases h <;> simp only [Vigil.step, hch]

/-- A challenge that was answered is over. -/
theorem Front.confirmed (h : Front l.settings k j f) (hj : j < k)
    (hch : ch.step l.settings r = .over (.ok (j, {}))) :
    ∃ c, l.step 0 (.contending (.watching (f ch))) r = (l, .going c) ∧
      Pause l.settings k l (j + 1) (.busy 0 c) ∧ (Activity.busy 0 c).strides = 6 ∧
      min (j + 1) k - 2 = min j k - 2 + (Activity.busy 0 c).confirms := by
  cases h with
  | probing hround =>
    obtain rfl : j = 0 := hround.resolve_right fun h => by omega
    refine ⟨.contending (.watching (.dismissing 0)), contend_of_going ?_, .dismissing hj, rfl, ?_⟩
    · simp only [Vigil.step, hch]
    · simp only [Activity.confirms]
      omega
  | joining hk =>
    refine ⟨.contending (.watching (.limiting 1 {})), contend_of_going ?_, .limiting hj, rfl, ?_⟩
    · simp only [Vigil.step, hch]
    · simp only [Activity.confirms]
      omega
  | rechecking htwo hle =>
    refine ⟨.contending (.watching (.excusing 1 {} j)), contend_of_going ?_, .excusing htwo hj,
      rfl, ?_⟩
    · simp only [Vigil.step, hch]
    · simp only [Activity.confirms]
      omega

/-- A challenge that was not answered is over, and its connection is closed. -/
theorem Front.unconfirmed (h : Front l.settings k j f) (hj : k ≤ j) :
    ∃ c, l.step 0 (.contending (.watching
        (f (.closing j (.mismatch (.silence l.settings.challengeTimeout)))))) .done =
          (l, .going c) ∧
      Pause l.settings k l (j + 1) (.busy 0 c) ∧ (Activity.busy 0 c).strides < 12 ∧
      (Activity.busy 0 c).confirms = 0 := by
  cases h with
  | probing hround =>
    refine ⟨.failing (refusal l.settings), rfl, .failing ?_, by simp [Activity.strides], rfl⟩
    rcases hround with rfl | ⟨rfl, hk, hpolicy⟩
    · obtain rfl : k = 0 := Nat.le_zero.mp hj
      exact .refused (by decide)
    · exact .rebound hk hpolicy
  | joining hk =>
    refine ⟨.failing (refusal l.settings), rfl, .failing ?_, by simp [Activity.strides], rfl⟩
    obtain rfl : k = 1 := Nat.le_antisymm hj hk
    exact .refused (by decide)
  | rechecking htwo hle =>
    obtain rfl : j = k := Nat.le_antisymm hle hj
    exact ⟨.contending (.watching (.closing 1 .vanished)), rfl, .closing htwo, by decide, rfl⟩

/-! ## Steps of the contender between two challenges -/

theorem Pause.not_dropped (h : Pause s k l j (p.activity 0)) : p ≠ .over .dropped := by
  rintro rfl
  have h : Pause s k l j (.free (some .dropped)) := h
  cases h with
  | returned hends => cases hends

/-- By chance the contender makes a step, and so goes on. -/
def Goes (s : Settings) (k m : Nat) (w : World) (chance : Chance) : Prop :=
  ∃ w', w.step? (.thread 0) chance = some w' ∧ Advances s k m w w'

/-- A step by which no connection is made. -/
theorem goes_of_serve (hawake : l.isAsleep 0 c = false)
    (hserve : (stand l (.busy 0 c) (.fading k answered stage) backlog links).serve? l.settings
      chance (c.request l.settings) =
        some (r, stand l (.busy 0 c) (.fading k answered stage) backlog links'))
    (hstep : l.step 0 c r = (l', p)) (hl : l'.settings = l.settings)
    (hpause : Pause l.settings k l' links.length (p.activity 0))
    (hsettled : Settled k links') (hlength : links'.length = links.length)
    (hrested : stage.Rested k links.length answered backlog)
    (hless : (p.activity 0).strides < (Activity.busy 0 c).strides)
    (hnone : (p.activity 0).confirms = 0) :
    Goes l.settings k (min links.length k - 2)
      (stand l (.busy 0 c) (.fading k answered stage) backlog links) chance := by
  refine ⟨_, step_of_serve hawake hserve hstep hpause.not_dropped, ?_, ?_⟩
  · rw [confirms_scene, hnone, Nat.add_zero]
    rw [← hlength] at hpause hrested ⊢
    rw [← hl]
    exact .resting rfl (hl ▸ hpause) hsettled hrested
  · exact toGo_lt hlength hless

/-- A step by which a connection is closed. -/
theorem goes_of_hangUp (hawake : l.isAsleep 0 c = false)
    (hrequest : c.request l.settings = .hangUp x) (hstep : l.step 0 c .done = (l, p))
    (hpause : Pause l.settings k l links.length (p.activity 0)) (hsettled : Settled k links)
    (hrested : stage.Rested k links.length answered backlog)
    (hless : (p.activity 0).strides < (Activity.busy 0 c).strides)
    (hnone : (p.activity 0).confirms = 0) :
    Goes l.settings k (min links.length k - 2)
      (stand l (.busy 0 c) (.fading k answered stage) backlog links) chance := by
  refine goes_of_serve hawake ?_ hstep rfl hpause (hsettled.hangUp x)
    (List.length_modify ..) hrested hless hnone
  rw [hrequest]
  rfl

/-- The decoy is called. -/
theorem goes_connecting (hvalid : l.settings.validate = .ok l.settings)
    (hfront : Front l.settings k links.length f) (hsettled : Settled k links)
    (hrested : stage.Rested k links.length answered backlog)
    (hserves : Serves (stand l (watch (f .connecting)) (.fading k answered stage) backlog links)
      l.settings (.contending (.watching (f .connecting))) chance) :
    Goes l.settings k (min links.length k - 2)
      (stand l (watch (f .connecting)) (.fading k answered stage) backlog links) chance := by
  have hrequest : (Call.contending (.watching (f .connecting))).request l.settings =
      .connect l.settings.endpoint l.settings.challengeTimeout := hfront.request
  have hchance := hserves.plain fun x limit h => by rw [hrequest] at h; cases h
  obtain ⟨hexpire, hport⟩ := hserves.connects _ _ hrequest
  obtain ⟨source, hserve⟩ := serve_connect (l := l) (a := watch (f .connecting))
    (d := .fading k answered stage) hvalid hchance hexpire hport
  rw [← hrequest] at hserve
  refine ⟨_, step_of_going rfl hserve (hfront.going rfl), ?_, ?_⟩
  · have hnone : (watch (f (.limiting links.length))).confirms = 0 := hfront.confirms
    rw [confirms_scene, hnone, Nat.add_zero, hrested.answered, hrested.backlog]
    exact .talking rfl hfront hsettled (.opened hrested.idle) .limiting rfl List.not_mem_nil
  · have hle := hfront.le
    have hgap : k + 3 - links.length = k + 3 - (links.length + 1) + 1 := by omega
    have hstrides : (watch (f (.limiting links.length))).strides =
        22 + Attendance.answer.length := hfront.strides
    have hdecoy : (Decoy.fading k answered stage).strides (links.length + 1) ≤
        Challenge.question.length + Attendance.answer.length + 4 :=
      Decoy.strides_le_of_idle hrested.idle
    rw [toGo_scene, toGo_scene, List.length_append, List.length_singleton, hgap, Nat.succ_mul,
      hstrides]
    unfold World.lap
    omega

/-- Between two challenges each step that is not a read leads on. -/
theorem Pause.goes (hvalid : l.settings.validate = .ok l.settings)
    (hpause : Pause l.settings k l links.length (.busy 0 c)) (hsettled : Settled k links)
    (hrested : stage.Rested k links.length answered backlog)
    (hserves : Serves (stand l (.busy 0 c) (.fading k answered stage) backlog links) l.settings c
      chance)
    (hread : ∀ x limit, c.request l.settings ≠ .read x limit) :
    Goes l.settings k (min links.length k - 2)
      (stand l (.busy 0 c) (.fading k answered stage) backlog links) chance := by
  have hchance := hserves.plain hread
  obtain ⟨n, hn⟩ : ∃ n, links.length = n := ⟨_, rfl⟩
  rw [hn] at hpause
  generalize ha : Activity.busy 0 c = a at hpause
  cases hpause <;> cases ha
  case entering hgate =>
    have hawake : l.isAsleep 0 .entering = false := by simp [PortLock.isAsleep, hgate]
    have hstep : l.step 0 .entering .done = ({ l with gate := { owner := some 0, holds := 1 } },
        .going (.contending .announcing)) := by
      simp [PortLock.step, PortLock.enter, Gate.enter, hgate]
    refine goes_of_serve hawake rfl hstep rfl ?_ hsettled rfl hrested (by decide) rfl
    rw [hn]
    exact .announcing (.inl rfl)
  case announcing hround =>
    refine goes_of_serve rfl rfl rfl rfl ?_ hsettled rfl hrested (by decide) rfl
    exact hn ▸ .binding hround
  case binding hround =>
    refine goes_of_serve rfl (serve_bind hvalid hchance) rfl rfl ?_ hsettled rfl hrested
      (by decide) rfl
    exact hn ▸ .yielding hround
  case yielding hround =>
    refine goes_of_serve rfl rfl rfl rfl ?_ hsettled rfl hrested (by decide) rfl
    exact hn ▸ .connecting (.probing hround)
  case connecting hfront => exact goes_connecting hvalid (hn ▸ hfront) hsettled hrested hserves
  case dismissing hk =>
    refine goes_of_hangUp rfl rfl rfl ?_ hsettled hrested (by decide) rfl
    exact hn ▸ .connecting (.joining hk)
  case limiting hk =>
    obtain ⟨-, -, -, hwait, -⟩ := Settings.valid_cases hvalid
    refine goes_of_serve rfl (serve_limit hwait hchance) rfl rfl ?_ hsettled rfl hrested
      (by decide) rfl
    exact hn ▸ .listening (Nat.le_refl 2) hk
  case listening hj hle =>
    refine goes_of_serve rfl rfl rfl rfl ?_ hsettled rfl hrested (by decide) rfl
    exact hn ▸ .awaiting hj hle
  case awaiting => exact absurd rfl (hread _ _)
  case excusing hj hle =>
    refine goes_of_hangUp rfl rfl rfl ?_ hsettled hrested (Nat.lt_succ_self 5) rfl
    exact hn ▸ .listening (Nat.le_succ_of_le hj) hle
  case refused j f hfront hj =>
    obtain ⟨c', hstep, hpause, hless, hnone⟩ := hfront.unconfirmed hj
    have hstrides : (watch (f (.closing j (.mismatch
        (.silence l.settings.challengeTimeout))))).strides = 12 := hfront.strides
    exact goes_of_hangUp rfl hfront.request hstep (hn ▸ hpause) hsettled hrested
      (Nat.lt_of_lt_of_eq hless hstrides.symm) hnone
  case closing hk =>
    have hstep (c : Contention) (hc : Contention.resume l.settings .vanished = c) :
        l.step 0 (.contending (.watching (.closing 1 .vanished))) .done =
          (l, .going (.contending c)) := by
      simp only [PortLock.step, PortLock.contend, Contention.stored?, Contention.step, Vigil.step,
        hc]
    rcases hpolicy : l.settings.onVanished with _ | _
    · refine goes_of_hangUp rfl rfl (hstep .announcing ?_) ?_ hsettled hrested (by decide) rfl
      · simp only [Contention.resume, hpolicy]
      · exact hn ▸ .announcing (.inr ⟨rfl, hk, hpolicy⟩)
    · refine goes_of_hangUp rfl rfl (hstep .assuming ?_) ?_ hsettled hrested (by decide) rfl
      · simp only [Contention.resume, hpolicy]
      · exact hn ▸ .assuming hk hpolicy
  case assuming hk hpolicy =>
    refine goes_of_serve rfl rfl rfl rfl ?_ hsettled rfl hrested (by decide) rfl
    exact hn ▸ .returned (.assumed hk hpolicy)
  case failing hends =>
    refine goes_of_serve rfl rfl rfl rfl ?_ hsettled rfl hrested (Nat.lt_succ_self _) rfl
    exact hn ▸ .quitting hends
  case quitting hends =>
    have hserve : ∃ choice, ∀ w : World,
        w.serve? l.settings chance .choose = some (.chosen choice, w) := by
      cases chance <;> exact ⟨_, fun _ => rfl⟩
    obtain ⟨choice, hserve⟩ := hserve
    refine goes_of_serve rfl (hserve _) rfl rfl ?_ hsettled rfl hrested (Nat.lt_succ_self _) rfl
    exact hn ▸ .returned hends

/-! ## Steps of a challenge -/

/-- A step of a challenge by which nothing is read. -/
theorem goes_of_asks (hvalid : l.settings.validate = .ok l.settings)
    (hfront : Front l.settings k before.length f) (hsettled : Settled k before)
    (hreception : Reception k before.length asked unheard said answered stage backlog)
    (hasks : Asks before.length asked pending ch) (hread : pending ++ unread = said)
    (hopen : lineFeed ∉ pending)
    (hserves : Serves (stand l (watch (f ch)) (.fading k answered stage) backlog
      (before ++ [.talked source l.settings.endpoint asked unheard said unread])) l.settings
        (.contending (.watching (f ch))) chance)
    (hno : ∀ x limit, ch.request l.settings ≠ .read x limit) :
    Goes l.settings k (min before.length k - 2)
      (stand l (watch (f ch)) (.fading k answered stage) backlog
        (before ++ [.talked source l.settings.endpoint asked unheard said unread])) chance := by
  have hrequest : (Call.contending (.watching (f ch))).request l.settings =
      ch.request l.settings := hfront.request
  have hchance := hserves.plain fun x limit h => hno x limit (hrequest.symm.trans h)
  -- What the next stage of the challenge needs, whatever has been asked by then.
  have hnext {ch' : Challenge} {asked' unheard' : Bytes}
      (hstep : (stand l (watch (f ch)) (.fading k answered stage) backlog
        (before ++ [.talked source l.settings.endpoint asked unheard said unread])).step?
          (.thread 0) chance = some (stand l (watch (f ch')) (.fading k answered stage) backlog
            (before ++ [.talked source l.settings.endpoint asked' unheard' said unread])))
      (hreception : Reception k before.length asked' unheard' said answered stage backlog)
      (hasks : Asks before.length asked' pending ch') (hless : ch'.strides < ch.strides) :
      Goes l.settings k (min before.length k - 2)
        (stand l (watch (f ch)) (.fading k answered stage) backlog
          (before ++ [.talked source l.settings.endpoint asked unheard said unread])) chance := by
    refine ⟨_, hstep, ?_, ?_⟩
    · rw [confirms_scene, hfront.confirms, Nat.add_zero]
      exact .talking rfl hfront hsettled hreception hasks hread hopen
    · have hless : (watch (f ch')).strides < (watch (f ch)).strides := by
        show (f ch').strides < (f ch).strides
        rwa [hfront.strides, hfront.strides]
      exact toGo_lt (by simp) hless
  cases hasks with
  | limiting =>
    obtain ⟨-, -, hlimit, -, -⟩ := Settings.valid_cases hvalid
    refine hnext ?_ hreception .asking (Nat.lt_succ_self _)
    exact step_of_going rfl ((congrArg _ hrequest).trans (serve_limit hlimit hchance))
      (hfront.going rfl)
  | asking =>
    refine hnext (step_of_going rfl ((congrArg _ hrequest).trans (serve_send hchance rfl))
      (hfront.going rfl)) ?_ .listening (Nat.lt_succ_self _)
    exact hreception.question_asked
  | listening => exact absurd rfl (hno _ _)

/-- Between two challenges the contender only reads from the connection that it keeps. -/
theorem Pause.of_read {limit : UInt64} (hpause : Pause s k l j (.busy 0 c))
    (hread : c.request s = .read x limit) :
    c = .contending (.watching (.awaiting 1 {} false)) ∧ 2 ≤ j ∧ j ≤ k := by
  generalize ha : Activity.busy 0 c = a at hpause
  cases hpause <;> cases ha
  case connecting hfront =>
    rw [show Call.request s (.contending (.watching _)) = _ from hfront.request] at hread
    cases hread
  case refused hfront _ =>
    rw [show Call.request s (.contending (.watching _)) = _ from hfront.request] at hread
    cases hread
  case awaiting hj hle => exact ⟨rfl, hj, hle⟩
  all_goals cases hread

/-- A step of the contender leads on, unless it is a read that was interrupted. -/
def Steps (s : Settings) (k m : Nat) (w : World) (chance : Chance) (w' : World) : Prop :=
  ((∃ f, chance = .fail f) ∧ w' = w ∧ w.confirms = 0) ∨ Advances s k m w w'

/-- Nothing comes on the kept connection, so the decoy is challenged again. -/
theorem steps_awaiting (htwo : 2 ≤ links.length) (hle : links.length ≤ k)
    (hsettled : Settled k links) (hrested : stage.Rested k links.length answered backlog)
    (hserves : Serves (stand l (watch (.awaiting 1 {} false)) (.fading k answered stage) backlog
      links) l.settings (.contending (.watching (.awaiting 1 {} false))) chance)
    (h : (stand l (watch (.awaiting 1 {} false)) (.fading k answered stage) backlog links).step?
      (.thread 0) chance = some w') :
    Steps l.settings k (min links.length k - 2)
      (stand l (watch (.awaiting 1 {} false)) (.fading k answered stage) backlog links) chance
        w' := by
  obtain ⟨r, n', hhear, hw⟩ := heard_of_step rfl rfl h
  have hone : 1 < links.length := htwo
  have hlink : links[1]? = some links[1] := List.getElem?_eq_getElem hone
  have hquiet := hsettled 1 _ hlink
  have hended : (links[1].atSide .caller).ended = false := hquiet.ended
  rcases Network.hear?_lasting hlink hended hquiet.reset hhear with
    ⟨bytes, rest, hne, hinbox, -⟩ | ⟨⟨kind, text⟩, rfl, rfl, rfl⟩ | ⟨rfl, -, rfl, rfl⟩
  · have hnil : bytes ++ rest = [] := hinbox.symm.trans hquiet.inbox
    exact absurd (List.append_eq_nil_iff.mp hnil).1 hne
  · obtain rfl : kind = .interrupted := (hserves.unfailing _ rfl).2
    exact .inl ⟨⟨_, rfl⟩, hw _ _ rfl, rfl⟩
  · obtain rfl := hw _ _ rfl
    refine .inr ⟨?_, ?_⟩
    · exact .resting rfl (.connecting (.rechecking htwo hle)) hsettled hrested
    · exact toGo_lt rfl (by decide)

/-- A challenge that reads a piece of the answer has it all then, or reads on. -/
theorem step_heard (begun : Bool) {bytes left more : Bytes} (hopen : lineFeed ∉ pending)
    (hne : bytes ≠ []) (hall : pending ++ bytes ++ (left ++ more) = Attendance.answer) :
    ((left = [] ∧ more = []) ∧ Challenge.step s (.listening j ⟨[], pending⟩ begun) (.heard bytes) =
      .over (.ok (j, {}))) ∨
    lineFeed ∉ pending ++ bytes ∧ Challenge.step s (.listening j ⟨[], pending⟩ begun)
      (.heard bytes) = .going (.listening j ⟨[], pending ++ bytes⟩ true) := by
  rcases LineReader.supply_cases hopen hne begun with
    ⟨body, rest, hbody, hdata, hsupply⟩ | ⟨hopen', hsupply⟩
  · rw [hdata] at hall
    obtain ⟨hline, rfl, hnil⟩ := isLine_answer.ends hbody hall
    refine .inl ⟨List.append_eq_nil_iff.mp hnil, ?_⟩
    simp only [Challenge.step, hsupply, hline, Challenge.turn, Challenge.judge, Heard.ofLine_answer]
  · refine .inr ⟨hopen', ?_⟩
    simp only [Challenge.step, hsupply, Challenge.turn]

/-- The connection of a challenge that is over is left. -/
theorem faces_left (hpause : Pause l.settings k l (before.length + 1) a)
    (hsettled : Settled k before) (hrested : stage.Rested k (before.length + 1) answered backlog)
    (hsaid : said = if before.length < k then Attendance.answer else []) :
    Faces l.settings k (min (before.length + 1) k - 2) (stand l a (.fading k answered stage) backlog
      (before ++ [.talked source e asked unheard said []])) := by
  have hlength : (before ++ [Link.talked source e asked unheard said []]).length =
      before.length + 1 := List.length_append
  rw [← hlength] at hpause hrested ⊢
  exact .resting rfl hpause (hsettled.append ⟨hsaid, rfl, rfl, rfl⟩) hrested

/-- A challenge that hears a piece of the answer reads on, or it has it all then and is over. -/
theorem advances_of_heard {begun : Bool} {bytes left : Bytes}
    (hfront : Front l.settings k before.length f) (hsettled : Settled k before)
    (hreception : Reception k before.length Challenge.question unheard said answered stage backlog)
    (hread : pending ++ (bytes ++ left) = said) (hopen : lineFeed ∉ pending) (hne : bytes ≠ []) :
    ∃ c, l.step 0 (.contending (.watching (f (.listening before.length ⟨[], pending⟩ begun))))
        (.heard bytes) = (l, .going c) ∧
      Advances l.settings k (min before.length k - 2)
        (stand l (watch (f (.listening before.length ⟨[], pending⟩ begun)))
          (.fading k answered stage) backlog (before ++
            [.talked source l.settings.endpoint Challenge.question unheard said (bytes ++ left)]))
        (stand l (.busy 0 c) (.fading k answered stage) backlog (before ++
          [.talked source l.settings.endpoint Challenge.question unheard said left])) := by
  have hstrides : (watch (f (.listening before.length ⟨[], pending⟩ begun))).strides =
      20 + (Attendance.answer.length - pending.length) := hfront.strides
  obtain ⟨more, hmore⟩ := hreception.says
  have hall : pending ++ bytes ++ (left ++ more) = Attendance.answer := by
    rw [← hmore, ← hread]
    simp
  rcases step_heard (s := l.settings) (j := before.length) begun hopen hne hall with
    ⟨⟨rfl, rfl⟩, hch⟩ | ⟨hopen', hch⟩
  · -- All of the answer has come.
    obtain rfl : said = Attendance.answer := (List.append_nil said).symm.trans hmore
    obtain ⟨hj, hrested⟩ := hreception.complete
    obtain ⟨c, hstep, hpause, hsix, hcount⟩ := hfront.confirmed hj hch
    refine ⟨c, hstep, ?_, ?_⟩
    · rw [confirms_scene, ← hcount]
      exact faces_left hpause hsettled hrested (if_pos hj).symm
    · refine toGo_lt (by simp) ?_
      rw [hstrides, hsix]
      omega
  · -- A part of the answer has come.
    have hstrides' : (watch (f (.listening before.length ⟨[], pending ++ bytes⟩ true))).strides =
        20 + (Attendance.answer.length - (pending ++ bytes).length) := hfront.strides
    refine ⟨_, hfront.going hch, ?_, ?_⟩
    · rw [confirms_scene, hfront.confirms, Nat.add_zero]
      refine .talking rfl hfront hsettled hreception .listening ?_ hopen'
      rw [List.append_assoc, hread]
    · have hlength := congrArg List.length hall
      have hpos := List.length_pos_iff.mpr hne
      refine toGo_lt (by simp) ?_
      rw [hstrides, hstrides']
      simp only [List.length_append] at hlength ⊢
      omega

/-- A challenge that runs out of time before a decoy that gives no more answers is not answered. -/
theorem advances_of_silence {begun : Bool} (hfront : Front l.settings k before.length f)
    (hsettled : Settled k before)
    (hreception : Reception k before.length Challenge.question unheard pending answered stage
      backlog) (hopen : lineFeed ∉ pending)
    (hdone : (Decoy.fading k answered stage).disguise.accepts answered.length = false) :
    Advances l.settings k (min before.length k - 2)
      (stand l (watch (f (.listening before.length ⟨[], pending⟩ begun)))
        (.fading k answered stage) backlog (before ++
          [.talked source l.settings.endpoint Challenge.question unheard pending []]))
      (stand l (watch (f (.closing before.length (.mismatch (.silence
        l.settings.challengeTimeout))))) (.fading k answered stage) backlog (before ++
          [.talked source l.settings.endpoint Challenge.question unheard pending []])) := by
  have hsaid : pending ≠ Attendance.answer := by
    rintro rfl
    exact isLine_answer.closed hopen
  obtain ⟨hj, rfl, hrested⟩ := hreception.unanswered hsaid hdone
  refine ⟨?_, ?_⟩
  · have hsame : min before.length k - 2 = min (before.length + 1) k - 2 := by omega
    rw [confirms_scene, hfront.confirms, Nat.add_zero, hsame]
    exact faces_left (.refused hfront hj) hsettled hrested (if_neg (Nat.not_lt.mpr hj)).symm
  · have hstrides : (watch (f (.listening before.length ⟨[], []⟩ begun))).strides =
        20 + (Attendance.answer.length - 0) := hfront.strides
    have htwelve : (watch (f (.closing before.length (.mismatch
      (.silence l.settings.challengeTimeout))))).strides = 12 := hfront.strides
    refine toGo_lt rfl ?_
    rw [hstrides, htwelve]
    omega

/-- A challenge reads a part of the answer, or all of it; or there will be none. -/
theorem steps_listening {begun : Bool} (hfront : Front l.settings k before.length f)
    (hsettled : Settled k before)
    (hreception : Reception k before.length Challenge.question unheard said answered stage backlog)
    (hread : pending ++ unread = said) (hopen : lineFeed ∉ pending)
    (hserves : Serves (stand l (watch (f (.listening before.length ⟨[], pending⟩ begun)))
      (.fading k answered stage) backlog (before ++
        [.talked source l.settings.endpoint Challenge.question unheard said unread])) l.settings
          (.contending (.watching (f (.listening before.length ⟨[], pending⟩ begun)))) chance)
    (h : (stand l (watch (f (.listening before.length ⟨[], pending⟩ begun)))
      (.fading k answered stage) backlog (before ++
        [.talked source l.settings.endpoint Challenge.question unheard said unread])).step?
          (.thread 0) chance = some w') :
    Steps l.settings k (min before.length k - 2)
      (stand l (watch (f (.listening before.length ⟨[], pending⟩ begun)))
        (.fading k answered stage) backlog (before ++
          [.talked source l.settings.endpoint Challenge.question unheard said unread])) chance
            w' := by
  have hrequest : (Call.contending (.watching
      (f (.listening before.length ⟨[], pending⟩ begun)))).request l.settings =
        .read before.length l.settings.challengeTimeout := hfront.request
  obtain ⟨r, n', hhear, hw⟩ := heard_of_step rfl hrequest h
  have hended : ((Link.talked source l.settings.endpoint Challenge.question unheard said
    unread).atSide .caller).ended = false := rfl
  rcases Network.hear?_lasting (Network.links_last rfl) hended rfl hhear with
    ⟨bytes, left, hne, hinbox, rfl, rfl⟩ | ⟨⟨kind, text⟩, rfl, rfl, rfl⟩ | ⟨rfl, hinbox, rfl, rfl⟩
  · obtain rfl : unread = bytes ++ left := hinbox
    rw [Network.modifyLink_last rfl, Link.take_caller_talked] at hw
    obtain ⟨c, hstep, hadvances⟩ := advances_of_heard hfront hsettled hreception hread hopen hne
    obtain rfl := hw _ _ hstep
    exact .inr hadvances
  · obtain rfl : kind = .interrupted := (hserves.unfailing _ rfl).2
    exact .inl ⟨⟨_, rfl⟩, hw _ _ (hfront.going rfl), hfront.confirms⟩
  · obtain rfl : unread = [] := hinbox
    obtain rfl : pending = said := (List.append_nil pending).symm.trans hread
    have hasks : (Call.contending (.watching
        (f (.listening before.length ⟨[], pending⟩ begun)))).challenge?.isSome = true := by
      rw [hfront.challenge?]
      rfl
    have hdone := hserves.timely _ _ hrequest hasks rfl _ List.mem_cons_self
    obtain rfl := hw _ _ (hfront.going rfl)
    exact .inr (advances_of_silence hfront hsettled hreception hopen hdone)

/-! ## The contender -/

/-- Every step of the contender leads on, unless it is a read that was interrupted. -/
theorem Faces.step (hvalid : s.validate = .ok s) (hfaces : Faces s k m w)
    (hc : w.threads[0]? = some (.busy 0 c)) (hserves : Serves w s c chance)
    (h : w.step? (.thread 0) chance = some w') : Steps s k m w chance w' := by
  have of_goes (hgoes : Goes s k m w chance) : Steps s k m w chance w' := by
    obtain ⟨w₁, hw₁, hadvances⟩ := hgoes
    obtain rfl := Option.some.inj (hw₁.symm.trans h)
    exact .inr hadvances
  cases hfaces with
  | @resting l _ _ _ _ _ hl hpause hsettled hrested =>
    subst hl
    cases Option.some.inj hc
    by_cases hread : ∃ x limit, c.request l.settings = .read x limit
    · obtain ⟨x, limit, hread⟩ := hread
      obtain ⟨rfl, hj, hle⟩ := hpause.of_read hread
      exact steps_awaiting hj hle hsettled hrested hserves h
    · exact of_goes (hpause.goes hvalid hsettled hrested hserves
        fun x limit h => hread ⟨x, limit, h⟩)
  | talking hl hfront hsettled hreception hasks hread hopen =>
    subst hl
    cases Option.some.inj hc
    cases hasks with
    | limiting => exact of_goes (goes_of_asks hvalid hfront hsettled hreception .limiting hread
        hopen hserves nofun)
    | asking => exact of_goes (goes_of_asks hvalid hfront hsettled hreception .asking hread
        hopen hserves nofun)
    | listening => exact steps_listening hfront hsettled hreception hread hopen hserves h

/-- The contender can make a step, and nothing fails. -/
def CanGo (w : World) (s : Settings) (c : Call) : Prop :=
  ∃ chance, Serves w s c chance ∧ (∀ f, chance ≠ .fail f) ∧
    (w.step? (.thread 0) chance).isSome = true

/-- An answer is due with which the decoy can go on, and nothing fails. -/
def CanAnswer (w : World) : Prop :=
  0 < w.due ∧ ∃ d chance, w.occupants[0]? = some (.decoy d) ∧ d.Granted chance ∧
    (∀ f, chance ≠ .fail f) ∧ (w.step? (.occupant 0) chance).isSome = true

/-- A contender that waits for what comes on the kept connection can run out of time. -/
theorem can_go_awaiting (htwo : 2 ≤ links.length) (hsettled : Settled k links) :
    CanGo (stand l (watch (.awaiting 1 {} false)) d backlog links) l.settings
      (.contending (.watching (.awaiting 1 {} false))) := by
  have hone : 1 < links.length := htwo
  have hlink : links[1]? = some links[1] := List.getElem?_eq_getElem hone
  obtain ⟨-, hinbox, hended, hreset⟩ := hsettled 1 _ hlink
  refine ⟨.expire, ⟨nofun, nofun, nofun⟩, nofun, ?_⟩
  exact ready_expire rfl hlink hinbox hended hreset

/-- A contender that waits for an answer can read what has come of it; or the answer is due, or
there will be none, and it can run out of time. -/
theorem can_go_listening {begun : Bool} (hfront : Front l.settings k before.length f)
    (hreception : Reception k before.length Challenge.question unheard said answered stage backlog)
    (hread : pending ++ unread = said) (hopen : lineFeed ∉ pending)
    (hport : (stand l (watch (f (.listening before.length ⟨[], pending⟩ begun)))
      (.fading k answered stage) backlog (before ++ [.talked source l.settings.endpoint
        Challenge.question unheard said unread])).network.HasPort) :
    CanGo (stand l (watch (f (.listening before.length ⟨[], pending⟩ begun)))
      (.fading k answered stage) backlog (before ++ [.talked source l.settings.endpoint
        Challenge.question unheard said unread])) l.settings
          (.contending (.watching (f (.listening before.length ⟨[], pending⟩ begun)))) ∨
    CanAnswer (stand l (watch (f (.listening before.length ⟨[], pending⟩ begun)))
      (.fading k answered stage) backlog (before ++ [.talked source l.settings.endpoint
        Challenge.question unheard said unread])) := by
  have hrequest : (Call.contending (.watching
      (f (.listening before.length ⟨[], pending⟩ begun)))).request l.settings =
        .read before.length l.settings.challengeTimeout := hfront.request
  by_cases hnil : unread = []
  · subst hnil
    obtain rfl : pending = said := (List.append_nil pending).symm.trans hread
    by_cases hj : before.length < k
    · have hsaid : pending ≠ Attendance.answer := by
        rintro rfl
        exact isLine_answer.closed hopen
      obtain ⟨hpos, chance, hg, hfail, hstep⟩ := hreception.can_step hj hsaid rfl
      refine .inr ⟨?_, _, chance, rfl, hg, hfail, ?_⟩
      · rwa [due_scene, List.length_append]
      · rwa [step_decoy, Option.isSome_map]
    · obtain ⟨rfl, -⟩ := hreception.ignores (Nat.not_lt.mp hj)
      have hfail (f : Fault) : Chance.expire ≠ .fail f := by simp
      refine .inl ⟨.expire, ⟨fun f hf => absurd hf (hfail f), ?_, ?_⟩, hfail, ?_⟩
      · intro e limit he
        rw [hrequest] at he
        cases he
      · intro x limit _ _ _ d hd
        cases List.mem_singleton.mp hd
        simp [Decoy.fading, Disguise.accepts]
      · exact ready_expire hrequest (Network.links_last rfl) rfl rfl rfl
  · have hinbox : ((Link.talked source l.settings.endpoint Challenge.question unheard said
      unread).atSide .caller).inbox ≠ [] := hnil
    refine .inl ⟨.plain, serves_plain hport, by simp, World.ready_read rfl rfl hrequest ?_⟩
    exact Option.isSome_of_eq_some (Network.hear?_inbox (Network.links_last rfl) hinbox)

/-- A contender whose acquisition is not over can go on, or it waits for an answer with which the
decoy can go on. -/
theorem Faces.can_step (hvalid : s.validate = .ok s) (hfaces : Faces s k m w)
    (hc : w.threads[0]? = some (.busy 0 c)) (hport : w.network.HasPort) :
    CanGo w s c ∨ CanAnswer w := by
  have of_goes (hgoes : Goes s k m w .plain) : CanGo w s c := by
    obtain ⟨w₁, hw₁, -⟩ := hgoes
    exact ⟨.plain, serves_plain hport, nofun, by rw [hw₁]; rfl⟩
  have hplain : Serves w s c .plain := serves_plain hport
  cases hfaces with
  | @resting l a links _ _ _ hl hpause hsettled hrested =>
    subst hl
    cases Option.some.inj hc
    refine .inl ?_
    by_cases hread : ∃ x limit, c.request l.settings = .read x limit
    · obtain ⟨x, limit, hread⟩ := hread
      obtain ⟨rfl, hj, -⟩ := hpause.of_read hread
      exact can_go_awaiting hj hsettled
    · exact of_goes (hpause.goes hvalid hsettled hrested hplain
        fun x limit h => hread ⟨x, limit, h⟩)
  | talking hl hfront hsettled hreception hasks hread hopen =>
    subst hl
    cases Option.some.inj hc
    cases hasks with
    | limiting => exact .inl (of_goes (goes_of_asks hvalid hfront hsettled hreception .limiting
        hread hopen hplain nofun))
    | asking => exact .inl (of_goes (goes_of_asks hvalid hfront hsettled hreception .asking
        hread hopen hplain nofun))
    | listening => exact can_go_listening hfront hreception hread hopen hport

end Standoff

end LoopbackLock
