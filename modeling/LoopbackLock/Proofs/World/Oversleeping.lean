import LoopbackLock.Proofs.Network.Ports
import LoopbackLock.Proofs.World.Promptness
import LoopbackLock.Proofs.World.Run

/-!
# A rest that outlasts a challenge

Settings whose accepting worker rests for as long as a challenge lasts, or longer, are valid too.
With them a lock can refuse its like: a worker that has just come to rest is called by another lock,
which hears nothing until its time has run out, and its acquisition fails (`AtRest.oversleeps`). So
challenges are answered in time exactly if a rest is shorter than a challenge
(`answered_in_time_iff`).
-/

namespace LoopbackLock

variable {s : Settings}

/-! ## Runs at the instant pace -/

namespace World

variable {w : World} {x : LinkId} {es : List Event} {c : Course World Actor}

/-- What the locks can do without waiting they can do in no time. -/
theorem reaches_run (hc : c.IsInstant)
    (hes : ∀ e ∈ es, e.isOfParties s = true ∨ ∃ a, e = .step a .plain)
    (hr : c.state.run? es = some w) :
    ∃ c', Course.Reaches system (Parties s) c c' ∧ c'.IsInstant ∧ c'.state = w ∧
      c'.now = c.now := by
  induction es generalizing c with
  | nil => cases hr; exact ⟨c, .here, hc, rfl, rfl⟩
  | cons e es ih =>
    rw [run?_cons] at hr
    obtain ⟨w₁, he, hr⟩ := Option.bind_eq_some_iff.mp hr
    obtain ⟨c₁, hnext, hc₁, rfl, hnow₁⟩ : ∃ c₁, Course.Ensues system (Parties s) c c₁ ∧
        c₁.IsInstant ∧ c₁.state = w₁ ∧ c₁.now = c.now := by
      rcases hes e List.mem_cons_self with hparties | ⟨a, rfl⟩
      · have honward : Course.Onward system c none { c with state := w₁ } := hc.meets rfl rfl rfl
        exact ⟨_, .meets ⟨e, hparties, he⟩, honward.instant, rfl, rfl⟩
      · exact hc.ensues_plain (mem_actors_of_step? he) he
    obtain ⟨c', hreach, hc', hstate, hnow⟩ :=
      ih hc₁ (fun e he => hes e (List.mem_cons_of_mem _ he)) hr
    exact ⟨c', (Course.Reaches.here.step hnext).trans hreach, hc', hstate, hnow.trans hnow₁⟩

/-! ## Called at rest -/

namespace AtRest

/-- The first thread is about to bind the port for the first of two locks. -/
def binding (s : Settings) : World where
  locks := [some { settings := s, gate := { owner := some 0, holds := 1 }, state := .acquiring },
    some { settings := s }]
  threads := [.busy 0 (.contending .binding), .free none]

/-- The port of the locks is listened at. -/
def port (s : Settings) : Network where
  listeners := [{ endpoint := s.endpoint }]

/-- The first lock is held by a worker that rests, and the second thread uses the second lock. -/
def contended (s : Settings) (network : Network) (gate : Gate) (state : LockState)
    (activity : Activity) : World where
  network
  locks := [some { settings := s, gate := { owner := some 0, holds := 1 }, state := .holding 0 },
    some { settings := s, gate, state }]
  threads := [.free (some (.acquired .bound)), activity]
  holders := [{ Holder.found s 0 with worker := .resting }]

/-- The second thread contends for the port. -/
def contending (s : Settings) (network : Network) (state : LockState) (c : Contention) : World :=
  contended s network { owner := some 1, holds := 1 } state (.busy 1 (.contending c))

/-- The second thread has called. -/
def called (s : Settings) : Network where
  listeners := [{ endpoint := s.endpoint, backlog := [0] }]
  links := [{ source := (port s).sourceFor s.endpoint, target := s.endpoint }]

/-- The second thread has called and asked. -/
def asked (s : Settings) : Network :=
  (called s).modifyLink 0 fun l => { l with
    caller := { said := Text.encode Message.check.line }
    callee := { inbox := Text.encode Message.check.line } }

/-- The second thread makes the first challenge of its wait. -/
def challenging (s : Settings) (ch : Challenge) : World :=
  contending s (asked s) .waiting (.watching (.probing ch))

/-- How the second thread's acquisition ends. -/
def refusal (s : Settings) : LockError :=
  .protocolMismatch s.endpoint (Mismatch.silence s.challengeTimeout).reason

/-- A valid port is bound when nobody listens. -/
theorem bind_port (hvalid : s.validate = .ok s) :
    (binding s).serve? s .plain (.bind s.endpoint) =
      some (.bound 0, { binding s with network := port s }) := by
  obtain ⟨hhost, hport, -⟩ := Settings.valid_cases hvalid
  have hfault : Terrain.usual.bindFault? s.endpoint.host = none :=
    Terrain.bindFault?_loopback hhost
  have hsettle : ({} : Network).settle s.endpoint = s.endpoint := if_neg hport
  have hbind : ({} : Network).bind s.endpoint = .ok (0, port s) := by
    unfold Network.bind
    rw [hfault]
    simp only [hsettle]
    rfl
  show some (World.bind _ s.endpoint .plain) = _
  unfold World.bind
  rw [show (binding s).network = {} from rfl, hbind]

/-- The port cannot be bound twice. -/
theorem bind_taken (hvalid : s.validate = .ok s) {state : LockState} {c : Contention} :
    (contending s (port s) state c).serve? s .plain (.bind s.endpoint) =
      some (.failed .addressInUse, contending s (port s) state c) := by
  obtain ⟨hhost, hport, -⟩ := Settings.valid_cases hvalid
  have hfault : Terrain.usual.bindFault? s.endpoint.host = none :=
    Terrain.bindFault?_loopback hhost
  have hsettle : (port s).settle s.endpoint = s.endpoint := if_neg hport
  have htaken : (port s).isTaken s.endpoint = true := by
    simp [Network.isTaken, port, Network.clashes_self]
  have hbind : (port s).bind s.endpoint = .error .addressInUse := by
    unfold Network.bind
    rw [show (port s).terrain.bindFault? s.endpoint.host = none from hfault]
    simp only [hsettle, htaken, if_true]
  show some (World.bind _ s.endpoint .plain) = _
  unfold World.bind
  rw [show (contending s (port s) state c).network = port s from rfl, hbind]

/-- Whoever listens at a loopback address is called. -/
theorem connect_port (hvalid : s.validate = .ok s) {state : LockState} {c : Contention} :
    (contending s (port s) state c).serve? s .plain (.connect s.endpoint s.challengeTimeout) =
      some (.connected 0, contending s (called s) state c) := by
  obtain ⟨hhost, -, htimeout, -⟩ := Settings.valid_cases hvalid
  have hfault : Terrain.usual.connectFault? s.endpoint.host = none :=
    Terrain.connectFault?_loopback hhost
  have hat : (port s).listenerAt? s.endpoint = some 0 := by
    simp [Network.listenerAt?, port, Endpoint.hears, Host.covers]
  have hconnect : (port s).connect ((port s).sourceFor s.endpoint) s.endpoint =
      .ok (0, called s) := by
    unfold Network.connect
    rw [show (port s).terrain.connectFault? s.endpoint.host = none from hfault]
    simp only [hat]
    rfl
  show some (World.connect _ s.endpoint s.challengeTimeout .plain) = _
  unfold World.connect
  rw [show (contending s (port s) state c).network = port s from rfl]
  simp only [hconnect, if_neg htimeout]
  rfl

/-- A challenge that lasts any time can set its time limit. -/
theorem limit_link (hvalid : s.validate = .ok s) :
    w.serve? s .plain (.limit x s.challengeTimeout) = some (.done, w) := by
  obtain ⟨-, -, htimeout, -⟩ := Settings.valid_cases hvalid
  show some (if s.challengeTimeout = 0 then _ else _) = _
  rw [if_neg htimeout]

/-- The first lock acquires, and its worker comes to rest. Then a thread of the second lock is about
to bind the port. -/
theorem run?_binding (hvalid : s.validate = .ok s) :
    (blank .usual).run? ([.newLock s, .newLock s, .newThread, .newThread, .begins 0 0 .acquire] ++
      turns 6 (.thread 0) ++ turns 2 (.worker 0) ++ [.begins 1 1 .acquire] ++
        turns 2 (.thread 1)) = some (contending s (port s) .acquiring .binding) := by
  have hbind := step?_of_serve? (.contending .binding) (t := 0) (i := 0) (w := binding s)
    rfl rfl rfl (bind_port hvalid)
  calc (blank .usual).run? _ = ((binding s).step? (.thread 0) .plain).bind fun w =>
        w.run? (turns 3 (.thread 0) ++ turns 2 (.worker 0) ++ [.begins 1 1 .acquire] ++
          turns 2 (.thread 1)) := rfl
    _ = _ := by rw [hbind]; rfl

/-- The thread finds the port taken, calls the holder and asks. -/
theorem run?_challenging (hvalid : s.validate = .ok s) :
    (contending s (port s) .acquiring .binding).run? (turns 5 (.thread 1)) =
      some (challenging s (.listening 0 {} false)) := by
  have hbind := step?_of_serve? (.contending .binding) (t := 1) (i := 1)
    (w := contending s (port s) .acquiring .binding) rfl rfl rfl (bind_taken hvalid)
  have hconnect := step?_of_serve? (.contending (.watching (.probing .connecting)))
    (t := 1) (i := 1) (w := contending s (port s) .waiting (.watching (.probing .connecting)))
    rfl rfl rfl (connect_port hvalid)
  have hlimit := step?_of_serve? (.contending (.watching (.probing (.limiting 0))))
    (t := 1) (i := 1) (w := contending s (called s) .waiting (.watching (.probing (.limiting 0))))
    rfl rfl rfl (limit_link hvalid)
  calc (contending s (port s) .acquiring .binding).run? (turns 5 (.thread 1))
      = (contending s (port s) .acquiring .yielding).run? (turns 4 (.thread 1)) := run?_step hbind
    _ = (contending s (port s) .waiting (.watching (.probing .connecting))).run?
          (turns 3 (.thread 1)) := rfl
    _ = (contending s (called s) .waiting (.watching (.probing (.limiting 0)))).run?
          (turns 2 (.thread 1)) := run?_step hconnect
    _ = (contending s (called s) .waiting (.watching (.probing (.asking 0)))).run?
          (turns 1 (.thread 1)) := run?_step hlimit
    _ = some (challenging s (.listening 0 {} false)) := rfl

/-- The thread closes the connection on which nobody answered, and gives up. -/
theorem run?_refused :
    (challenging s (.closing 0 (.mismatch (.silence s.challengeTimeout)))).run?
      (turns 3 (.thread 1)) = some (contended s ((asked s).release 0 .caller) {} .idle
        (.free (some (.failed (refusal s))))) :=
  rfl

/-! ## Too late -/

/-- While the worker rests and the thread listens, nothing is due before the time of a challenge is
over. -/
theorem due_of_challenging {d : Due Actor} (hc : c.IsInstant)
    (hstate : c.state = challenging s (.listening 0 {} false))
    (hle : s.challengeTimeout ≤ s.acceptPoll) (hd : d ∈ (c.seated system).dues system) :
    s.challengeTimeout.toNat * 1000 ≤ d.time := by
  have hless : s.challengeTimeout.toNat ≤ s.acceptPoll.toNat := UInt64.le_iff_toNat_le.mp hle
  obtain ⟨ha, hcases⟩ := hc.due_cases hd
  rw [hstate] at ha hcases
  have hagents : d.agent = .thread 1 ∨ d.agent = .worker 0 := by
    have ha : d.agent ∈ [Actor.thread 1, .worker 0] := ha
    simpa using ha
  rcases hcases with ⟨hready, -⟩ | ⟨-, -, limit, hlimit, htime⟩
  · rcases hagents with heq | heq <;> rw [heq] at hready <;> cases hready
  · rw [htime]
    have hlimit : s.challengeTimeout.toNat ≤ limit := by
      rcases hagents with heq | heq <;> rw [heq] at hlimit <;> cases hlimit
      · exact Nat.le_refl _
      · exact hless
    omega

/-- With a rest that lasts as long as a challenge, a lock can refuse its like. -/
theorem oversleeps (hvalid : s.validate = .ok s) (hle : s.challengeTimeout ≤ s.acceptPoll) :
    ∃ c, Course.Reaches system (Parties s) dawn c ∧
      c.state.threads[1]? = some (.free (some (.failed (refusal s)))) := by
  obtain ⟨c₀, hreach₀, hc₀, hstate₀, hnow₀⟩ := reaches_run (s := s) (Timely.dawn s).instant
    (by simp [turns, Event.isOfParties]) (run?_binding hvalid)
  obtain ⟨c₁, hreach₁, hc₁, hstate₁, hnow₁⟩ := reaches_run (s := s) hc₀
    (by simp [turns]) (hstate₀ ▸ run?_challenging hvalid)
  have hnow : c₁.now = 0 := hnow₁.trans hnow₀
  have hsince : c₁.since (.thread 1) = 0 := Nat.le_zero.mp (hnow ▸ hc₁.since_le _)
  have hactor : .thread 1 ∈ system.agents c₁.state := by
    rw [hstate₁]
    exact List.mem_cons_self
  have hwaits : system.step? c₁.state (.thread 1) .plain = none := by
    rw [hstate₁]
    rfl
  have hlimit : system.limit? c₁.state (.thread 1) = some s.challengeTimeout.toNat := by
    rw [hstate₁]
    rfl
  have hexpire : system.step? c₁.state (.thread 1) .expire =
      some (challenging s (.closing 0 (.mismatch (.silence s.challengeTimeout)))) := by
    rw [hstate₁]
    rfl
  obtain ⟨c₂, hlate, hc₂, hstate₂⟩ := hc₁.ensues_expire hactor hwaits hlimit hexpire
    fun d hd => by
      have hdue := due_of_challenging hc₁ hstate₁ hle hd
      omega
  obtain ⟨c₃, hreach₃, -, hstate₃, -⟩ := reaches_run hc₂ (by simp [turns])
    (hstate₂ ▸ run?_refused)
  refine ⟨c₃, ?_, by rw [hstate₃]; rfl⟩
  exact ((hreach₀.trans hreach₁).step hlate).trans hreach₃

end AtRest

/-- With valid settings challenges are answered in time, whatever the locks and their threads do and
whenever they do it, exactly if an accepting worker rests for a shorter time than a challenge
lasts. -/
theorem answered_in_time_iff (hvalid : s.validate = .ok s) :
    (∀ c, Course.Reaches system (Parties s) dawn c → Prompt s c) ↔
      s.acceptPoll < s.challengeTimeout := by
  constructor
  · intro hprompt
    refine UInt64.not_le.mp fun hle => ?_
    obtain ⟨c, hreach, hfailed⟩ := AtRest.oversleeps hvalid hle
    exact (hprompt c hreach).unfailed 1 _ hfailed
  · exact fun hlt c hreach => (Timely.reaches hvalid hlt hreach).prompt hlt

/-- With the usual settings challenges are answered in time. With a worker that looks for
connections every three seconds the settings are as valid, but a lock can refuse its like. -/
theorem sluggish_oversleeps :
    (∀ c, Course.Reaches system (Parties {}) dawn c → Prompt {} c) ∧
      ({ acceptPoll := 3000 } : Settings).validate = .ok { acceptPoll := 3000 } ∧
      ¬ ∀ c, Course.Reaches system (Parties { acceptPoll := 3000 }) dawn c →
        Prompt { acceptPoll := 3000 } c :=
  ⟨(answered_in_time_iff rfl).mpr (by decide), rfl,
    fun h => absurd ((answered_in_time_iff rfl).mp h) (by decide)⟩

end World

end LoopbackLock
