import LoopbackLock.Proofs.World.Hearing

/-!
# Locks among themselves

Where only locks with valid settings are at work, and the system lets no challenge run out of time
and fails none of what a lock relies on, no acquisition fails: whoever is challenged, in whatever
state of its release, confirms that it is a lock or departs (`challenges_never_mismatch`).
-/

namespace LoopbackLock

variable {s : Settings} {r : Reply} {chance : Chance} {x : LinkId} {w w' w₁ : World}

/-! ## What the system does not do -/

/-- No time limit of a challenge runs out, and its limits can be set. -/
def Challenge.isSpared : Challenge → Chance → Bool
  | connecting, .expire | listening .., .expire => false
  | connecting, .fail f | listening .., .fail f => !f.kind.isTimeout
  | limiting _, .fail _ => false
  | _, _ => true

/-- The challenge under way is spared, and the time limit of the kept connection can be set. -/
def Vigil.isSpared : Vigil → Chance → Bool
  | probing c, chance | joining c, chance | rechecking _ _ c, chance => c.isSpared chance
  | limiting .., .fail _ => false
  | _, _ => true

/-- Binding fails only where the port is taken, and a holder can be set to work. -/
def Contention.isSpared : Contention → Chance → Bool
  | binding, .fail f => f.kind = .addrInUse
  | unblocking _, .fail _ | founding _, .fail _ => false
  | watching v, chance => v.isSpared chance
  | _, _ => true

/-- The contender is spared, if the call is one. -/
def Call.isSpared : Call → Chance → Bool
  | contending c, chance => c.isSpared chance
  | _, _ => true

/-- What a call does while it is making a challenge, the challenge does. -/
theorem Call.of_challenge? {call : Call} {c : Challenge} (hc : call.challenge? = some c)
    (s : Settings) :
    call.request s = c.request s ∧ (∀ chance, call.isSpared chance = c.isSpared chance) ∧
      (∀ n, call.Fares n → c.Fares n) ∧ ∀ x ∈ c.links, x ∈ call.links := by
  obtain ⟨v, rfl, rfl | rfl | ⟨y, reader, rfl⟩⟩ := challenge?_cases hc
  · exact ⟨rfl, fun _ => rfl, fun _ h => h, fun _ hx => hx⟩
  · exact ⟨rfl, fun _ => rfl, fun _ h => h, fun _ hx => hx⟩
  · exact ⟨rfl, fun _ => rfl, fun _ h => h, fun _ hx => List.mem_cons_of_mem _ hx⟩

namespace World

/-- What happens is the doing of locks with valid settings, and chance spares them. -/
def cooperates (w : World) : Event → Bool
  | .step (.thread t) chance =>
    match w.threads[t]? with
    | some (.busy _ c) => c.isSpared chance
    | _ => true
  | .step a chance => !w.cutsAnswer (.step a chance)
  | .newLock s => s.firstInvalid?.isNone
  | .call .. | .deed .. => false
  | .begins .. | .stir .. | .newThread | .shuffle .. => true

/-- The verdict on an occupant that a step of a thread brings. -/
def verdict? (w : World) (t : ThreadId) (chance : Chance) : Option Verdict := do
  match ← w.threads[t]? with
  | .free _ => none
  | .busy i call =>
    let lock ← w.lock? i
    let c ← call.challenge?
    let (reply, _) ← w.serve? lock.settings chance (c.request lock.settings)
    match c.step lock.settings reply with
    | .going _ => none
    | .over verdict => some verdict

end World

/-! ## What the system replies -/

theorem Settings.valid_iff : s.validate = .ok s ↔ s.firstInvalid? = none := by
  unfold validate
  split
  · next h => simp [h]
  · next h => simp [h]

theorem Settings.valid_cases (h : s.validate = .ok s) :
    s.host.isLoopback = true ∧ s.port ≠ 0 ∧ s.challengeTimeout ≠ 0 ∧ s.waitTimeout ≠ 0 ∧
      s.acceptPoll ≠ 0 := by
  have hnone := valid_iff.mp h
  unfold firstInvalid? at hnone
  grind

/-- A loopback address can be listened at. -/
theorem Terrain.bindFault?_loopback {h : Host} (hloop : h.isLoopback = true) :
    Terrain.usual.bindFault? h = none := by
  rcases h with ⟨a, b, c, d⟩ | groups
  · have hv4 : (Host.v4 a b c d).plain.isLoopback = true := hloop
    unfold bindFault?
    rw [if_neg (by simp [Host.isMulticast6, Host.isLinkLocal])]
    split
    · rfl
    · show (if _ then _ else _) = none
      rw [if_pos hv4]
  · have hone : Host.v6 groups = Host.loopback6 := by simpa [Host.isLoopback] using hloop
    rw [hone]
    decide

/-- A loopback address can be connected to. -/
theorem Terrain.connectFault?_loopback {h : Host} (hloop : h.isLoopback = true) :
    Terrain.usual.connectFault? h = none := by
  rcases h with ⟨a, b, c, d⟩ | groups
  · simp [connectFault?, Host.isMulticast6, Host.isLinkLocal]
  · have hone : Host.v6 groups = Host.loopback6 := by simpa [Host.isLoopback] using hloop
    rw [hone]
    decide

/-- Whatever becomes of a connection that is tried, it does not run out of time. -/
theorem Network.connect_failed {n : Network} {source target : Endpoint} {f : Fault}
    (h : n.connect source target = .error f) : f.kind.isTimeout = false := by
  have hfault : ∀ {t : Terrain} {host : Host}, t.connectFault? host = some f →
      f.kind.isTimeout = false := by
    intro t host hf
    unfold Terrain.connectFault? at hf
    split at hf
    · cases hf; rfl
    · split at hf
      · cases hf; rfl
      · split at hf <;> cases hf <;> rfl
  unfold Network.connect at h
  split at h
  · next hf => cases h; exact hfault hf
  · split at h
    · cases h; rfl
    · split at h <;> cases h
      rfl

theorem Challenge.suits {c : Challenge} (h : w.serve? s chance (c.request s) = some (r, w₁))
    (hspared : c.isSpared chance = true) (hvalid : s.validate = .ok s) : c.Suits r := by
  obtain ⟨-, -, hchallenge, -, -⟩ := Settings.valid_cases hvalid
  rcases c with _ | y | y | ⟨y, reader, begun⟩ | ⟨y, why⟩
  case connecting =>
    have h : w.connect s.endpoint s.challengeTimeout chance = (r, w₁) := Option.some.inj h
    unfold World.connect at h
    split at h
    · next f => cases h; simpa [isSpared, Suits] using hspared
    · cases hspared
    · split at h
      · split at h
        · next hzero => exact absurd hzero hchallenge
        · cases h; trivial
      · next hf => cases h; exact Network.connect_failed hf
  case limiting =>
    have h : w.limit s.challengeTimeout chance = (r, w₁) := Option.some.inj h
    unfold World.limit at h
    split at h
    · cases hspared
    · rw [if_neg hchallenge] at h
      cases h; trivial
  case listening =>
    obtain ⟨⟨r, n⟩, hh, heq⟩ := Option.map_eq_some_iff.mp h
    cases heq
    cases r
    case failed f =>
      rcases Network.hear?_failed hh with rfl | rfl | rfl
      · rfl
      · cases hspared
      · simpa [isSpared, Suits] using hspared
    all_goals trivial
  case asking | closing => cases r <;> trivial

theorem Vigil.suits {v : Vigil} (h : w.serve? s chance (v.request s) = some (r, w₁))
    (hspared : v.isSpared chance = true) (hvalid : s.validate = .ok s) : v.Suits r := by
  obtain ⟨-, -, -, hwait, -⟩ := Settings.valid_cases hvalid
  cases v
  case probing | joining | rechecking => exact Challenge.suits h hspared hvalid
  case limiting y reader =>
    have h : w.limit s.waitTimeout chance = (r, w₁) := Option.some.inj h
    unfold World.limit at h
    split at h
    · cases hspared
    · rw [if_neg hwait] at h
      cases h; trivial
  all_goals cases r <;> trivial

theorem Contention.suits {c : Contention} (h : w.serve? s chance (c.request s) = some (r, w₁))
    (hspared : c.isSpared chance = true) (hvalid : s.validate = .ok s)
    (hterrain : w.network.terrain = .usual) : c.Suits r := by
  obtain ⟨hhost, -, -, -, -⟩ := Settings.valid_cases hvalid
  cases c
  case watching => exact Vigil.suits h hspared hvalid
  case binding =>
    have h : w.bind s.endpoint chance = (r, w₁) := Option.some.inj h
    unfold World.bind at h
    split at h
    · cases h; simpa [isSpared, Suits] using hspared
    · split at h
      · cases h; trivial
      · next hf =>
        cases h
        unfold Network.bind at hf
        rw [hterrain, show Terrain.usual.bindFault? s.endpoint.host = none from
          Terrain.bindFault?_loopback hhost] at hf
        simp only at hf
        split at hf <;> cases hf
        exact rfl
  case unblocking =>
    have h : w.attempt chance w = (r, w₁) := Option.some.inj h
    unfold World.attempt at h
    split at h
    · cases hspared
    · cases h; trivial
  case founding =>
    unfold Contention.request World.serve? at h
    simp only at h
    split at h
    · cases hspared
    · cases h; trivial
  all_goals cases r <;> trivial

theorem Call.suits {c : Call} (h : w.serve? s chance (c.request s) = some (r, w₁))
    (hspared : c.isSpared chance = true) (hvalid : s.validate = .ok s)
    (hterrain : w.network.terrain = .usual) : c.Suits r := by
  cases c
  case contending => exact Contention.suits h hspared hvalid hterrain
  all_goals trivial

/-! ## The machine stays what it is -/

namespace Network

variable {n n' : Network}

theorem terrain_releaseAll (n : Network) (xs : List LinkId) :
    (n.releaseAll xs).terrain = n.terrain :=
  releaseAll_same (·.terrain) (fun _ _ => rfl) n xs

theorem terrain_unbind (n : Network) (ℓ : ListenerId) : (n.unbind ℓ).terrain = n.terrain :=
  unbind_same (·.terrain) (fun _ _ => rfl) n ℓ

theorem terrain_write {side : Side} {bytes : Bytes} (h : n.write x side bytes = .ok n') :
    n'.terrain = n.terrain := by
  obtain ⟨_, _, -, -, rfl⟩ := write_eq_ok h
  rfl

theorem terrain_finish {side : Side} (h : n.finish x side = .ok n') : n'.terrain = n.terrain := by
  obtain ⟨_, _, -, -, rfl⟩ := finish_eq_ok h
  rfl

theorem terrain_hear? {side : Side} (h : n.hear? x side chance = some (r, n')) :
    n'.terrain = n.terrain := by
  rcases hear?_cases h with ⟨_, -, rfl⟩ | ⟨_, _, _, -, -, -, -, rfl⟩ <;> rfl

theorem terrain_connect {source target : Endpoint} (h : n.connect source target = .ok (x, n')) :
    n'.terrain = n.terrain := by
  obtain ⟨-, -, _, -, rfl⟩ := connect_eq_ok h
  rfl

end Network

namespace Holder

variable {h h' : Holder} {n n' : Network} {k : Nat} {a : Attendant}

theorem terrain_settle (h : Holder) (n : Network) : (h.settle n).2.terrain = n.terrain := by
  unfold Holder.settle
  split
  · exact n.terrain_releaseAll _
  · rfl

theorem Polled.terrain (hp : h.Polled n h' n') : n'.terrain = n.terrain := by
  cases hp
  case stopped => exact (terrain_settle ..).trans (Network.terrain_unbind ..)
  case turned => rfl
  case attached hx =>
    obtain ⟨_, _, -, -, rfl⟩ := Network.accept?_eq_some hx
    rfl

theorem Attended.terrain (ha : h.Attended n k a chance h' n') : n'.terrain = n.terrain := by
  cases ha
  case heard hh => exact Network.terrain_hear? hh
  case missed hh => exact Network.terrain_hear? hh
  case answered hw =>
    rcases Network.say_cases hw with ⟨_, -, rfl⟩ | ⟨_, -, hw⟩
    · rfl
    · exact Network.terrain_write hw
  case admitted => exact (Network.terrain_releaseAll ..).trans (Network.terrain_releaseAll ..)
  case parted => exact (terrain_settle ..).trans (Network.terrain_releaseAll ..)
  all_goals rfl

end Holder

namespace World

theorem Served.terrain {q : Request} (hs : w.Served s q r w₁) :
    w₁.network.terrain = w.network.terrain := by
  cases hs
  case bound hb =>
    obtain ⟨-, -, -, rfl⟩ := Network.bind_eq_ok hb
    rfl
  case unbound => exact Network.terrain_unbind ..
  case connected hc => exact Network.terrain_connect hc
  case sent hw => exact Network.terrain_write hw
  case heard hh => exact Network.terrain_hear? hh
  case wrote hw => exact Network.terrain_write hw
  case shut hf => exact Network.terrain_finish hf
  case abandoned => exact Holder.terrain_settle ..
  all_goals rfl

theorem terrain_happened {e : Event} (hocc : w.occupants = []) (he : w.Happened e w') :
    w'.network.terrain = w.network.terrain := by
  rcases he with ⟨ht, hl, hs⟩ | ⟨hh, hp⟩ | ⟨hh, ha⟩ | ⟨ho, -⟩ | ⟨hl, ht, hfree⟩ | ⟨hl⟩ | s | _ |
    ⟨hc⟩ | ⟨x, d⟩ | ⟨⟨hh, hperm⟩⟩
  case threadStep =>
    rw [network_settle]
    exact (served_of_serve? hs).terrain
  case workerStep => exact (Holder.polled_of_poll? hp).terrain
  case attendantStep =>
    obtain ⟨a, -, ha⟩ := Holder.attended_of_attend? ha
    exact ha.terrain
  case occupantStep => simp [hocc] at ho
  case called => exact Network.terrain_connect hc
  case done =>
    unfold World.deed
    split
    · split
      · next hw => exact Network.terrain_write hw
      · rfl
    · rfl
    · split
      · next hf => exact Network.terrain_finish hf
      · rfl
    · rfl
  all_goals rfl

/-! ## Who may do something on a calling end -/

theorem Challenge.mem_links_of_calls {c : Challenge} (h : (c.request s).calls x) : x ∈ c.links := by
  cases c
  case listening | closing => exact h ▸ List.mem_cons_self
  all_goals exact h.elim

/-- A request that reads or gives up a calling end comes from a call that owns it. -/
theorem mem_links_of_calls {c : Call} (h : (c.request s).calls x) : x ∈ c.links := by
  have hvigil : ∀ {v : Vigil}, (v.request s).calls x → x ∈ v.links := by
    intro v h
    cases v
    case probing | joining => exact Challenge.mem_links_of_calls h
    case rechecking => exact List.mem_cons_of_mem _ (Challenge.mem_links_of_calls h)
    case excusing => exact h ▸ List.mem_cons_of_mem _ List.mem_cons_self
    case dismissing | awaiting | closing | failing => exact h ▸ List.mem_cons_self
    case limiting | listening => exact h.elim
  rcases c with _ | _ | c | _ | _ | _ | _ | ⟨_, d⟩ | _ | _ | ⟨_, d⟩
  case contending =>
    cases c
    case watching => exact hvigil h
    all_goals exact h.elim
  case dismantling | dropping => cases d <;> exact h.elim
  all_goals exact h.elim

variable {e : Event} {t : ThreadId} {i : LockId} {c : Call} {es : List Event}

/-- What a call owns is owned, and nobody else reads it or gives it up. -/
theorem OwnedAt.mine (ho : w.OwnedAt x) (ht : w.threads[t]? = some (.busy i c)) (hx : x ∈ c.links) :
    w.network.callers x ≠ 0 ∧ ∀ t' chance, t' ≠ t → ¬ w.Calls x (.step (.thread t') chance) := by
  have hone : 1 ≤ Activity.calls x (.busy i c) := List.count_pos_iff.mpr hx
  have hcalls := ho.calls
  constructor
  · have hle := le_total (f := Activity.calls x) ht
    omega
  · rintro t' chance hne ⟨ht', -, hc⟩
    have htwo := pair_le_total (f := Activity.calls x) ht ht' (Ne.symm hne)
    have hone' := List.count_pos_iff.mpr (mem_links_of_calls hc)
    simp only [Activity.calls] at hone htwo hcalls
    have hle := ho.one
    omega

/-- What others do reads no calling end that a call owns, and gives none up. -/
theorem OwnedAt.uncalled (ho : w.OwnedAt x) (ht : w.threads[t]? = some (.busy i c))
    (hx : x ∈ c.links) (hdeed : ∀ d, e ≠ .deed x d)
    (hne : ∀ chance, e ≠ .step (.thread t) chance) : ¬ w.Calls x e := by
  intro hcalls
  rcases e with ⟨t' | _ | _ | _, chance⟩ | _ | _ | _ | _ | _ | ⟨y, d⟩
  case step.thread =>
    by_cases htt : t' = t
    · exact hne chance (by rw [htt])
    · exact (ho.mine ht hx).2 t' chance htt hcalls
  case deed =>
    cases hcalls
    exact hdeed d rfl
  all_goals cases hcalls

theorem Owned.mine (ho : w.Owned) (ht : w.threads[t]? = some (.busy i c)) (hx : x ∈ c.links) :
    w.network.callers x ≠ 0 ∧ ∀ t' chance, t' ≠ t → ¬ w.Calls x (.step (.thread t') chance) :=
  (ho.at_link x).mine ht hx

/-! ## No acquisition fails -/

/-- A world in which locks are among themselves and nothing has failed. -/
structure Agreeing (w : World) : Prop where
  regular : w.Regular
  usual : w.network.terrain = .usual
  valid : w.Fitted fun s => s.validate = .ok s
  whole : w.estate.Whole
  owned : w.Owned
  fares : ∀ (t : ThreadId) (a : Activity), w.threads[t]? = some a → a.Fares w.network

theorem Agreeing.blank : (World.blank .usual).Agreeing where
  regular := .blank .usual
  usual := rfl
  valid _ _ hl := by cases hl
  whole := .blank .usual
  owned := .blank .usual
  fares _ _ ht := by cases ht

/-- What a thread was about is as it was, when something else happens. -/
theorem Agreeing.others {a : Activity} (hw : w.Agreeing) (he : w.Happened e w')
    (hdeed : ∀ x d, e ≠ .deed x d) (hne : ∀ chance, e ≠ .step (.thread t) chance)
    (ht : w.threads[t]? = some a) : a.Fares w'.network := by
  have hf := hw.fares t a ht
  rcases a with (_ | _ | _ | _ | _) | ⟨i, c⟩
  case busy =>
    refine Call.Fares.evolves hf (he.evolves hw.regular.unoccupied hw.regular.accounted) ?_
    intro x hx
    exact ⟨(hw.owned.at_link x).uncalled ht hx (hdeed x) hne, (hw.owned.mine ht hx).1⟩
  all_goals exact hf

theorem Agreeing.happened (hw : w.Agreeing) (hco : w.cooperates e = true)
    (he : w.happen? e = some w') : w'.Agreeing := by
  have hhappened := happened_of_happen? he
  have hdeed : ∀ x d, e ≠ .deed x d := by
    rintro x d rfl
    cases hco
  have hcut : w.cutsAnswer e = false := by
    rcases e with ⟨_ | _ | _ | _, _⟩ | _ | _ | _ | _ | _ | _
    case step.attendant => simpa [cooperates] using hco
    all_goals rfl
  have hcandid := hw.regular.candid hw.whole
  refine ⟨hw.regular.happened hhappened,
    (terrain_happened hw.regular.unoccupied hhappened).trans hw.usual,
    hw.valid.happened (fun s hs => ?_) hhappened, Whole.happened hw.whole hw.regular he hcut,
    hw.owned.happened hw.regular hhappened hdeed, ?_⟩
  · subst hs
    exact Settings.valid_iff.mpr (Option.isNone_iff_eq_none.mp hco)
  · intro t a ha
    have hrest := fun b hne => hw.others (t := t) (a := b) hhappened hdeed hne
    rcases hhappened with ⟨ht, hl, hs⟩ | ⟨hh, hp⟩ | ⟨hh, hk⟩ | ⟨ho, -⟩ | ⟨hl, ht, hfree⟩ | ⟨hl⟩ | s |
      _ | ⟨hc⟩ | ⟨x, d⟩ | ⟨⟨-, -⟩⟩
    case threadStep t' chance i c l r w₁ =>
      have hserved := served_of_serve? hs
      rw [settle_eq] at ha
      have ha : (w₁.threads.set t' _)[t]? = some a := ha
      rw [hserved.threads] at ha
      rcases getElem?_set_cases ha with ⟨rfl, rfl⟩ | ⟨htt, ha⟩
      · rw [network_settle]
        have hspared : c.isSpared chance = true := by simpa [cooperates, ht] using hco
        exact Call.Fares.step (hw.fares t' _ ht) hcandid hserved
          (Call.suits hs hspared (hw.valid _ _ hl) hw.usual)
          fun x hx => (hw.owned.mine ht hx).1
      · exact hrest a (fun _ heq => htt (by cases heq; rfl)) ha
    case occupantStep => simp [hw.regular.unoccupied] at ho
    case begun t' i kind l last =>
      have ha : (w.threads.set t' _)[t]? = some a := ha
      rcases getElem?_set_cases ha with ⟨rfl, rfl⟩ | ⟨-, ha⟩
      · cases kind <;> trivial
      · exact hrest a (by rintro _ ⟨⟩) ha
    case threadMade =>
      have ha : (w.threads ++ [Activity.free none])[t]? = some a := ha
      rcases getElem?_concat_cases ha with ⟨-, rfl⟩ | hold
      · trivial
      · exact hrest a (by rintro _ ⟨⟩) hold
    case done => exact absurd rfl (hdeed _ _)
    all_goals exact hrest a (by rintro _ ⟨⟩) ha

/-- A verdict is a step of a challenge that a call is making. -/
theorem verdict?_eq_some {verdict : Verdict} (h : w.verdict? t chance = some verdict) :
    ∃ i call l c r w₁, w.threads[t]? = some (.busy i call) ∧ w.lock? i = some l ∧
      call.challenge? = some c ∧
      w.serve? l.settings chance (c.request l.settings) = some (r, w₁) ∧
      c.step l.settings r = .over verdict := by
  obtain ⟨a, ht, h⟩ := Option.bind_eq_some_iff.mp h
  rcases a with _ | ⟨i, call⟩
  · cases h
  obtain ⟨l, hl, h⟩ := Option.bind_eq_some_iff.mp h
  obtain ⟨c, hc, h⟩ := Option.bind_eq_some_iff.mp h
  obtain ⟨⟨r, w₁⟩, hs, h⟩ := Option.bind_eq_some_iff.mp h
  simp only at h
  split at h
  · cases h
  · next hstep =>
    cases h
    exact ⟨i, call, l, c, r, w₁, ht, hl, hc, hs, hstep⟩

/-- Among locks a verdict is that the occupant is a lock, or that it departed. -/
theorem Agreeing.verdict {verdict : Verdict} (hw : w.Agreeing)
    (hco : w.cooperates (.step (.thread t) chance) = true)
    (hverdict : w.verdict? t chance = some verdict) :
    verdict.isOk = true ∨ verdict = .error .departed := by
  obtain ⟨i, call, l, c, r, w₁, ht, hl, hc, hs, hstep⟩ := verdict?_eq_some hverdict
  obtain ⟨-, hsame, hfares, hlinks⟩ := Call.of_challenge? hc l.settings
  have hspared : c.isSpared chance = true := by
    rw [← hsame]
    simpa [cooperates, ht] using hco
  have hgoes := (hfares _ (hw.fares t _ ht)).step (hw.regular.candid hw.whole)
    (served_of_serve? hs) (Challenge.suits hs hspared (hw.valid _ _ hl))
    fun x hx => (hw.owned.mine ht (hlinks x hx)).1
  rw [hstep] at hgoes
  exact hgoes

/-- Locks among themselves: whoever is challenged confirms that it is a lock, or departs, and no
acquisition ever fails. -/
theorem challenges_never_mismatch
    (hco : Along (fun w e => w.cooperates e = true) (.blank .usual) es)
    (hr : (World.blank .usual).run? es = some w) :
    (∀ (t : ThreadId) (why : LockError), w.threads[t]? ≠ some (.free (some (.failed why)))) ∧
      ∀ t chance verdict, w.cooperates (.step (.thread t) chance) = true →
        w.verdict? t chance = some verdict →
        (∃ p, verdict = .ok p) ∨ verdict = .error .departed := by
  have hw : w.Agreeing := hco.invariant (fun _ _ _ hw hco he => hw.happened hco he) .blank hr
  refine ⟨fun t why ht => hw.fares t _ ht, fun t chance verdict hco hverdict => ?_⟩
  refine (hw.verdict hco hverdict).imp_left fun hok => ?_
  rcases verdict with why | p
  · cases hok
  · exact ⟨p, rfl⟩

/-- A contender is answered, and before it reads the answer the holder has released the lock. -/
def lateReading : List Event :=
  [.newLock {}, .newLock {}, .newThread, .newThread, .begins 0 0 .acquire] ++
    turns 6 (.thread 0) ++ [.begins 1 1 .acquire] ++ turns 7 (.thread 1) ++ turns 2 (.worker 0) ++
    turns 3 (.attendant 0 0) ++ [.begins 0 0 .release] ++ turns 4 (.thread 0) ++
    turns 1 (.worker 0) ++ turns 4 (.thread 0) ++ turns 3 (.attendant 0 0)

theorem late_reading_agrees :
    ∃ w verdict, (World.blank .usual).run? lateReading = some w ∧
      w.threads[0]? = some (.free (some .released)) ∧ w.verdict? 1 .plain = some verdict ∧
      ((∃ p, verdict = .ok p) ∨ verdict = .error .departed) := by
  obtain ⟨w, hw⟩ := Option.isSome_iff_exists.mp
    (by decide +kernel : ((World.blank .usual).run? lateReading).isSome = true)
  have hco : Along (fun w e => w.cooperates e = true) (World.blank .usual) lateReading := by
    decide +kernel
  have hend : ((World.blank .usual).run? lateReading).all (fun w =>
      w.threads[0]? = some (.free (some .released)) ∧ (w.verdict? 1 .plain).isSome ∧
      w.cooperates (.step (.thread 1) .plain)) = true := by decide +kernel
  rw [hw, Option.all_some, decide_eq_true_eq] at hend
  obtain ⟨hreleased, hsome, hspared⟩ := hend
  obtain ⟨verdict, hverdict⟩ := Option.isSome_iff_exists.mp hsome
  exact ⟨w, verdict, hw, hreleased, hverdict,
    (challenges_never_mismatch hco hw).2 1 .plain verdict hspared hverdict⟩

end World

end LoopbackLock
