import LoopbackLock.Proofs.World.Keeping
import LoopbackLock.Proofs.World.Ledger
import LoopbackLock.Proofs.World.Run

/-!
# Mutual exclusion

Of all locks at one endpoint one at most holds the port, and of all threads one at most is between
an acquisition that returned that the port is bound and the beginning of its outermost release.

Of the network only this is used: a listener comes about when no open one is in its way, and is
closed by nobody but its owner. Everything else on it may change at any time and in any way
(`Occurrence.upheaval`).
-/

namespace LoopbackLock

/-- A world, and what the calls made in it have given their threads. -/
structure Annals where
  world : World
  ledger : Ledger := fun _ _ => {}

/-- Something that happens to a world or to its network. -/
inductive Occurrence
  | event (e : Event)
  /-- The network becomes another one with the same ports. -/
  | upheaval (network : Network)

namespace Annals

/-- The annals of a world in which nothing has happened. -/
def blank (terrain : Terrain) : Annals := { world := .blank terrain }

/-- Something happens, if it can. -/
def happen? (A : Annals) : Occurrence → Option Annals
  | .event e =>
    (A.world.happen? e).map fun world => { world, ledger := A.ledger.after A.world e world }
  | .upheaval network =>
    if network.ports = A.world.network.ports then
      some { A with world := { A.world with network } }
    else none

/-- A sequence of occurrences happens. -/
def run? (A : Annals) (os : List Occurrence) : Option Annals := os.foldlM happen? A

/-- The thread is between an acquisition of the lock that returned that the port is bound and the
beginning of its outermost release, or of the dropping of the lock. -/
def Inside (A : Annals) (t : ThreadId) (i : LockId) : Prop := (A.ledger t i).bound = true

end Annals

namespace World

variable {w w' : World} {e : Endpoint} {i j : LockId}

/-- The lock shows that it holds the port. Nobody looks at a lock any more that is being dropped. -/
def IsHolding (w : World) (i : LockId) : Prop := w.phase i = .holding ∧ ¬ w.IsRetiring i

/-- The accepting worker of the lock's holder has the listener, and it is open. -/
def OwnsListener (w : World) (i : LockId) (ℓ : ListenerId) : Prop :=
  ∃ l h holder, w.lock? i = some l ∧ l.state = .holding h ∧ w.holders[h]? = some holder ∧
    holder.worker ≠ .gone ∧ holder.listener = ℓ ∧ w.network.isListening ℓ = true

/-- The locks of a world are all at one endpoint, and nothing else listens there. -/
structure Secluded (e : Endpoint) (w : World) : Prop where
  orderly : w.Orderly
  claimed : w.Claimed
  kept : w.Kept
  serving : w.Serving
  lone : w.network.Lone e
  fitted : w.Fitted fun s => s.validate = .ok s ∧ s.endpoint = e
  unoccupied : w.occupants = []

theorem port_ne_zero {s : Settings} (h : s.validate = .ok s) : s.endpoint.port ≠ 0 := by
  unfold Settings.validate at h
  split at h
  · cases h
  · next hnone =>
    intro hport
    have hzero : s.port = 0 := hport
    unfold Settings.firstInvalid? at hnone
    rw [hzero] at hnone
    split at hnone
    · cases hnone
    · cases hnone

theorem Deal.lone {s : Settings} {q : Request} {r : Reply} (hd : w.Deal s q r w')
    (h : w.network.Lone e) (hq : ∀ e', q = .bind e' → e' = e ∧ e.port ≠ 0) :
    w'.network.Lone e := by
  rcases hd with hb | ℓ | ℓ | hh | ⟨-, -, -, hports, -⟩
  case bound =>
    obtain ⟨rfl, hport⟩ := hq _ rfl
    exact h.bind hport hb
  case unbound => exact h.unbind ℓ
  case quiet => exact h.congr hports
  all_goals exact h

theorem Secluded.blank (terrain : Terrain) : Secluded e (.blank terrain) := by
  have hlock : ∀ i, (World.blank terrain).lock? i = none := fun _ => rfl
  have hcall : ∀ i t, (World.blank terrain).callOn i t = none := fun _ _ => rfl
  constructor
  · exact .blank terrain
  · exact fun _ => rfl
  · exact .blank terrain
  · constructor
    · intro i l h hl; cases (hlock i).symm.trans hl
    · intro i t h hc; cases (hcall i t).symm.trans hc
    · intro f hf; cases hf
  · exact ⟨fun p hp => (List.not_mem_nil hp).elim, fun h => by cases h⟩
  · intro i l hl; cases (hlock i).symm.trans hl
  · rfl

theorem Secluded.happened {ev : Event} (h : Secluded e w)
    (hnew : ∀ s, ev = .newLock s → s.validate = .ok s ∧ s.endpoint = e)
    (he : w.Happened ev w') : Secluded e w' where
  orderly := h.orderly.happened he
  claimed := h.claimed.happened h.unoccupied he
  kept := h.kept.happened h.orderly h.unoccupied he
  serving := h.serving.happened h.kept h.orderly h.unoccupied he
  fitted := h.fitted.happened hnew he
  unoccupied := occupants_happened h.unoccupied he
  lone := by
    rcases he with ⟨ht, hl, hs⟩ | ⟨hh, hp⟩ | ⟨hh, ha⟩ | ⟨ho, -⟩ | ⟨hl, ht, hfree⟩ | ⟨hl⟩ | s | _ |
      ⟨hc⟩ | ⟨x, d⟩ | ⟨⟨hh, hperm⟩⟩
    case threadStep =>
      obtain ⟨hvalid, hend⟩ := h.fitted _ _ hl
      rw [network_settle]
      refine (served_of_serve? hs).deal.lone h.lone fun e' hq => ?_
      exact ⟨(Call.endpoint_of_request hq).trans hend, hend ▸ port_ne_zero hvalid⟩
    case workerStep =>
      rcases (Holder.polled_of_poll? hp).front with ⟨-, -, -, hports⟩ | ⟨_, -, -, -, hports⟩
      · exact (h.lone.unbind _).congr hports
      · exact h.lone.congr hports
    case attendantStep =>
      obtain ⟨a, -, ha⟩ := Holder.attended_of_attend? ha
      exact h.lone.congr ha.ports
    case occupantStep => simp [h.unoccupied] at ho
    case called => exact h.lone.congr (Network.ports_connect hc)
    case done => exact h.lone.congr (deed_ports w x d)
    all_goals exact h.lone

theorem Secluded.congr (h : Secluded e w) {network : Network}
    (hports : network.ports = w.network.ports) : Secluded e { w with network } where
  orderly := h.orderly.congr rfl rfl
  claimed := h.claimed.congr rfl rfl hports
  kept := h.kept.congr rfl rfl rfl
  serving := h.serving.congr rfl rfl rfl
  lone := h.lone.congr hports
  fitted := h.fitted
  unoccupied := h.unoccupied

theorem IsHolding.lock (h : w.IsHolding i) : ∃ l k, w.lock? i = some l ∧ l.state = .holding k := by
  have hphase := h.1
  unfold World.phase at hphase
  rcases hl : w.lock? i with _ | l
  · simp [hl] at hphase
  · rcases hs : l.state with _ | _ | _ | k | _
    case holding => exact ⟨l, k, rfl, hs⟩
    all_goals simp [hl, PortLock.phase, hs, LockState.phase] at hphase

/-- A listener that a holder works on is open. -/
theorem Claimed.isListening {k : HolderId} {f : Front} (h : w.Claimed)
    (hf : w.fronts[k]? = some f) (hw : f.worker ≠ .gone) :
    w.network.isListening f.listener = true := by
  have hone : Front.claims f.listener f = 1 := if_pos ⟨rfl, hw⟩
  have hle := le_total (f := Front.claims f.listener) hf
  have hclaims := h f.listener
  unfold claims at hclaims
  rcases hlis : w.network.isListening f.listener with _ | _
  · simp only [hlis, Bool.toNat_false] at hclaims
    omega
  · rfl

/-- Two holders do not work on one listener. -/
theorem Claimed.front_unique {k k' : HolderId} {f f' : Front} (h : w.Claimed)
    (hf : w.fronts[k]? = some f) (hf' : w.fronts[k']? = some f') (hw : f.worker ≠ .gone)
    (hw' : f'.worker ≠ .gone) (heq : f'.listener = f.listener) : k = k' := by
  by_cases hk : k = k'
  · exact hk
  · have hone : Front.claims f.listener f = 1 := if_pos ⟨rfl, hw⟩
    have hone' : Front.claims f.listener f' = 1 := if_pos ⟨heq, hw'⟩
    have hpair := pair_le_total (f := Front.claims f.listener) hf hf' hk
    have hclaims := h f.listener
    have hbit := Bool.toNat_le (w.network.isListening f.listener)
    unfold claims at hclaims
    omega

theorem Secluded.ownsListener (h : Secluded e w) (hi : w.IsHolding i) :
    ∃ ℓ, w.OwnsListener i ℓ := by
  obtain ⟨l, k, hl, hs⟩ := hi.lock
  obtain ⟨f, hf, hstop⟩ := h.serving.lock hl hs hi.2
  have hw := h.serving.alive f (List.mem_of_getElem? hf) hstop
  have hlis := h.claimed.isListening hf hw
  obtain ⟨holder, hh, rfl⟩ := Option.map_eq_some_iff.mp ((List.getElem?_map ..).symm.trans hf)
  exact ⟨_, l, k, holder, hl, hs, hh, hw, rfl, hlis⟩

theorem Secluded.owner_unique {ℓ ℓ' : ListenerId} (h : Secluded e w) (hi : w.OwnsListener i ℓ)
    (hj : w.OwnsListener j ℓ') : i = j := by
  obtain ⟨l, k, holder, hl, hs, hh, hw, rfl, hlis⟩ := hi
  obtain ⟨l', k', holder', hl', hs', hh', hw', rfl, hlis'⟩ := hj
  have hk : k = k' := h.claimed.front_unique (fronts_getElem? hh) (fronts_getElem? hh') hw hw'
    (h.lone.one_open hlis' hlis)
  exact h.kept.lock_unique hl hl' hs (hk ▸ hs')

end World

namespace Annals

variable {A A' : Annals} {e : Endpoint}

/-- One lock at most holds the port, and one thread at most is inside. -/
structure Exclusive (A : Annals) (e : Endpoint) : Prop where
  one_holding : ∀ i j, A.world.IsHolding i → A.world.IsHolding j → i = j
  /-- The lock that holds the port owns the open listener at the endpoint, and no other is open. -/
  owns_listener : ∀ i, A.world.IsHolding i → ∃ ℓ, A.world.OwnsListener i ℓ ∧
    A.world.network.ports[ℓ]? = some (e, true) ∧
    ∀ ℓ', A.world.network.isListening ℓ' = true → ℓ' = ℓ
  /-- This counts the locks that are being dropped too. -/
  one_owner : ∀ i j ℓ ℓ', A.world.OwnsListener i ℓ → A.world.OwnsListener j ℓ' → i = j
  one_inside : ∀ t t' i j, A.Inside t i → A.Inside t' j → t = t' ∧ i = j
  inside_holding : ∀ t i, A.Inside t i → A.world.IsHolding i

/-- What the annals of locks at one endpoint keep. -/
structure Kept (e : Endpoint) (A : Annals) : Prop where
  secluded : World.Secluded e A.world
  fits : A.ledger.Fits A.world

theorem Kept.blank (terrain : Terrain) : Kept e (.blank terrain) where
  secluded := .blank terrain
  fits := ⟨fun hl => (Option.some_ne_none _ hl.symm).elim, fun _ _ => rfl⟩

theorem Kept.happen? {o : Occurrence} (h : Kept e A)
    (hnew : ∀ s, o = .event (.newLock s) → s.validate = .ok s ∧ s.endpoint = e)
    (ho : A.happen? o = some A') : Kept e A' := by
  rcases o with ev | network
  · obtain ⟨w', hw', rfl⟩ := Option.map_eq_some_iff.mp ho
    have he := World.happened_of_happen? hw'
    exact ⟨h.secluded.happened (fun s hs => hnew s (by rw [hs])) he,
      h.fits.happened h.secluded.orderly he⟩
  · obtain ⟨hports, ho⟩ := Option.ite_none_right_eq_some.mp ho
    cases ho
    exact ⟨h.secluded.congr hports, h.fits.congr rfl rfl⟩

/-- Who is inside is entered with a hold, and the lock with a holder. -/
theorem Kept.inside {t : ThreadId} {i : LockId} (h : Kept e A) (ht : A.Inside t i) :
    A.world.IsHolding i ∧ ∃ l, A.world.lock? i = some l ∧ l.gate.owner = some t := by
  have hopen : ¬ (A.world.lock? i = none ∨ A.world.IsRetiring i) := by
    intro hclosed
    have hempty := h.fits.closed hclosed t
    unfold Inside at ht
    rw [hempty] at ht
    cases ht
  rcases hl : A.world.lock? i with _ | l
  · exact absurd (.inl hl) hopen
  · have hret : ¬ A.world.IsRetiring i := fun hr => hopen (.inr hr)
    have hbooks := h.fits.books hl hret t
    obtain ⟨hdepth, k, hs⟩ := hbooks.bound ht
    refine ⟨⟨?_, hret⟩, l, rfl, hbooks.owner hdepth⟩
    unfold World.phase
    simp [hl, PortLock.phase, hs, LockState.phase]

theorem Kept.exclusive (h : Kept e A) : A.Exclusive e where
  one_holding i j hi hj := by
    obtain ⟨ℓ, hℓ⟩ := h.secluded.ownsListener hi
    obtain ⟨ℓ', hℓ'⟩ := h.secluded.ownsListener hj
    exact h.secluded.owner_unique hℓ hℓ'
  owns_listener i hi := by
    obtain ⟨ℓ, hℓ⟩ := h.secluded.ownsListener hi
    obtain ⟨-, -, -, -, -, -, -, -, hlis⟩ := id hℓ
    refine ⟨ℓ, hℓ, ?_, fun ℓ' hℓ' => h.secluded.lone.one_open hℓ' hlis⟩
    unfold Network.isListening at hlis
    rcases hp : A.world.network.ports[ℓ]? with _ | ⟨place, isOpen⟩
    · simp [hp] at hlis
    · have hplace : place = e := h.secluded.lone.place _ (List.mem_of_getElem? hp)
      have hopen : isOpen = true := by simpa [hp] using hlis
      rw [hplace, hopen]
  one_owner i j ℓ ℓ' hi hj := h.secluded.owner_unique hi hj
  one_inside t t' i j ht ht' := by
    obtain ⟨hi, l, hl, ho⟩ := h.inside ht
    obtain ⟨hj, l', hl', ho'⟩ := h.inside ht'
    obtain ⟨ℓ, hℓ⟩ := h.secluded.ownsListener hi
    obtain ⟨ℓ', hℓ'⟩ := h.secluded.ownsListener hj
    have hij := h.secluded.owner_unique hℓ hℓ'
    obtain rfl := Option.some.inj (hl.symm.trans (hij ▸ hl'))
    exact ⟨Option.some.inj (ho.symm.trans ho'), hij⟩
  inside_holding t i ht := (h.inside ht).1

/-- Locks at one endpoint exclude each other, whatever calls are made on them and however they
interleave, and whatever else the network does. -/
theorem mutual_exclusion {terrain : Terrain} {os : List Occurrence}
    (hlocks : ∀ s, .event (.newLock s) ∈ os → s.validate = .ok s ∧ s.endpoint = e)
    (hrun : (Annals.blank terrain).run? os = some A) : A.Exclusive e := by
  have hkept : Kept e A := by
    refine foldlM_invariant (fun A o A' ho hA hA' => ?_) (Kept.blank terrain) hrun
    exact hA.happen? (fun s hs => hlocks s (hs ▸ ho)) hA'
  exact hkept.exclusive

/-- Two locks at one endpoint, with different policies: a thread acquires the first, and another one
finds the port taken. -/
def encounter : List Event :=
  [.newLock {}, .newLock { onVanished := .assume }, .newThread, .newThread,
    .begins 0 0 .acquire] ++ List.replicate 6 (.step (.thread 0) .plain) ++
  [.begins 1 1 .acquire] ++ List.replicate 4 (.step (.thread 1) .plain)

theorem exclusive_encounter :
    ∃ A, (Annals.blank .usual).run? (encounter.map .event) = some A ∧ A.Inside 0 0 ∧
      A.Exclusive ({} : Settings).endpoint := by
  have hsome : ((Annals.blank .usual).run? (encounter.map .event)).isSome = true := by
    decide +kernel
  have hbound : (((Annals.blank .usual).run? (encounter.map .event)).map
      fun A => (A.ledger 0 0).bound) = some true := by decide +kernel
  obtain ⟨A, hA⟩ := Option.isSome_iff_exists.mp hsome
  refine ⟨A, hA, ?_, mutual_exclusion (fun s hs => ?_) hA⟩
  · rw [hA] at hbound
    exact Option.some.inj hbound
  · have hnew : s = {} ∨ s = { onVanished := .assume } := by
      simpa [encounter] using hs
    rcases hnew with rfl | rfl <;> exact ⟨rfl, rfl⟩

end Annals

end LoopbackLock
