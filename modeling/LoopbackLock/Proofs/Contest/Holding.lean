import LoopbackLock.Proofs.Contest.Incident
import LoopbackLock.Proofs.Lock.Taking
import LoopbackLock.Proofs.World.Cooperation
import LoopbackLock.Proofs.World.Exclusion
import LoopbackLock.Proofs.World.Minding

/-!
# What contestants hold

A contestant holds its lock, with the port, from the end of a call that took it to the beginning of
the one that gives it back, and holds nothing at any other time (`Play.Fits`). Whatever happens in a
contest keeps it so (`Sound.befell`). So no two contestants are inside at once (`Sound.one_inside`),
and when a contest is over nobody holds anything (`Sound.over`).
-/

namespace LoopbackLock

/-! ## Calls and tenures -/

/-- What a thread has of a lock that it holds once, with the port. -/
def Tenure.held : Tenure := Tenure.acquire {} .bound

/-- The thread is in no call. -/
def Activity.IsFree (a : Activity) : Prop := ∃ last, a = .free last

/-- What a contestant's thread does, and what it has of the lock, where the contestant stands. -/
def Play.Fits (i : LockId) (a : Activity) (T : Tenure) : Play → Prop
  | ready | done => a.IsFree ∧ T = {}
  | calling =>
    (∃ c, a = .busy i c ∧ c.IsTaking) ∧ T = {} ∨
      a = .free (some (.acquired .bound)) ∧ T = .held ∨
      (∃ why, a = .free (some (.failed why))) ∧ T = {}
  | reading | resting _ | writing _ | leaving => a.IsFree ∧ T = .held
  | returning => (a.IsFree ∨ ∃ c, a = .busy i c ∧ c.IsReturning) ∧ T = {}

namespace Play

variable {p : Play} {i j : LockId} {a : Activity} {T : Tenure} {l : PortLock} {t : ThreadId}
variable {call : Call} {r : Reply}

/-- A contestant's thread is in a call only on the contestant's lock, and never drops it. -/
theorem Fits.busy (h : p.Fits i (.busy j call) T) : j = i ∧ call.isDrop = false := by
  cases p
  case calling =>
    rcases h with ⟨⟨c, heq, hc⟩, -⟩ | ⟨heq, -⟩ | ⟨⟨_, heq⟩, -⟩ <;> cases heq
    exact ⟨rfl, hc.not_isDrop⟩
  case returning =>
    rcases h with ⟨⟨_, heq⟩ | ⟨c, heq, hc⟩, -⟩ <;> cases heq
    exact ⟨rfl, hc.not_isDrop⟩
  all_goals
    obtain ⟨⟨_, heq⟩, -⟩ := h
    cases heq

/-- A step of the call leads to what fits where the contestant stands. -/
theorem Fits.step (h : p.Fits i (.busy j call) T) (hg : l.Gated) (hb : l.Books t T (some call))
    (hrebind : l.settings.onVanished = .rebind) :
    p.Fits i ((l.step t call r).2.activity i) ((l.step t call r).2.tenure T) := by
  cases p
  case calling =>
    rcases h with ⟨⟨c, heq, hc⟩, rfl⟩ | ⟨heq, -⟩ | ⟨⟨_, heq⟩, -⟩ <;> cases heq
    rcases hc.step (r := r) hg hb hrebind with ⟨c', hp, hc'⟩ | hp | ⟨why, hp⟩ <;> rw [hp]
    · exact .inl ⟨⟨c', rfl, hc'⟩, rfl⟩
    · exact .inr (.inl ⟨rfl, rfl⟩)
    · exact .inr (.inr ⟨⟨why, rfl⟩, rfl⟩)
  case returning =>
    rcases h with ⟨⟨_, heq⟩ | ⟨c, heq, hc⟩, rfl⟩ <;> cases heq
    rcases hc.step (l := l) (t := t) (r := r) with ⟨c', hp, hc'⟩ | hp <;> rw [hp]
    · exact ⟨.inr ⟨c', rfl, hc'⟩, rfl⟩
    · exact ⟨.inl ⟨_, rfl⟩, rfl⟩
  all_goals
    obtain ⟨⟨_, heq⟩, -⟩ := h
    cases heq

end Play

/-! ## Worlds of contests -/

namespace World

variable {w w' : World} {e : Endpoint} {L : Ledger} {ev : Event}

/-- The locks of a world are at one endpoint and have the policy to rebind, and nothing is wrong
with the calls made on them. -/
structure Audited (e : Endpoint) (L : Ledger) (w : World) : Prop where
  kept : Annals.Kept e ⟨w, L⟩
  minded : w.Minded
  rebinds : w.Fitted (·.onVanished = .rebind)

theorem Audited.blank (e : Endpoint) (terrain : Terrain) :
    (World.blank terrain).Audited e fun _ _ => {} where
  kept := .blank terrain
  minded := .blank terrain
  rebinds _ _ hl := by cases hl

theorem Audited.happened (h : w.Audited e L)
    (hnew : ∀ s, ev = .newLock s → s.validate = .ok s ∧ s.endpoint = e ∧ s.onVanished = .rebind)
    (he : w.happen? ev = some w') : w'.Audited e (L.after w ev w') where
  kept := by
    have hstep : (Annals.mk w L).happen? (.event ev) = some ⟨w', L.after w ev w'⟩ := by
      simp [Annals.happen?, he]
    refine h.kept.happen? (fun s heq => ?_) hstep
    cases heq
    obtain ⟨hvalid, hend, -⟩ := hnew s rfl
    exact ⟨hvalid, hend⟩
  minded :=
    h.minded.happened h.kept.secluded.kept h.kept.secluded.orderly h.kept.secluded.unoccupied
      (happened_of_happen? he)
  rebinds := h.rebinds.happened (fun s hs => (hnew s hs).2.2) (happened_of_happen? he)

theorem Audited.upheaval {network : Network} (h : w.Audited e L)
    (hports : network.ports = w.network.ports) : ({ w with network } : World).Audited e L where
  kept := ⟨h.kept.secluded.congr hports, h.kept.fits.congr rfl rfl⟩
  minded := ⟨h.minded.keeper, h.minded.joined⟩
  rebinds := h.rebinds

/-- New locks and threads have nothing to be audited. -/
theorem Audited.made (h : w.Audited e L) (settings : List Settings) (threads : Nat)
    (hnew : ∀ s ∈ settings, s.validate = .ok s ∧ s.endpoint = e ∧ s.onVanished = .rebind) :
    ({ w with
      locks := w.locks ++ settings.map fun s => some { settings := s }
      threads := w.threads ++ List.replicate threads (.free none) } : World).Audited e L := by
  induction settings generalizing w with
  | nil =>
    induction threads generalizing w with
    | zero => simpa using h
    | succ n ih =>
      have hone := h.happened (by rintro _ ⟨⟩) (show w.happen? .newThread = some _ from rfl)
      simpa [List.replicate_succ] using ih hone
  | cons s settings ih =>
    have hone := h.happened (by rintro _ ⟨⟩; exact hnew s List.mem_cons_self)
      (show w.happen? (.newLock s) = some _ from rfl)
    simpa using ih hone fun s' hs' => hnew s' (List.mem_cons_of_mem s hs')

/-- A lock that changes is still there. -/
theorem slots_set {i : LockId} {l : PortLock} (hl : w.lock? i = some l) (l' : PortLock) :
    (w.locks.set i (some l')).map Option.isSome = w.locks.map Option.isSome := by
  have hi := getElem?_of_lock? hl
  refine List.ext_getElem? fun j => ?_
  rw [List.getElem?_map, List.getElem?_map, getElem?_set_some hi]
  split
  · next hji =>
    rw [hji, hi]
    rfl
  · rfl

/-- Where no call is under way and nobody has anything of a lock, every lock is idle and its gate
open. -/
theorem Audited.idle {i : LockId} {l : PortLock} (h : w.Audited e L)
    (hfree : ∀ a ∈ w.threads, a.IsFree) (hL : ∀ t i, L t i = {}) (hl : w.lock? i = some l) :
    l.state = .idle ∧ l.gate.owner = none ∧ l.gate.holds = 0 := by
  have hgated := h.kept.secluded.orderly.gated hl
  have hcall : ∀ t, w.callOn i t = none := by
    intro t
    rcases hc : w.callOn i t with _ | c
    · rfl
    · obtain ⟨_, heq⟩ := hfree _ (List.mem_of_getElem? (callOn_eq_some.mp hc))
      cases heq
  have hret : ¬ w.IsRetiring i := by
    rintro ⟨t, c, hc, -⟩
    cases (hcall t).symm.trans hc
  have howner : l.gate.owner = none := by
    rcases ho : l.gate.owner with _ | t
    · rfl
    · have hbooks : l.Books t (L t i) (w.callOn i t) := h.kept.fits.books hl hret t
      rw [hcall, hL] at hbooks
      have hcounts : 0 = l.gate.holdsOf t := hbooks.counts
      have hpos := hgated.holds_pos t ho
      unfold Gate.holdsOf at hcounts
      rw [if_pos ho] at hcounts
      omega
  exact ⟨hgated.idle_of_open howner, howner, hgated.holds_of_open howner⟩

/-- Then no listener is left open either. -/
theorem Audited.closed (h : w.Audited e L) (hfree : ∀ a ∈ w.threads, a.IsFree)
    (hL : ∀ t i, L t i = {}) (ℓ : ListenerId) : w.network.isListening ℓ = false := by
  have hthreads : ∀ {f : Activity → Nat}, (∀ last, f (.free last) = 0) → total f w.threads = 0 :=
    fun hf => total_eq_zero fun a ha => by
      obtain ⟨last, rfl⟩ := hfree a ha
      exact hf last
  have hkeepers : ∀ k, w.keepers k = 0 := by
    intro k
    have hlocks : total (slotKeeps k) w.locks = 0 := by
      refine total_eq_zero fun slot hslot => ?_
      rcases slot with _ | l
      · rfl
      · obtain ⟨i, hi⟩ := List.getElem?_of_mem hslot
        have hl : w.lock? i = some l := by unfold World.lock?; rw [hi]; rfl
        simp [slotKeeps, (h.idle hfree hL hl).1, LockState.holder?]
    unfold keepers
    rw [hlocks, hthreads fun _ => rfl]
  have hfronts : total (Front.claims ℓ) w.fronts = 0 := by
    refine total_eq_zero fun f hf => if_neg ?_
    rintro ⟨-, hworks⟩
    obtain ⟨k, hk⟩ := List.getElem?_of_mem hf
    have hkeeper := h.minded.keeper k ⟨f, hk, hworks⟩
    rw [hkeepers] at hkeeper
    omega
  have hclaims : w.claims ℓ = (w.network.isListening ℓ).toNat := h.kept.secluded.claimed ℓ
  unfold claims at hclaims
  rw [hfronts, hthreads fun _ => rfl] at hclaims
  rcases hlis : w.network.isListening ℓ with _ | _
  · rfl
  · rw [hlis] at hclaims
    cases hclaims

end World

namespace Contest

variable {e : Endpoint} {L L' : Ledger} {c c' : Contest} {t t' : ThreadId} {i : LockId}
variable {k : Contestant} {chance : Chance} {g : Contestant → Contestant} {w' : World}

/-- The contestants hold what their play has them hold, and nobody else holds anything. -/
structure Sound (e : Endpoint) (L : Ledger) (c : Contest) : Prop where
  audited : c.world.Audited e L
  seats : c.world.threads.length = c.contestants.length
  plays : ∀ (t : ThreadId) (k : Contestant) (a : Activity), c.contestants[t]? = some k →
    c.world.threads[t]? = some a → k.play.Fits k.lock a (L t k.lock)
  elsewhere : ∀ (t : ThreadId) (i : LockId),
    (∀ k : Contestant, c.contestants[t]? = some k → k.lock ≠ i) → L t i = {}

/-- What a thread is about fits where its contestant stands. -/
theorem Sound.seat {a : Activity} (h : c.Sound e L) (ht : c.world.threads[t]? = some a) :
    ∃ k, c.contestants[t]? = some k ∧ k.play.Fits k.lock a (L t k.lock) := by
  have hlt : t < c.contestants.length := h.seats ▸ (List.getElem?_eq_some_iff.mp ht).1
  have hk : c.contestants[t]? = some c.contestants[t] := List.getElem?_eq_getElem hlt
  exact ⟨_, hk, h.plays t _ a hk ht⟩

/-- The thread of a contestant is there. -/
theorem Sound.thread (h : c.Sound e L) (hk : c.contestants[t]? = some k) :
    ∃ a, c.world.threads[t]? = some a ∧ k.play.Fits k.lock a (L t k.lock) := by
  have hlt : t < c.world.threads.length := h.seats.symm ▸ (List.getElem?_eq_some_iff.mp hk).1
  have ht : c.world.threads[t]? = some c.world.threads[t] := List.getElem?_eq_getElem hlt
  exact ⟨_, ht, h.plays t k _ hk ht⟩

/-- No lock of a contest is dropped. -/
theorem Sound.not_isRetiring (h : c.Sound e L) : ¬ c.world.IsRetiring i := by
  rintro ⟨t, call, hc, hd⟩
  obtain ⟨k, -, hfits⟩ := h.seat (World.callOn_eq_some.mp hc)
  rw [hfits.busy.2] at hd
  cases hd

/-- Something happens that concerns one contestant. -/
theorem Sound.change (h : c.Sound e L) (hk : c.contestants[t]? = some k)
    (haudited : c'.world.Audited e L') (hcontestants : c'.contestants = c.contestants.modify t g)
    (hlock : ∀ k, (g k).lock = k.lock)
    (hlen : c'.world.threads.length = c.world.threads.length)
    (hthreads : ∀ t', t' ≠ t → c'.world.threads[t']? = c.world.threads[t']?)
    (hledger : ∀ t' i, ¬ (t' = t ∧ i = k.lock) → L' t' i = L t' i)
    (hplay : ∀ a, c'.world.threads[t]? = some a → (g k).play.Fits k.lock a (L' t k.lock)) :
    c'.Sound e L' where
  audited := haudited
  seats := by rw [hlen, h.seats, hcontestants, List.length_modify]
  plays t' k' a hk' ht' := by
    rw [hcontestants] at hk'
    rcases getElem?_modify_cases hk hk' with ⟨rfl, rfl⟩ | ⟨hne, hk'⟩
    · rw [hlock]
      exact hplay a ht'
    · rw [hledger t' k'.lock fun heq => hne heq.1]
      exact h.plays t' k' a hk' (hthreads t' hne ▸ ht')
  elsewhere t' i hi := by
    have hold : ∀ k, c.contestants[t']? = some k → k.lock ≠ i := by
      intro k₀ hk₀
      have hnew := hi (if t = t' then g k₀ else k₀) (by
        rw [hcontestants, List.getElem?_modify, hk₀]
        rfl)
      split at hnew
      · rwa [hlock] at hnew
      · exact hnew
    rw [hledger t' i fun ⟨htt, heq⟩ => hold k (htt ▸ hk) heq.symm]
    exact h.elsewhere t' i hold

/-- Something happens that concerns no contestant. -/
theorem Sound.aside (h : c.Sound e L) (haudited : w'.Audited e L)
    (hthreads : w'.threads = c.world.threads) : Sound e L { c with world := w' } :=
  ⟨haudited, by rw [hthreads]; exact h.seats, by rw [hthreads]; exact h.plays, h.elsewhere⟩

/-- A contestant comes to stand elsewhere, and nothing else happens. -/
theorem Sound.put {a : Activity} (h : c.Sound e L) (hk : c.contestants[t]? = some k)
    (ha : c.world.threads[t]? = some a) (hworld : c'.world = c.world)
    (hcontestants : c'.contestants = c.contestants.modify t g) (hlock : ∀ k, (g k).lock = k.lock)
    (hplay : (g k).play.Fits k.lock a (L t k.lock)) : c'.Sound e L := by
  refine h.change hk (hworld ▸ h.audited) hcontestants hlock (by rw [hworld])
    (fun _ _ => by rw [hworld]) (fun _ _ _ => rfl) fun a' ha' => ?_
  rw [hworld] at ha'
  rwa [← Option.some.inj (ha.symm.trans ha')]

/-! ## Incidents -/

/-- A thread makes a step of its call. -/
theorem Sound.threadStep (h : c.Sound e L)
    (he : c.world.happen? (.step (.thread t) chance) = some w') :
    ∃ L', Sound e L' { c with world := w' } := by
  have haudited := h.audited.happened (by rintro _ ⟨⟩) he
  obtain ⟨i, call, l, r, w₁, ht, hl, hs, rfl⟩ := World.stepThread?_eq_some he
  obtain ⟨k, hk, hfits⟩ := h.seat ht
  obtain ⟨rfl, -⟩ := hfits.busy
  have hlt := (List.getElem?_eq_some_iff.mp ht).1
  have hthreads := (World.served_of_serve? hs).threads
  have hset : (w₁.settle t k.lock (l.step t call r).1 (l.step t call r).2).threads =
      c.world.threads.set t ((l.step t call r).2.activity k.lock) := by
    rw [World.settle_eq, ← hthreads]
  rw [Ledger.after_threadStep ht (hthreads ▸ hlt)] at haudited
  refine ⟨_, h.change (g := id) hk haudited (List.modify_id ..).symm (fun _ => rfl) ?_ ?_
    (fun _ _ => Ledger.put_of_ne) fun a ha => ?_⟩
  · rw [hset, List.length_set]
  · intro t' hne
    rw [hset, List.getElem?_set_ne (Ne.symm hne)]
  · rw [hset, List.getElem?_set_self hlt] at ha
    cases ha
    rw [Ledger.put_same]
    have hbooks := h.audited.kept.fits.books hl h.not_isRetiring t
    rw [World.callOn_eq_some.mpr ht] at hbooks
    exact hfits.step (h.audited.kept.secluded.orderly.gated hl) hbooks (h.audited.rebinds _ _ hl)

/-- A contestant begins a call on its lock. -/
theorem Sound.begun {kind : CallKind} {play : Play} {T : Tenure} (h : c.Sound e L)
    (hk : c.contestants[t]? = some k) (hw : c.world.begin? t k.lock kind = some w')
    (hafter : L.after c.world (.begins t k.lock kind) w' = L.put t k.lock T)
    (hfits : play.Fits k.lock (.busy k.lock kind.call) T) :
    Sound e (L.put t k.lock T) { c.put t play with world := w' } := by
  have haudited := h.audited.happened (by rintro _ ⟨⟩)
    (show c.world.happen? (.begins t k.lock kind) = some w' from hw)
  rw [hafter] at haudited
  obtain ⟨-, ⟨last, ht⟩, -, rfl⟩ := World.begin?_eq_some hw
  refine h.change hk haudited rfl (fun _ => rfl) (List.length_set ..)
    (fun t' hne => List.getElem?_set_ne (Ne.symm hne)) (fun _ _ => Ledger.put_of_ne) fun a ha => ?_
  have hnew := List.getElem?_set_self (a := Activity.busy k.lock kind.call)
    (List.getElem?_eq_some_iff.mp ht).1
  obtain rfl := Option.some.inj (hnew.symm.trans ha)
  rw [Ledger.put_same]
  exact hfits

/-- A contestant makes a step. -/
theorem Sound.moved (h : c.Sound e L) (hm : c.Moved t c') : ∃ L', Sound e L' c' := by
  rcases hm with ⟨hk, hplay, -⟩ | ⟨hk, hplay, -, hw⟩ | ⟨hk, hplay, ht⟩ | ⟨hk, hplay⟩ | ⟨hk, hplay⟩ |
    ⟨hk, hplay⟩ | ⟨hk, hplay, hw⟩ | ⟨hk, hplay, ht⟩
  all_goals
    obtain ⟨a, ha, hfits⟩ := h.thread hk
    rw [hplay] at hfits
  case called =>
    exact ⟨_, h.begun hk hw Ledger.put_self.symm (.inl ⟨⟨_, rfl, trivial⟩, hfits.2⟩)⟩
  case left k w' =>
    have hgone : (L t k.lock).release = {} := by rw [hfits.2]; rfl
    exact ⟨_, h.begun hk hw rfl ⟨.inr ⟨_, rfl, trivial⟩, hgone⟩⟩
  case judged k last =>
    obtain rfl := Option.some.inj (ht.symm.trans ha)
    rcases hfits with ⟨⟨_, heq, -⟩, -⟩ | ⟨heq, hT⟩ | ⟨⟨why, heq⟩, hT⟩ <;> cases heq
    · exact ⟨L, h.put hk ha rfl rfl (fun _ => rfl) ⟨⟨_, rfl⟩, hT⟩⟩
    · exact ⟨L, h.put hk ha rfl rfl (fun _ => rfl) ⟨⟨_, rfl⟩, hT⟩⟩
  case returned k last =>
    obtain rfl := Option.some.inj (ht.symm.trans ha)
    exact ⟨L, h.put hk ha rfl rfl (fun _ => rfl) ⟨⟨_, rfl⟩, hfits.2⟩⟩
  all_goals exact ⟨L, h.put hk ha rfl rfl (fun _ => rfl) hfits⟩

/-- Whatever happens, contestants hold what their play has them hold. -/
theorem Sound.befell (h : c.Sound e L) (hb : c.Befell c') : ∃ L', Sound e L' c' := by
  rcases hb with @⟨a, chance, world, he⟩ | @⟨t, i, world, he⟩ | he | ⟨hports, -⟩ | hm
  case acted =>
    have haudited := h.audited.happened (by rintro _ ⟨⟩) he
    rcases World.happened_of_happen? he with ⟨ht, hl, hs⟩ | ⟨hh, hp⟩ | ⟨hh, ha⟩ | ⟨ho, -⟩
    case threadStep => exact h.threadStep he
    case occupantStep =>
      have hnone : c.world.occupants = [] := h.audited.kept.secluded.unoccupied
      rw [hnone] at ho
      cases ho
    all_goals exact ⟨L, h.aside haudited rfl⟩
  case stirred =>
    have haudited := h.audited.happened (by rintro _ ⟨⟩) he
    obtain ⟨l, -, he⟩ := Option.bind_eq_some_iff.mp he
    cases he
    exact ⟨L, h.aside haudited rfl⟩
  case shuffled =>
    have haudited := h.audited.happened (by rintro _ ⟨⟩) he
    obtain ⟨holder, -, he⟩ := Option.bind_eq_some_iff.mp he
    cases he
    exact ⟨L, h.aside haudited rfl⟩
  case upset => exact ⟨L, h.aside (h.audited.upheaval hports) rfl⟩
  case moved => exact h.moved hm

/-- No terrain changes during a contest. -/
theorem Sound.terrain (h : c.Sound e L) (hb : c.Befell c') :
    c'.world.network.terrain = c.world.network.terrain := by
  have hocc : c.world.occupants = [] := h.audited.kept.secluded.unoccupied
  rcases hb with he | he | he | ⟨-, hterrain⟩ | hm
  case acted | stirred | shuffled =>
    exact World.terrain_happened hocc (World.happened_of_happen? he)
  case upset => exact hterrain
  case moved =>
    obtain ⟨_, hw⟩ := hm.world
    rw [hw]

/-- The locks of a contest stay. -/
theorem Sound.locks (h : c.Sound e L) (hb : c.Befell c') :
    c'.world.locks.map Option.isSome = c.world.locks.map Option.isSome := by
  rcases hb with @⟨a, chance, world, he⟩ | @⟨t, i, world, he⟩ | he | ⟨-, -⟩ | hm
  case acted =>
    rcases World.happened_of_happen? he with ⟨ht, hl, hs⟩ | ⟨hh, hp⟩ | ⟨hh, ha⟩ | ⟨ho, hs⟩
    case threadStep t i call l r w₁ =>
      obtain ⟨k, -, hfits⟩ := h.seat ht
      obtain ⟨l', hl'⟩ := Progress.slot_of_not_isDrop (l := (l.step t call r).1)
        ((PortLock.isDrop_step l t call r).trans hfits.busy.2)
      show (w₁.settle t i _ _).locks.map _ = _
      rw [World.settle_eq]
      show (w₁.locks.set i _).map _ = _
      rw [hl', (World.served_of_serve? hs).locks]
      exact World.slots_set hl l'
    case occupantStep =>
      obtain ⟨_, _, rfl⟩ := World.stepOccupant?_eq_some hs
      rfl
    all_goals rfl
  case stirred =>
    obtain ⟨l, hl, he⟩ := Option.bind_eq_some_iff.mp he
    cases he
    exact World.slots_set hl _
  case shuffled =>
    obtain ⟨holder, -, he⟩ := Option.bind_eq_some_iff.mp he
    cases he
    rfl
  case upset => rfl
  case moved =>
    obtain ⟨_, hw⟩ := hm.world
    rw [hw]

/-! ## Who is inside, and what is left -/

/-- Who is inside has the lock, with the port. -/
theorem Sound.inside (h : c.Sound e L) (hi : c.IsInside t) :
    ∃ k, c.contestants[t]? = some k ∧ L t k.lock = .held := by
  obtain ⟨k, hk, hi⟩ := hi
  obtain ⟨a, ha, hfits⟩ := h.thread hk
  refine ⟨k, hk, ?_⟩
  rcases hplay : k.play with _ | _ | _ | _ | _ | _ | _ | _ <;> rw [hplay] at hi hfits
  case ready | returning | done => exact hi.elim
  case calling =>
    obtain ⟨how, ht⟩ := hi
    obtain rfl := Option.some.inj (ha.symm.trans ht)
    rcases hfits with ⟨⟨_, heq, -⟩, -⟩ | ⟨-, hT⟩ | ⟨⟨_, heq⟩, -⟩
    · cases heq
    · exact hT
    · cases heq
  all_goals exact hfits.2

/-- Two contestants are not inside at once, whichever locks they have. -/
theorem Sound.one_inside (h : c.Sound e L) (hi : c.IsInside t) (hi' : c.IsInside t') : t = t' := by
  obtain ⟨k, -, hT⟩ := h.inside hi
  obtain ⟨k', -, hT'⟩ := h.inside hi'
  have hbound : (L t k.lock).bound = true := by rw [hT]; rfl
  have hbound' : (L t' k'.lock).bound = true := by rw [hT']; rfl
  exact (h.audited.kept.exclusive.one_inside t t' k.lock k'.lock hbound hbound').1

/-- When a contest is over, nobody is in a call or has anything of a lock. -/
theorem Sound.over (h : c.Sound e L) (hover : c.isOver = true) :
    (∀ a ∈ c.world.threads, a.IsFree) ∧ ∀ t i, L t i = {} := by
  have hdone : ∀ {t} {k : Contestant}, c.contestants[t]? = some k → k.play = .done := fun hk => by
    simpa using List.all_eq_true.mp hover _ (List.mem_of_getElem? hk)
  constructor
  · intro a ha
    obtain ⟨t, ht⟩ := List.getElem?_of_mem ha
    obtain ⟨k, hk, hfits⟩ := h.seat ht
    rw [hdone hk] at hfits
    exact hfits.1
  · intro t i
    by_cases hk : ∃ k, c.contestants[t]? = some k ∧ k.lock = i
    · obtain ⟨k, hk, rfl⟩ := hk
      obtain ⟨a, -, hfits⟩ := h.thread hk
      rw [hdone hk] at hfits
      exact hfits.2
    · exact h.elsewhere t i fun k hk' hi => hk ⟨k, hk', hi⟩

end Contest

end LoopbackLock
