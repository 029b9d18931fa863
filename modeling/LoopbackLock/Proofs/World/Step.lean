import LoopbackLock.Proofs.Holder.Registry
import LoopbackLock.Proofs.Lock.Custody
import LoopbackLock.Proofs.Network.Ports
import LoopbackLock.World.Event

/-!
# What an event changes

A step of a thread is a request that the system serves and a step of the thread's call with the
reply (`stepThread?_eq_some`). Serving a request leaves the locks and the threads alone
(`serve?_locks`, `serve?_threads`); what the call does with the reply is put into the world by
`settle`.
-/

namespace LoopbackLock

/-- What the thread does after a step of its call on a lock. -/
def Progress.activity (i : LockId) : Progress Call Ending → Activity
  | .going call => .busy i call
  | .over ending => .free (some ending)

namespace World

variable {w w' : World} {t : ThreadId} {i : LockId}

/-- The call of a thread on a lock. -/
def callOn (w : World) (i : LockId) (t : ThreadId) : Option Call :=
  match w.threads[t]? with
  | some (.busy j call) => if j = i then some call else none
  | _ => none

theorem callOn_eq_some {c : Call} :
    w.callOn i t = some c ↔ w.threads[t]? = some (.busy i c) := by
  unfold callOn
  split <;> simp_all

/-! ## Settling -/

theorem settle_eq (w : World) (t : ThreadId) (i : LockId) (lock : PortLock)
    (p : Progress Call Ending) :
    w.settle t i lock p =
      { w with locks := w.locks.set i (p.slot lock), threads := w.threads.set t (p.activity i) } := by
  rcases p with c | e
  · rfl
  · cases e <;> rfl

/-! ## Serving a request -/

/-- What the system may reply to a request, and the world it leaves. -/
inductive Served (w : World) (s : Settings) : Request → Reply → World → Prop
  | nothing : Served w s .nothing .done w
  | chosen (choice : Nat) : Served w s .choose (.chosen choice) w
  | failed (r : Request) (f : Fault) : Served w s r (.failed f) w
  | bound {e : Endpoint} {ℓ : ListenerId} {n : Network} (h : w.network.bind e = .ok (ℓ, n)) :
    Served w s (.bind e) (.bound ℓ) { w with network := n }
  | unblocked (ℓ : ListenerId) : Served w s (.unblock ℓ) .done w
  | founded (ℓ : ListenerId) : Served w s (.found ℓ) (.founded w.holders.length)
      { w with holders := w.holders ++ [Holder.found s ℓ] }
  | unbound (ℓ : ListenerId) :
    Served w s (.unbind ℓ) .done { w with network := w.network.unbind ℓ }
  | connected {e : Endpoint} {limit : UInt64} {x : LinkId} {n : Network}
      (h : w.network.connect (w.network.sourceFor e) e = .ok (x, n)) :
    Served w s (.connect e limit) (.connected x) { w with network := n }
  | limited (x : LinkId) (limit : UInt64) : Served w s (.limit x limit) .done w
  | sent {x : LinkId} {m : Message} {n : Network}
      (h : w.network.write x .caller (Text.encode m.line) = .ok n) :
    Served w s (.send x m) .done { w with network := n }
  | heard {x : LinkId} {limit : UInt64} {chance : Chance} {reply : Reply} {n : Network}
      (h : w.network.hear? x .caller chance = some (reply, n)) :
    Served w s (.read x limit) reply { w with network := n }
  | hungUp (x : LinkId) :
    Served w s (.hangUp x) .done { w with network := w.network.release x .caller }
  | drained {h : HolderId} {holder : Holder} (hh : w.holders[h]? = some holder)
      (hr : holder.registrar = none) :
    Served w s (.drain h) (.drained holder.registry.links)
      (w.setHolder h ({ holder with registry := [] }, w.network))
  | wrote {x : LinkId} {bytes : Bytes} {count : Nat} {n : Network}
      (h : w.network.write x .callee (bytes.take count) = .ok n) :
    Served w s (.write x bytes) (.took (bytes.take count).length) { w with network := n }
  | shut {x : LinkId} {n : Network} (h : w.network.finish x .callee = .ok n) :
    Served w s (.shut x) .done { w with network := n }
  | discarded (x : LinkId) :
    Served w s (.discard x) .done { w with network := w.network.release x .callee }
  | stopped {h : HolderId} {holder : Holder} (hh : w.holders[h]? = some holder) :
    Served w s (.stop h) .done (w.setHolder h ({ holder with stopping := true }, w.network))
  | joined {h : HolderId} {holder : Holder} (hh : w.holders[h]? = some holder)
      (hw : holder.worker = .gone) : Served w s (.join h) .done w
  | abandoned {h : HolderId} {holder : Holder} (hh : w.holders[h]? = some holder) :
    Served w s (.abandon h) .done
      (w.setHolder h (({ holder with kept := false } : Holder).settle w.network))

theorem served_of_serve? {s : Settings} {chance : Chance} {r : Request} {reply : Reply}
    {w₁ : World} (h : w.serve? s chance r = some (reply, w₁)) : w.Served s r reply w₁ := by
  unfold World.serve? at h
  split at h
  case h_1 => cases h; exact .nothing
  case h_2 => split at h <;> cases h <;> exact .chosen _
  case h_3 e =>
    unfold World.bind at h
    split at h
    · cases h; exact .failed _ _
    · split at h
      · next hb => cases h; exact .bound hb
      · cases h; exact .failed _ _
  case h_4 ℓ =>
    unfold World.attempt at h
    split at h
    · cases h; exact .failed _ _
    · cases h; exact .unblocked ℓ
  case h_5 ℓ =>
    split at h
    · cases h; exact .failed _ _
    · cases h; exact .founded ℓ
  case h_6 ℓ => cases h; exact .unbound ℓ
  case h_7 e limit =>
    unfold World.connect at h
    split at h
    · cases h; exact .failed _ _
    · cases h; exact .failed _ _
    · split at h
      · next hc =>
        split at h
        · cases h; exact .failed _ _
        · cases h; exact .connected hc
      · cases h; exact .failed _ _
  case h_8 x limit =>
    unfold World.limit at h
    split at h
    · cases h; exact .failed _ _
    · split at h
      · cases h; exact .failed _ _
      · cases h; exact .limited x limit
  case h_9 x m =>
    unfold World.send at h
    split at h
    · cases h; exact .failed _ _
    · split at h
      · next hw => cases h; exact .sent hw
      · cases h; exact .failed _ _
  case h_10 x limit =>
    obtain ⟨⟨reply', n⟩, hn, heq⟩ := Option.map_eq_some_iff.mp h
    cases heq
    exact .heard hn
  case h_11 x => cases h; exact .hungUp x
  case h_12 h' =>
    obtain ⟨holder, hh, heq⟩ := Option.bind_eq_some_iff.mp h
    split at heq
    · cases heq
    · next hr =>
      cases heq
      exact .drained hh (by simpa using hr)
  case h_13 x bytes =>
    rcases hs : w.network.say x .callee bytes chance with ⟨reply', n⟩
    rw [hs] at h
    cases h
    rcases Network.say_cases hs with ⟨f, rfl, rfl⟩ | ⟨count, rfl, hw⟩
    · exact .failed _ _
    · exact .wrote hw
  case h_14 x =>
    unfold World.shut at h
    split at h
    · cases h; exact .failed _ _
    · split at h
      · next hf => cases h; exact .shut hf
      · cases h; exact .failed _ _
  case h_15 x => cases h; exact .discarded x
  case h_16 h' =>
    obtain ⟨holder, hh, heq⟩ := Option.bind_eq_some_iff.mp h
    cases heq
    exact .stopped hh
  case h_17 h' =>
    obtain ⟨holder, hh, heq⟩ := Option.bind_eq_some_iff.mp h
    split at heq
    · next hw => cases heq; exact .joined hh hw
    · cases heq
  case h_18 h' =>
    obtain ⟨holder, hh, heq⟩ := Option.bind_eq_some_iff.mp h
    cases heq
    exact .abandoned hh

section Served

variable {s : Settings} {r : Request} {reply : Reply} {w₁ : World}

/-- Serving a request changes the network and the holders at most. -/
theorem Served.eq (h : w.Served s r reply w₁) :
    ∃ network holders, w₁ = { w with network, holders } := by
  cases h <;> exact ⟨_, _, rfl⟩

theorem Served.locks (h : w.Served s r reply w₁) : w₁.locks = w.locks := by
  obtain ⟨n, hs, rfl⟩ := h.eq; rfl

theorem Served.threads (h : w.Served s r reply w₁) : w₁.threads = w.threads := by
  obtain ⟨n, hs, rfl⟩ := h.eq; rfl

theorem Served.occupants (h : w.Served s r reply w₁) : w₁.occupants = w.occupants := by
  obtain ⟨n, hs, rfl⟩ := h.eq; rfl

end Served

/-! ## A step of a thread -/

theorem stepThread?_eq_some {chance : Chance} (h : w.stepThread? t chance = some w') :
    ∃ i call lock reply w₁, w.threads[t]? = some (.busy i call) ∧ w.lock? i = some lock ∧
      w.serve? lock.settings chance (call.request lock.settings) = some (reply, w₁) ∧
      w' = w₁.settle t i (lock.step t call reply).1 (lock.step t call reply).2 := by
  unfold World.stepThread? at h
  obtain ⟨activity, ha, h⟩ := Option.bind_eq_some_iff.mp h
  rcases activity with last | ⟨i, call⟩
  · cases h
  obtain ⟨lock, hl, h⟩ := Option.bind_eq_some_iff.mp h
  split at h
  · cases h
  obtain ⟨⟨reply, w₁⟩, hs, h⟩ := Option.bind_eq_some_iff.mp h
  cases h
  exact ⟨i, call, lock, reply, w₁, ha, hl, hs, rfl⟩

/-- The step of a thread that is in a call. -/
theorem stepThread?_busy {chance : Chance} {c : Call} (ht : w.threads[t]? = some (.busy i c))
    (h : w.stepThread? t chance = some w') :
    ∃ l r w₁, w.lock? i = some l ∧
      w.serve? l.settings chance (c.request l.settings) = some (r, w₁) ∧
      w' = w₁.settle t i (l.step t c r).1 (l.step t c r).2 := by
  obtain ⟨i', c', l, r, w₁, ht', hl, hs, rfl⟩ := stepThread?_eq_some h
  cases ht.symm.trans ht'
  exact ⟨l, r, w₁, hl, hs, rfl⟩

/-! ## The locks and the calls on them -/

theorem lock?_set {locks : List (Option PortLock)} {slot : Option PortLock} {j : LockId}
    (hi : i < locks.length) :
    ((locks.set i slot)[j]?).join = if j = i then slot else (locks[j]?).join := by
  rw [List.getElem?_set]
  by_cases hij : i = j
  · subst hij; simp [hi]
  · simp [hij, Ne.symm hij]

theorem lock?_lt {lock : PortLock} (h : w.lock? i = some lock) : i < w.locks.length := by
  unfold World.lock? at h
  rcases hi : w.locks[i]? with _ | slot
  · simp [hi] at h
  · exact (List.getElem?_eq_some_iff.mp hi).1

/-- A step of a thread changes one lock and the calls of one thread. -/
theorem lock?_settle {l : PortLock} (hl : w.lock? i = some l) (t : ThreadId) (l' : PortLock)
    (p : Progress Call Ending) (j : LockId) :
    (w.settle t i l' p).lock? j = if j = i then p.slot l' else w.lock? j := by
  rw [settle_eq]
  exact lock?_set (lock?_lt hl)

theorem callOn_set {a₀ : Activity} (ht : w.threads[t]? = some a₀) (a : Activity) (j : LockId)
    (t' : ThreadId) :
    ({ w with threads := w.threads.set t a } : World).callOn j t' =
      if t' = t then (match a with
        | .busy k call => if k = j then some call else none
        | .free _ => none)
      else w.callOn j t' := by
  unfold callOn
  dsimp only
  rw [getElem?_set_some ht]
  by_cases htt : t' = t
  · rw [if_pos htt, if_pos htt]
    cases a <;> rfl
  · rw [if_neg htt, if_neg htt]

theorem callOn_settle {c : Call} (ht : w.threads[t]? = some (.busy i c)) (l : PortLock)
    (p : Progress Call Ending) (j : LockId) (t' : ThreadId) :
    (w.settle t i l p).callOn j t' =
      if t' = t then (if i = j then p.call? else none) else w.callOn j t' := by
  have h := callOn_set (w := { w with locks := w.locks.set i (p.slot l) }) ht (p.activity i) j t'
  rw [settle_eq]
  refine h.trans ?_
  by_cases htt : t' = t
  · rw [if_pos htt, if_pos htt]
    cases p
    · rfl
    · by_cases hij : i = j
      · rw [if_pos hij]; rfl
      · rw [if_neg hij]; rfl
  · rw [if_neg htt, if_neg htt]; rfl

theorem Served.lock? {s : Settings} {r : Request} {reply : Reply} {w₁ : World}
    (h : w.Served s r reply w₁) (j : LockId) : w₁.lock? j = w.lock? j := by
  unfold World.lock?; rw [h.locks]

theorem Served.callOn {s : Settings} {r : Request} {reply : Reply} {w₁ : World}
    (h : w.Served s r reply w₁) (j : LockId) (t : ThreadId) : w₁.callOn j t = w.callOn j t := by
  unfold World.callOn; rw [h.threads]

/-! ## The other events -/

theorem begin?_eq_some {kind : CallKind} (h : w.begin? t i kind = some w') :
    (∃ lock, w.lock? i = some lock) ∧ (∃ last, w.threads[t]? = some (.free last)) ∧
      (∀ t' call, w.callOn i t' = some call → kind ≠ .drop ∧ call.isDrop = false) ∧
      w' = { w with threads := w.threads.set t (.busy i kind.call) } := by
  unfold World.begin? at h
  obtain ⟨lock, hl, h⟩ := Option.bind_eq_some_iff.mp h
  obtain ⟨activity, ha, h⟩ := Option.bind_eq_some_iff.mp h
  rcases activity with last | ⟨j, call⟩
  · simp only at h
    split at h
    · cases h
    · next hbars =>
      cases h
      refine ⟨⟨lock, hl⟩, ⟨last, ha⟩, fun t' call hc => ?_, rfl⟩
      have hmem := List.mem_of_getElem? (callOn_eq_some.mp hc)
      have := List.any_eq_false.mp (by simpa using hbars) _ hmem
      simpa [World.bars] using this
  · cases h

theorem deed_eq (w : World) (x : LinkId) (d : Deed) :
    ∃ network, w.deed x d = { w with network } := by
  unfold World.deed
  split
  · split <;> exact ⟨_, rfl⟩
  · exact ⟨_, rfl⟩
  · split <;> exact ⟨_, rfl⟩
  · exact ⟨_, rfl⟩

theorem stepOccupant?_eq_some {o : OccupantId} {chance : Chance}
    (h : w.stepOccupant? o chance = some w') :
    ∃ occupants network, w' = { w with occupants, network } := by
  unfold World.stepOccupant? at h
  obtain ⟨occupant, -, h⟩ := Option.bind_eq_some_iff.mp h
  rcases occupant with d | p
  all_goals
    obtain ⟨next, -, h⟩ := Option.bind_eq_some_iff.mp h
    cases h
    exact ⟨_, _, rfl⟩

/-! ## Registries in another order -/

/-- A registry yields the same entries in another order. -/
inductive Shuffles (w : World) : World → Prop
  | mk {h : HolderId} {holder : Holder} {registry : Registry} (hh : w.holders[h]? = some holder)
      (hperm : registry.Perm holder.registry) :
    Shuffles w (w.setHolder h ({ holder with registry }, w.network))

/-- What was told of a holder but for its registry holds of the shuffled one. -/
theorem Shuffles.holder_of {k : HolderId} {holder' : Holder} (hs : w.Shuffles w')
    (hh' : w'.holders[k]? = some holder') :
    ∃ holder registry, w.holders[k]? = some holder ∧ registry.Perm holder.registry ∧
      holder' = { holder with registry } := by
  obtain @⟨h, holder, registry, hh, hperm⟩ := hs
  replace hh' : (w.holders.set h { holder with registry })[k]? = some holder' := hh'
  by_cases hk : h = k
  · subst hk
    rw [List.getElem?_set_self (List.getElem?_eq_some_iff.mp hh).1] at hh'
    cases hh'
    exact ⟨holder, registry, hh, hperm, rfl⟩
  · rw [List.getElem?_set_ne hk] at hh'
    exact ⟨holder', holder'.registry, hh', .refl _, rfl⟩

theorem Shuffles.holder {k : HolderId} {holder : Holder} (hs : w.Shuffles w')
    (hh : w.holders[k]? = some holder) :
    ∃ registry : Registry, registry.Perm holder.registry ∧
      w'.holders[k]? = some { holder with registry } := by
  have hlen : w'.holders.length = w.holders.length := by
    obtain ⟨hh, hperm⟩ := hs
    exact List.length_set
  have hlt := (List.getElem?_eq_some_iff.mp hh).1
  obtain ⟨holder₀, registry, hh₀, hperm, heq⟩ :=
    hs.holder_of (List.getElem?_eq_getElem (hlen.symm ▸ hlt))
  obtain rfl := Option.some.inj (hh₀.symm.trans hh)
  exact ⟨registry, hperm, by rw [← heq]; exact List.getElem?_eq_getElem _⟩

theorem Shuffles.threads (hs : w.Shuffles w') : w'.threads = w.threads := by cases hs; rfl

theorem Shuffles.locks (hs : w.Shuffles w') : w'.locks = w.locks := by cases hs; rfl

theorem Shuffles.network (hs : w.Shuffles w') : w'.network = w.network := by cases hs; rfl

/-- A registry comes to yield its entries in another order just when an event makes it so. -/
theorem shuffles_iff : w.Shuffles w' ↔ ∃ h turns, w.happen? (.shuffle h turns) = some w' := by
  constructor
  · rintro @⟨h, holder, registry, hh, hperm⟩
    obtain ⟨turns, rfl⟩ := Registry.exists_arrange hperm
    exact ⟨h, turns, Option.bind_eq_some_iff.mpr ⟨holder, hh, rfl⟩⟩
  · rintro ⟨h, turns, he⟩
    obtain ⟨holder, hh, heq⟩ := Option.bind_eq_some_iff.mp he
    cases heq
    exact .mk hh (Registry.arrange_perm turns _)

/-! ## What an event does -/

/-- What each event does to a world. -/
inductive Happened (w : World) : Event → World → Prop
  | threadStep {t : ThreadId} {chance : Chance} {i : LockId} {call : Call} {lock : PortLock}
      {reply : Reply} {w₁ : World} (ht : w.threads[t]? = some (.busy i call))
      (hl : w.lock? i = some lock)
      (hs : w.serve? lock.settings chance (call.request lock.settings) = some (reply, w₁)) :
    Happened w (.step (.thread t) chance)
      (w₁.settle t i (lock.step t call reply).1 (lock.step t call reply).2)
  | workerStep {h : HolderId} {chance : Chance} {holder : Holder} {next : Holder × Network}
      (hh : w.holders[h]? = some holder) (hp : holder.poll? w.network chance = some next) :
    Happened w (.step (.worker h) chance) (w.setHolder h next)
  | attendantStep {h : HolderId} {k : Nat} {chance : Chance} {holder : Holder}
      {next : Holder × Network} (hh : w.holders[h]? = some holder)
      (ha : holder.attend? w.network k chance = some next) :
    Happened w (.step (.attendant h k) chance) (w.setHolder h next)
  | occupantStep {o : OccupantId} {chance : Chance} {occupant : Occupant} {w₁ : World}
      (ho : w.occupants[o]? = some occupant) (hs : w.stepOccupant? o chance = some w₁) :
    Happened w (.step (.occupant o) chance) w₁
  | begun {t : ThreadId} {i : LockId} {kind : CallKind} {lock : PortLock} {last : Option Ending}
      (hl : w.lock? i = some lock) (ht : w.threads[t]? = some (.free last))
      (hfree : ∀ t' call, w.callOn i t' = some call → kind ≠ .drop ∧ call.isDrop = false) :
    Happened w (.begins t i kind) { w with threads := w.threads.set t (.busy i kind.call) }
  | stirred {t : ThreadId} {i : LockId} {lock : PortLock} (hl : w.lock? i = some lock) :
    Happened w (.stir t i)
      { w with locks := w.locks.set i (some { lock with gate := lock.gate.stir t }) }
  | lockMade (s : Settings) :
    Happened w (.newLock s) { w with locks := w.locks ++ [some { settings := s }] }
  | threadMade : Happened w .newThread { w with threads := w.threads ++ [.free none] }
  | called {source target : Endpoint} {x : LinkId} {n : Network}
      (h : w.network.connect source target = .ok (x, n)) :
    Happened w (.call source target) { w with network := n }
  | done (x : LinkId) (d : Deed) : Happened w (.deed x d) (w.deed x d)
  | shuffled {h : HolderId} {turns : List Nat} {w' : World} (hs : w.Shuffles w') :
    Happened w (.shuffle h turns) w'

theorem happened_of_happen? {e : Event} (h : w.happen? e = some w') : w.Happened e w' := by
  rcases e with ⟨a, chance⟩ | ⟨t, i, kind⟩ | ⟨t, i⟩ | s | _ | ⟨source, target⟩ | ⟨x, d⟩ |
    ⟨h', turns⟩
  case step =>
    rcases a with t | h' | ⟨h', k⟩ | o
    · obtain ⟨i, call, lock, reply, w₁, ht, hl, hs, rfl⟩ := stepThread?_eq_some h
      exact .threadStep ht hl hs
    · obtain ⟨holder, hh, h⟩ := Option.bind_eq_some_iff.mp h
      obtain ⟨next, hp, rfl⟩ := Option.map_eq_some_iff.mp h
      exact .workerStep hh hp
    · obtain ⟨holder, hh, h⟩ := Option.bind_eq_some_iff.mp h
      obtain ⟨next, ha, rfl⟩ := Option.map_eq_some_iff.mp h
      exact .attendantStep hh ha
    · rcases ho : w.occupants[o]? with _ | occupant
      · have hs : w.stepOccupant? o chance = some w' := h
        unfold World.stepOccupant? at hs
        rw [ho] at hs
        cases hs
      · exact .occupantStep ho h
  case begins =>
    obtain ⟨⟨lock, hl⟩, ⟨last, ht⟩, hfree, rfl⟩ := begin?_eq_some h
    exact .begun hl ht hfree
  case stir =>
    obtain ⟨lock, hl, h⟩ := Option.bind_eq_some_iff.mp h
    cases h
    exact .stirred hl
  case newLock => cases h; exact .lockMade s
  case newThread => cases h; exact .threadMade
  case call =>
    unfold World.happen? at h
    simp only at h
    split at h
    · next hn => cases h; exact .called hn
    · cases h
  case deed => cases h; exact .done x d
  case shuffle => exact .shuffled (shuffles_iff.mpr ⟨h', turns, h⟩)

/-- What a thread is about it was about before, or it made a step, or it has just begun. -/
theorem Happened.activity_of {a : Activity} {e : Event} (he : w.Happened e w')
    (hocc : w.occupants = []) (ht : w'.threads[t]? = some a) :
    w.threads[t]? = some a ∧ (∀ chance, e ≠ .step (.thread t) chance) ∨
      (∃ chance i call l r w₁, e = .step (.thread t) chance ∧
        w.threads[t]? = some (.busy i call) ∧ w.lock? i = some l ∧
        w.serve? l.settings chance (call.request l.settings) = some (r, w₁) ∧
        w' = w₁.settle t i (l.step t call r).1 (l.step t call r).2 ∧
        a = (l.step t call r).2.activity i) ∨
      (∃ i kind, a = .busy i (CallKind.call kind)) ∨ a = .free none := by
  rcases he with ⟨ht', hl, hs⟩ | ⟨hh, hp⟩ | ⟨hh, hk⟩ | ⟨ho, -⟩ | ⟨hl, ht', hfree⟩ | ⟨hl⟩ | s | _ |
    ⟨hc⟩ | ⟨x, d⟩ | ⟨hs⟩
  case threadStep t' chance i call l r w₁ =>
    have hset := ht
    rw [settle_eq] at hset
    have hset : (w₁.threads.set t' _)[t]? = some a := hset
    rw [(served_of_serve? hs).threads] at hset
    rcases getElem?_set_cases hset with ⟨rfl, rfl⟩ | ⟨hne, hsame⟩
    · exact .inr (.inl ⟨chance, i, call, l, r, w₁, rfl, ht', hl, hs, rfl, rfl⟩)
    · exact .inl ⟨hsame, fun _ heq => hne (by cases heq; rfl)⟩
  case occupantStep => simp [hocc] at ho
  case begun t' i kind l last =>
    have hset : (w.threads.set t' _)[t]? = some a := ht
    rcases getElem?_set_cases hset with ⟨rfl, rfl⟩ | ⟨-, hsame⟩
    · exact .inr (.inr (.inl ⟨i, kind, rfl⟩))
    · exact .inl ⟨hsame, by rintro _ ⟨⟩⟩
  case threadMade =>
    have hset : (w.threads ++ [Activity.free none])[t]? = some a := ht
    rcases getElem?_concat_cases hset with ⟨-, rfl⟩ | hsame
    · exact .inr (.inr (.inr rfl))
    · exact .inl ⟨hsame, by rintro _ ⟨⟩⟩
  case done =>
    obtain ⟨_, hd⟩ := deed_eq w x d
    rw [hd] at ht
    exact .inl ⟨ht, by rintro _ ⟨⟩⟩
  case shuffled => exact .inl ⟨hs.threads ▸ ht, by rintro _ ⟨⟩⟩
  all_goals exact .inl ⟨ht, by rintro _ ⟨⟩⟩

end World

end LoopbackLock
