import LoopbackLock.Proofs.World.Exclusion
import LoopbackLock.Proofs.World.Patience
import LoopbackLock.World.Timed

/-!
# Who can go on

A wait that has a limit can come to an end (`expires`). Where nobody can go on, a challenger that
listens is waiting for an accepting worker that rests (`Concerted.awaited`): whatever else its
connection is waiting for goes on at once.
-/

namespace LoopbackLock.World

variable {s : Settings} {x : LinkId} {w w' w₁ : World} {r : Reply} {t : ThreadId} {i : LockId} {call : Call}
variable {c : Challenge} {l : PortLock} {h : HolderId} {holder : Holder} {k : Nat} {a : Attendant}
variable {chance : Chance} {ℓ : ListenerId}

/-! ## The actors -/

theorem thread_mem_actors (ht : w.threads[t]? = some (.busy i call)) : .thread t ∈ w.actors := by
  have hlt := (List.getElem?_eq_some_iff.mp ht).1
  unfold actors
  simp only [List.mem_append, List.mem_filterMap, List.mem_range]
  exact .inl (.inl ⟨t, hlt, by rw [ht]⟩)

theorem mem_actors_of_holder {m : Actor} (hh : w.holders[h]? = some holder)
    (hm : m ∈ w.holderActors h) : m ∈ w.actors := by
  have hlt := (List.getElem?_eq_some_iff.mp hh).1
  unfold actors
  simp only [List.mem_append, List.mem_flatMap, List.mem_range]
  exact .inl (.inr ⟨h, hlt, hm⟩)

theorem worker_mem_actors (hh : w.holders[h]? = some holder) (hw : holder.worker ≠ .gone) :
    .worker h ∈ w.actors := by
  refine mem_actors_of_holder hh ?_
  unfold holderActors
  rw [hh]
  simp [hw]

theorem attendant_mem_actors (hh : w.holders[h]? = some holder)
    (hk : holder.attendants[k]? = some a) (hs : a.stage ≠ .gone) : .attendant h k ∈ w.actors := by
  have hlt := (List.getElem?_eq_some_iff.mp hk).1
  refine mem_actors_of_holder hh ?_
  unfold holderActors
  rw [hh]
  refine List.mem_append_right _ (List.mem_filterMap.mpr ⟨k, List.mem_range.mpr hlt, ?_⟩)
  rw [hk]
  obtain ⟨y, p, stage⟩ := a
  cases stage <;> first | rfl | exact absurd rfl hs

/-- Whoever can make a step is one of the actors. -/
theorem mem_actors_of_step? {m : Actor} (hs : w.step? m chance = some w') :
    m ∈ w.actors := by
  rcases m with t | h | ⟨h, k⟩ | o
  case thread =>
    obtain ⟨i, call, _, _, _, ht, -⟩ := stepThread?_eq_some hs
    exact thread_mem_actors ht
  case worker =>
    obtain ⟨holder, hh, hpoll⟩ := Option.bind_eq_some_iff.mp hs
    refine worker_mem_actors hh fun hgone => ?_
    simp [Holder.poll?, hgone] at hpoll
  case attendant =>
    obtain ⟨holder, hh, hattend⟩ := Option.bind_eq_some_iff.mp hs
    obtain ⟨next, hattend, -⟩ := Option.map_eq_some_iff.mp hattend
    obtain ⟨a, hk, hattend⟩ := Option.bind_eq_some_iff.mp hattend
    refine attendant_mem_actors hh hk fun hgone => ?_
    simp [hgone] at hattend
  case occupant =>
    obtain ⟨_, ho, -⟩ := Option.bind_eq_some_iff.mp hs
    have hlt : o < w.occupants.length := by
      refine Nat.lt_of_not_le fun hle => ?_
      rw [List.getElem?_eq_none hle] at ho
      cases ho
    unfold actors
    simp only [List.mem_append, List.mem_map, List.mem_range]
    exact .inr ⟨o, hlt, rfl⟩

/-! ## Steps that can be made -/

/-- The step of a thread that gets a reply. -/
theorem step?_of_serve? (call : Call) (ht : w.threads[t]? = some (.busy i call))
    (hl : w.lock? i = some l) (hawake : l.isAsleep t call = false)
    (hs : w.serve? l.settings chance (call.request l.settings) = some (r, w₁)) :
    w.step? (.thread t) chance =
      some (w₁.settle t i (l.step t call r).1 (l.step t call r).2) := by
  show w.stepThread? t chance = _
  unfold World.stepThread?
  simp [ht, hl, hawake, hs]

theorem ready_thread (ht : w.threads[t]? = some (.busy i call)) (hl : w.lock? i = some l)
    (hawake : call ≠ .entering)
    (hs : (w.serve? l.settings chance (call.request l.settings)).isSome = true) :
    (w.step? (.thread t) chance).isSome = true := by
  obtain ⟨⟨r, w₁⟩, hs⟩ := Option.isSome_iff_exists.mp hs
  rw [step?_of_serve? call ht hl (by simp [PortLock.isAsleep, hawake]) hs]
  rfl

/-- A thread that reads goes on when there is something to hear. -/
theorem ready_read {given : UInt64} (ht : w.threads[t]? = some (.busy i call))
    (hl : w.lock? i = some l) (hrequest : call.request l.settings = .read x given)
    (hhear : (w.network.hear? x .caller chance).isSome = true) :
    (w.step? (.thread t) chance).isSome = true := by
  refine ready_thread ht hl (by rintro rfl; cases hrequest) ?_
  rw [hrequest]
  exact Option.isSome_map.trans hhear

theorem ready_worker (hh : w.holders[h]? = some holder) (hw : holder.worker ≠ .gone)
    (hrest : holder.worker ≠ .resting) : (w.step? (.worker h) .plain).isSome = true := by
  have hpoll : (holder.poll? w.network .plain).isSome = true := by
    unfold Holder.poll?
    cases hworker : holder.worker
    case checking => simp only; split <;> rfl
    case accepting => simp only; split <;> rfl
    case resting => exact absurd hworker hrest
    case gone => exact absurd hworker hw
  show ((w.holders[h]?).bind _).isSome = true
  rw [hh]
  simpa using hpoll

theorem ready_attendant (hh : w.holders[h]? = some holder) (hk : holder.attendants[k]? = some a)
    (hs : (a.serve? holder.challengeTimeout w.network chance).isSome = true) :
    (w.step? (.attendant h k) chance).isSome = true := by
  obtain ⟨p, hs⟩ := Option.isSome_iff_exists.mp hs
  have hattend : (holder.attend? w.network k chance).isSome = true := by
    unfold Holder.attend?
    rw [hk]
    cases hstage : a.stage
    case queuing | deciding | admitting | parting | gone =>
      unfold Attendant.serve? at hs
      rw [hstage] at hs
      cases hs
    all_goals simp [hstage, hs]
  show ((w.holders[h]?).bind _).isSome = true
  rw [hh]
  simpa using hattend

/-- An attendant that reads goes on when there is something to hear. -/
theorem ready_reading {reader : LineReader} {begun : Bool} (hh : w.holders[h]? = some holder)
    (hk : holder.attendants[k]? = some a) (hs : a.stage = .reading reader begun)
    (hhear : (w.network.hear? a.link .callee chance).isSome = true) :
    (w.step? (.attendant h k) chance).isSome = true := by
  refine ready_attendant hh hk ?_
  obtain ⟨⟨r, n⟩, hhear⟩ := Option.isSome_iff_exists.mp hhear
  unfold Attendant.serve?
  rw [hs]
  simp only [hhear]
  rcases Network.hear?_cases hhear with ⟨f, rfl, -⟩ | ⟨_, _, _, -, -, -, rfl, -⟩ <;> rfl

/-- Whoever has a listener in hand goes on with it. -/
theorem ready_listener (ht : w.threads[t]? = some (.busy i call)) (hl : w.lock? i = some l)
    (hℓ : call.listener? = some ℓ) : (w.step? (.thread t) .plain).isSome = true := by
  rcases call with _ | _ | c | _ | _ | _ | _ | _ | _ | _ | _
  case contending =>
    cases c
    case unblocking | founding | unbinding => exact ready_thread ht hl nofun rfl
    all_goals cases hℓ
  all_goals cases hℓ

/-- A challenger that is not listening goes on. -/
theorem ready_challenger (ht : w.threads[t]? = some (.busy i call)) (hl : w.lock? i = some l)
    (hc : call.challenge? = some c) (hlisten : ∀ x reader begun, c ≠ .listening x reader begun) :
    (w.step? (.thread t) .plain).isSome = true := by
  have hawake : call ≠ .entering := by
    rintro rfl
    cases hc
  refine ready_thread ht hl hawake ?_
  rw [(Call.of_challenge? hc l.settings).1]
  cases c
  case listening => exact absurd rfl (hlisten _ _ _)
  all_goals rfl

/-! ## Waits that end -/

/-- The wait of a thread is that of a read. -/
theorem limit?_thread {limit : Nat} (h : w.limit? (.thread t) = some limit) :
    ∃ i call l y given, w.threads[t]? = some (.busy i call) ∧ w.lock? i = some l ∧
      call.request l.settings = .read y given ∧ limit = given.toNat := by
  unfold World.limit? at h
  simp only at h
  split at h
  · next i call ht =>
    obtain ⟨l, hl, h⟩ := Option.bind_eq_some_iff.mp h
    split at h
    · next y given hrequest =>
      cases h
      exact ⟨i, call, l, y, given, ht, hl, hrequest, rfl⟩
    · cases h
  · cases h

/-- The wait of an accepting worker is its rest. -/
theorem limit?_worker {limit : Nat} (h' : w.limit? (.worker h) = some limit) :
    ∃ holder, w.holders[h]? = some holder ∧ holder.worker = .resting ∧
      limit = holder.acceptPoll.toNat := by
  unfold World.limit? at h'
  simp only at h'
  split at h'
  · next hh => cases h'; exact ⟨_, hh, rfl, rfl⟩
  · cases h'

/-- The wait of an attendant is that of a read. -/
theorem limit?_attendant {limit : Nat} (h' : w.limit? (.attendant h k) = some limit) :
    ∃ holder a reader begun, w.holders[h]? = some holder ∧ holder.attendants[k]? = some a ∧
      a.stage = .reading reader begun ∧ limit = holder.challengeTimeout.toNat := by
  obtain ⟨holder, hh, h'⟩ := Option.bind_eq_some_iff.mp h'
  split at h'
  · next hk => cases h'; exact ⟨holder, _, _, _, hh, hk, rfl, rfl⟩
  · cases h'

theorem hear?_expire {n : Network} {side : Side} (hhear : (n.hear? x side .plain).isSome = false) :
    (n.hear? x side .expire).isSome = true := by
  have hnone : n.read? x side readLimit = none := by simpa [Network.hear?] using hhear
  simp [Network.hear?, hnone]

/-- A wait that has a limit can come to its end. -/
theorem expires {a : Actor} (hocc : w.occupants = []) (hnone : w.step? a .plain = none)
    (hlimit : (w.limit? a).isSome = true) : (w.step? a .expire).isSome = true := by
  have hplain : (w.step? a .plain).isSome = true → False := by
    intro hready
    rw [hnone] at hready
    cases hready
  obtain ⟨limit, hlimit⟩ := Option.isSome_iff_exists.mp hlimit
  rcases a with t | h | ⟨h, k⟩ | o
  case thread =>
    obtain ⟨i, call, l, y, given, ht, hl, hrequest, -⟩ := limit?_thread hlimit
    rcases hhear : (w.network.hear? y .caller .plain).isSome with _ | _
    · exact ready_read ht hl hrequest (hear?_expire hhear)
    · exact (hplain (ready_read ht hl hrequest hhear)).elim
  case worker =>
    obtain ⟨holder, hh, hrest, -⟩ := limit?_worker hlimit
    show ((w.holders[h]?).bind _).isSome = true
    rw [hh]
    simp [Holder.poll?, hrest]
  case attendant =>
    obtain ⟨holder, a, reader, begun, hh, hk, hs, -⟩ := limit?_attendant hlimit
    rcases hhear : (w.network.hear? a.link .callee .plain).isSome with _ | _
    · exact ready_reading hh hk hs (hear?_expire hhear)
    · exact (hplain (ready_reading hh hk hs hhear)).elim
  case occupant =>
    unfold World.limit? at hlimit
    simp [hocc] at hlimit

/-- An open listener is in the hands of a contender, or its worker's. -/
theorem Claimed.claimant (hw : w.Claimed) (hℓ : w.network.isListening ℓ = true) :
    (∃ (t : ThreadId) (i : LockId) (call : Call), w.threads[t]? = some (.busy i call) ∧
      call.listener? = some ℓ) ∨
      ∃ (h : HolderId) (holder : Holder), w.holders[h]? = some holder ∧ holder.listener = ℓ ∧
        holder.worker ≠ .gone := by
  have hclaims : w.claims ℓ = 1 := by rw [hw ℓ, hℓ]; rfl
  unfold claims at hclaims
  rcases Nat.eq_zero_or_pos (total (Activity.claims ℓ) w.threads) with hzero | hpos
  · right
    obtain ⟨f, hf, hone⟩ := exists_of_total_pos (f := Front.claims ℓ) (l := w.fronts) (by omega)
    obtain ⟨h, hh⟩ := List.getElem?_of_mem hf
    have hh : (w.holders.map Holder.front)[h]? = some f := hh
    rw [List.getElem?_map] at hh
    obtain ⟨holder, hholder, rfl⟩ := Option.map_eq_some_iff.mp hh
    unfold Front.claims at hone
    split at hone
    · next hmine => exact ⟨h, holder, hholder, hmine.1, hmine.2⟩
    · cases hone
  · left
    obtain ⟨a, ha, hone⟩ := exists_of_total_pos hpos
    obtain ⟨t, ht⟩ := List.getElem?_of_mem ha
    rcases a with _ | ⟨i, call⟩
    · cases hone
    · refine ⟨t, i, call, ht, ?_⟩
      have hone : 0 < keeps ℓ call.listener? := hone
      unfold keeps at hone
      split at hone
      · assumption
      · cases hone

/-- A connection that nobody has taken up is over for its caller. -/
theorem Agreeing.hears_loss (hw : w.Agreeing) (ha : w.Astray x) :
    (w.network.hear? x .caller .plain).isSome = true := by
  have hacc := hw.regular.accounted
  have hcame : w.estate.came x = 0 := by
    refine total_eq_zero fun holder hmem => ?_
    obtain ⟨h, hh⟩ := List.getElem?_of_mem hmem
    exact total_eq_zero fun a hmem => Attendant.came_of_ne (ha.unattended h holder hh a hmem)
  obtain ⟨l, hl⟩ : ∃ l, w.network.links[x]? = some l := ⟨_, List.getElem?_eq_getElem ha.old⟩
  have hclosed : l.callee.handles = 0 := by
    have hhandles : w.network.handles x = w.network.waiting x :=
      (hacc.handles x).trans (hacc.owners_of_not_came hcame)
    rw [ha.waiting] at hhandles
    unfold Network.handles at hhandles
    rwa [Network.view_some hl] at hhandles
  exact Network.hear?_over hl ((hw.regular.sound l (List.mem_of_getElem? hl)).woken hclosed)

/-- Where nobody can go on, a challenger that listens waits at a listener whose worker rests. -/
theorem Concerted.awaited {reader : LineReader} {begun : Bool} (hw : w.Concerted s)
    (hquiet : ∀ a ∈ w.actors, w.step? a .plain = none)
    (ht : w.threads[t]? = some (.busy i call))
    (hc : call.challenge? = some (.listening x reader begun)) :
    ∃ (h : HolderId) (holder : Holder), w.holders[h]? = some holder ∧ holder.worker = .resting ∧
      x ∈ w.network.backlog holder.listener := by
  have hpresent : ∀ {t : ThreadId} {i : LockId} {call : Call},
      w.threads[t]? = some (.busy i call) → ∃ l, w.lock? i = some l :=
    fun ht => hw.agreeing.regular.orderly.present (callOn_eq_some.mpr ht)
  have hbusy : ∀ {a}, a ∈ w.actors → (w.step? a .plain).isSome = true → False := by
    intro a ha hready
    rw [hquiet a ha] at hready
    cases hready
  obtain ⟨l, hl⟩ := hpresent ht
  obtain ⟨hrequest, -, hfares, -⟩ := Call.of_challenge? hc l.settings
  have hhears : (w.network.hear? x .caller .plain).isSome = true → False := fun hhear =>
    hbusy (thread_mem_actors ht) (ready_read ht hl hrequest hhear)
  rcases (hw.fated t i call _ ht hc : w.Fate x true) with ⟨hx, hℓ, hl, ha⟩ |
    ⟨hh, hk, rfl, hs, hl, ha⟩ | ⟨hh, hk, rfl, hs, hl, hended, hreset⟩ | hanswer | ha
  case queued ℓ l =>
    rcases hw.claimed.claimant hℓ with ⟨t', i', call', ht', hhas⟩ | ⟨h, holder, hh, rfl, hworker⟩
    · obtain ⟨l', hl'⟩ := hpresent ht'
      exact (hbusy (thread_mem_actors ht') (ready_listener ht' hl' hhas)).elim
    · refine ⟨h, holder, hh, Decidable.byContradiction fun hrest => ?_, hx⟩
      exact hbusy (worker_mem_actors hh hworker) (ready_worker hh hworker hrest)
  case attended h k holder a l =>
    rcases hs with hs | hs
    · have hready : (w.step? (.attendant h k) .plain).isSome = true :=
        ready_attendant hh hk (by simp [Attendant.serve?, hs])
      exact (hbusy (attendant_mem_actors hh hk (by simp [hs])) hready).elim
    · have hhear := Network.hear?_question hl ha.arrived
      have hready := ready_reading hh hk hs (by rw [hhear]; rfl)
      exact (hbusy (attendant_mem_actors hh hk (by simp [hs])) hready).elim
  case answering h k holder a l =>
    have hready : (w.step? (.attendant h k) .plain).isSome = true :=
      ready_attendant hh hk (by simp [Attendant.serve?, hs])
    exact (hbusy (attendant_mem_actors hh hk (by simp [hs])) hready).elim
  case answered =>
    obtain ⟨l, hl, -, hinbox⟩ := (hfares _ (hw.agreeing.fares t _ ht)).inbox hanswer
    have hinbox : (l.atSide .caller).inbox ≠ [] := hinbox
    exact (hhears (by rw [Network.hear?_inbox hl hinbox]; rfl)).elim
  case astray => exact (hhears (hw.agreeing.hears_loss ha)).elim

end LoopbackLock.World
