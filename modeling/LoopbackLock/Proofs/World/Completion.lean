import LoopbackLock.Proofs.World.Concluding
import Mathlib.Data.List.Nodup

/-!
# Completed releases

The outermost release of a lock goes through all of its sequence, whatever fails on the way and in
whatever order the registry yields its entries. `Underway` tells what it has asked of the system when
it stands at a stage; each step of its thread leads on (`Underway.own`), and nothing else that happens
interferes (`Underway.happened`). When it is over, each connection that was registered when the holder
was drained has been told and shut once, the port is free and the gate open (`release_completes`).
-/

namespace LoopbackLock.World

variable {w w' w₀ w₁ : World} {t : ThreadId} {i : LockId} {h : HolderId} {c : Call} {l : PortLock}
variable {s : LockState} {d : Dismantling} {chance : Chance} {e : Event} {x : Exchange}
variable {es : List Exchange} {holder : Holder}

/-! ## The thread and the lock of a release -/

/-- What a thread is about does not change while it makes no step and begins no call. -/
theorem Happened.activity_stays {a : Activity} (he : w.Happened e w') (hocc : w.occupants = [])
    (ht : w.threads[t]? = some a) (hother : ∀ chance, e ≠ .step (.thread t) chance)
    (hbegin : ∀ i kind, e ≠ .begins t i kind) : w'.threads[t]? = some a := by
  rcases he with ⟨ht', hl, hs⟩ | ⟨hh, hp⟩ | ⟨hh, ha⟩ | ⟨ho', -⟩ | ⟨hl, ht', hfree⟩ | ⟨hl⟩ | s | _ |
    ⟨hc⟩ | ⟨x, d⟩ | ⟨⟨hh, hperm⟩⟩
  case threadStep t' chance j c' l' r w₁ =>
    have hne : t' ≠ t := fun heq => hother chance (by rw [heq])
    rw [settle_eq]
    show (w₁.threads.set t' _)[t]? = _
    rw [List.getElem?_set_ne hne, (served_of_serve? hs).threads]
    exact ht
  case occupantStep => simp [hocc] at ho'
  case begun t' j kind lock last =>
    have hne : t' ≠ t := fun heq => hbegin j kind (by rw [heq])
    show (w.threads.set t' _)[t]? = _
    rw [List.getElem?_set_ne hne]
    exact ht
  case threadMade =>
    show (w.threads ++ [_])[t]? = _
    rw [List.getElem?_append_left (List.getElem?_eq_some_iff.mp ht).1]
    exact ht
  case done =>
    obtain ⟨_, hd⟩ := deed_eq w x d
    rw [hd]
    exact ht
  all_goals exact ht

/-- The thread holds the gate once, and this is stored in the lock. -/
def Has (w : World) (i : LockId) (t : ThreadId) (s : LockState) : Prop :=
  ∃ l, w.lock? i = some l ∧ l.Owns t 1 ∧ l.state = s

/-- Nobody but the owner of the gate changes what it has. -/
theorem Has.happened (hhas : w.Has i t s) (hw : w.Regular) (hc : w.callOn i t = some c)
    (he : w.Happened e w') (hother : ∀ chance, e ≠ .step (.thread t) chance) : w'.Has i t s := by
  obtain ⟨l, hl, howns, hstate⟩ := hhas
  rcases he with ⟨ht', hl', hs⟩ | ⟨hh, hp⟩ | ⟨hh, ha⟩ | ⟨ho', -⟩ | ⟨hl', ht', hfree⟩ | ⟨hl'⟩ | s' | _ |
    ⟨hc'⟩ | ⟨x, d⟩ | ⟨⟨hh, hperm⟩⟩
  case threadStep t' chance j c' l' r w₁ =>
    have hne : t' ≠ t := fun heq => hother chance (by rw [heq])
    have hserved := served_of_serve? hs
    by_cases hji : j = i
    · subst hji
      obtain rfl := Option.some.inj (hl.symm.trans hl')
      have hc' := callOn_eq_some.mpr ht'
      have hstands : l.Stands t' (some c') := hc' ▸ hw.orderly.stands hl t'
      have hdrop := (PortLock.isDrop_step l t' c' r).trans (hw.orderly.not_isDrop hc hc' hne)
      obtain ⟨asleep, hstep⟩ := PortLock.step_foreign r howns.1 (Ne.symm hne) hstands
      obtain ⟨l₁, hslot⟩ := Progress.slot_of_not_isDrop (l := (l.step t' c' r).1) hdrop
      refine ⟨l₁, ?_, ?_⟩
      · rw [lock?_settle (by rwa [hserved.lock?]), if_pos rfl, hslot]
      · rw [Progress.slot_eq_some hslot, hstep]
        exact ⟨howns, hstate⟩
    · refine ⟨l, ?_, howns, hstate⟩
      rw [lock?_settle (by rwa [hserved.lock?]), if_neg (Ne.symm hji), hserved.lock?]
      exact hl
  case occupantStep => simp [hw.unoccupied] at ho'
  case stirred t' j l' =>
    have hlock : ({ w with locks := w.locks.set j (some { l' with gate := l'.gate.stir t' }) } :
        World).lock? i = if i = j then some { l' with gate := l'.gate.stir t' } else w.lock? i :=
      lock?_set (lock?_lt hl')
    by_cases hji : i = j
    · subst hji
      obtain rfl := Option.some.inj (hl.symm.trans hl')
      exact ⟨{ l with gate := l.gate.stir t' }, by rw [hlock, if_pos rfl], howns, hstate⟩
    · exact ⟨l, by rw [hlock, if_neg hji]; exact hl, howns, hstate⟩
  case lockMade =>
    refine ⟨l, ?_, howns, hstate⟩
    show ((w.locks ++ [_])[i]?).join = _
    rw [List.getElem?_append_left (lock?_lt hl)]
    exact hl
  case done =>
    obtain ⟨_, hd⟩ := deed_eq w x d
    exact ⟨l, by rw [hd]; exact hl, howns, hstate⟩
  all_goals exact ⟨l, hl, howns, hstate⟩

/-! ## What a release has asked for -/

/-- A release counts the holds and stores that the lock is idle. -/
def opening : List Exchange := [(.nothing, .done), (.nothing, .done)]

/-- What a release that stands here has asked for, and the replies. The lock stored `s` when it
began. -/
inductive Asked (w : World) : LockState → Call → List Exchange → Prop
  | counting {s : LockState} : Asked w s .counting []
  | resetting {s : LockState} : Asked w s .resetting [(.nothing, .done)]
  | dismantling {h : HolderId} {d : Dismantling} {es : List Exchange}
      (ha : d.Account w.estate.Settled h es) : Asked w (.holding h) (.dismantling h d) (opening ++ es)
  | dismantled {h : HolderId} {told : List Farewell} {late : List LinkId} (hv : w.estate.Vacant h)
      (hsaid : ∀ f ∈ told, f.Sound ∧ w.estate.Settled f.link f.taken) :
    Asked w (.holding h) .leaving (opening ++
      (Dismantling.closing h told late ++ Dismantling.discards late ++ [(.abandon h, .done)]))
  | bare {s : LockState} (hs : s.holder? = none) : Asked w s .leaving opening

theorem Asked.mono (ha : w.Asked s c es)
    (hT : ∀ x said, w.estate.Settled x said → w'.estate.Settled x said)
    (hV : ∀ h, w.estate.Vacant h → w'.estate.Vacant h) : w'.Asked s c es := by
  cases ha with
  | counting => exact .counting
  | resetting => exact .resetting
  | dismantling ha => exact .dismantling (ha.mono hT)
  | dismantled hv hsaid =>
    exact .dismantled (hV _ hv) fun f hf => ⟨(hsaid f hf).1, hT _ _ (hsaid f hf).2⟩
  | bare hs => exact .bare hs

/-- What the lock of a release stores that stands here. -/
def shown (s : LockState) : Call → LockState
  | .counting | .resetting => s
  | _ => .idle

/-- A release is under way: its thread stands here and holds the gate once, and has asked for this. -/
structure Underway (w : World) (t : ThreadId) (i : LockId) (s : LockState) (c : Call)
    (es : List Exchange) : Prop where
  busy : w.threads[t]? = some (.busy i c)
  has : w.Has i t (shown s c)
  asked : w.Asked s c es

/-- A release is over: its thread has left the gate at last, and before that has asked for this. -/
structure Ended (w : World) (t : ThreadId) (i : LockId) (s : LockState) (es : List Exchange) :
    Prop where
  returned : w.threads[t]? = some (.free (some .released))
  opened : ∃ l, w.lock? i = some l ∧ l.state = .idle ∧ l.gate.owner = none ∧ l.gate.holds = 0
  asked : ∃ front choice, es = front ++ [(.choose, .chosen choice)] ∧ w.Asked s .leaving front

theorem Steady.settled_stays (hw : w.Steady) (he : w.Happened e w') (x : LinkId) (said : Bytes)
    (hs : w.estate.Settled x said) : w'.estate.Settled x said :=
  hs.moves hw.regular.accounted (hw.regular.moves he)

theorem Steady.vacant_stays (hw : w.Steady) (he : w.Happened e w') (h : HolderId)
    (hv : w.estate.Vacant h) : w'.estate.Vacant h :=
  hv.moves (hw.regular.moves he)

theorem Underway.happened (hu : w.Underway t i s c es) (hw : w.Steady) (he : w.Happened e w')
    (hother : ∀ chance, e ≠ .step (.thread t) chance) (hbegin : ∀ i kind, e ≠ .begins t i kind) :
    w'.Underway t i s c es where
  busy := he.activity_stays hw.regular.unoccupied hu.busy hother hbegin
  has := hu.has.happened hw.regular (callOn_eq_some.mpr hu.busy) he hother
  asked := hu.asked.mono (hw.settled_stays he) (hw.vacant_stays he)

/-! ## Steps of the thread -/

/-- What the thread asked of the system, and what its call made of the reply. -/
theorem step_of_exchange (hx : w.exchange? t chance = some x)
    (he : w.step? (.thread t) chance = some w') (ht : w.threads[t]? = some (.busy i c))
    (hl : w.lock? i = some l) :
    ∃ r w₁, w.serve? l.settings chance (c.request l.settings) = some (r, w₁) ∧
      x = (c.request l.settings, r) ∧
      w' = w₁.settle t i (l.step t c r).1 (l.step t c r).2 := by
  obtain ⟨l', r, w₁, hl', hs, rfl⟩ := stepThread?_busy ht he
  obtain rfl := Option.some.inj (hl.symm.trans hl')
  refine ⟨r, w₁, hs, ?_, rfl⟩
  unfold exchange? at hx
  rw [ht] at hx
  simp only [hl, hs, Option.bind_eq_bind, Option.bind_some] at hx
  exact (Option.some.inj hx).symm

/-- A call that goes on with the hold it has is under way. -/
theorem underway_settle {q : Request} {r : Reply} {c' : Call} {l' : PortLock}
    (hs : w.Served l.settings q r w₁) (ht : w.threads[t]? = some (.busy i c))
    (hl : w.lock? i = some l) (howns : l'.Owns t 1) (hstate : l'.state = shown s c')
    (hasked : (w₁.settle t i l' (.going c')).Asked s c' es) :
    (w₁.settle t i l' (.going c')).Underway t i s c' es where
  busy := threads_settle (by rwa [hs.threads]) l' _
  has := ⟨l', by rw [lock?_settle (by rwa [hs.lock?]), if_pos rfl]; rfl, howns, hstate⟩
  asked := hasked

/-- What was taken of an announcement so far is what was said after the answer. -/
theorem Steady.said_of_offered {y : LinkId} {rest : Bytes} {queue : List LinkId}
    (hw : w.Steady) (ht : w.threads[t]? = some (.busy i (.dismantling h (.notifying y rest queue))))
    (hoffered : Offered y Dismantling.announcement es rest) :
    w.network.said y = Attendance.answer ++ Dismantling.announcement.take (takenIn es) := by
  have hW := work_of_call (callOn_eq_some.mpr ht) (W := ⟨h, true, .notifying y rest queue⟩) rfl
  obtain ⟨⟨-, hscript⟩, -⟩ := hw.regular.answered (.work hW (List.mem_cons_self ..))
  refine (List.append_left_inj rest).mp (hscript.trans ?_)
  rw [List.append_assoc, hoffered.rest_eq, List.take_append_drop]
  rfl

/-- A write says what it takes. -/
theorem said_of_write {settings : Settings} {y : LinkId} {rest : Bytes} {r : Reply}
    (hs : w.serve? settings chance (.write y rest) = some (r, w₁))
    (hoffered : Offered y Dismantling.announcement es rest)
    (hsaid : w.network.said y = Attendance.answer ++ Dismantling.announcement.take (takenIn es)) :
    w₁.network.said y = Attendance.answer ++
      Dismantling.announcement.take (takenIn (es ++ [(.write y rest, r)])) := by
  rw [takenIn_concat]
  rw [serve?_write] at hs
  rcases hsay : w.network.say y .callee rest chance with ⟨reply, n⟩
  rw [hsay] at hs
  rcases Network.say_cases hsay with ⟨f, rfl, rfl⟩ | ⟨count, rfl, hwrite⟩ <;> cases hs
  · exact hsaid
  · have hpart : rest.take (rest.take count).length = rest.take count := by
      exact (List.prefix_iff_eq_take.mp (List.take_prefix count rest)).symm
    show n.said y = _
    rw [Network.said_write hwrite, if_pos rfl, hsaid, List.append_assoc]
    show _ = Attendance.answer ++ Dismantling.announcement.take (_ + (rest.take count).length)
    rw [List.take_add, ← hoffered.rest_eq, hpart]

/-- A release that has swept has emptied its holder for good. -/
theorem Steady.vacant_of_release (hw : w.Steady)
    (ht : w.threads[t]? = some (.busy i (.dismantling h d))) (hswept : d.hasSwept = true) :
    w.estate.Vacant h := by
  have hc := callOn_eq_some.mpr ht
  obtain ⟨holder, hh, hs⟩ := hw.cleared t ⟨h, true, d⟩ (work_of_call hc rfl) rfl hswept
  have hjoined : (Call.dismantling h d).joined? = some h := by
    cases d <;> first | rfl | cases hswept
  refine ⟨holder, hh, hs, Decidable.byContradiction fun hne => ?_⟩
  exact (hw.minded.joined t i _ h ht hjoined).2 ⟨_, fronts_getElem? hh, hne⟩

/-- The thread counts the one hold it has. -/
theorem Underway.counts (hu : w.Underway t i s .counting es) (hl : w.lock? i = some l) :
    l.step t .counting .done = (l, .going .resetting) := by
  obtain ⟨l', hl', howns, -⟩ := hu.has
  obtain rfl := Option.some.inj (hl.symm.trans hl')
  simp [PortLock.step, PortLock.count, Gate.holdsOf, howns.1, howns.2]

/-- A step of the dismantling leads it on, or ends it. -/
theorem Underway.dismantles {r : Reply}
    (hu : w.Underway t i (.holding h) (.dismantling h d) (opening ++ es)) (hw : w.Steady)
    (hl : w.lock? i = some l) (ha : d.Account w.estate.Settled h es)
    (hs : w.serve? l.settings chance (d.request h) = some (r, w₁)) :
    ∃ c', (w₁.settle t i (l.step t (.dismantling h d) r).1
      (l.step t (.dismantling h d) r).2).Underway t i (.holding h) c'
        (opening ++ es ++ [(d.request h, r)]) := by
  obtain ⟨l', hl', howns, hstate⟩ := hu.has
  obtain rfl := Option.some.inj (hl.symm.trans hl')
  have hserved := served_of_serve? hs
  have hmeets := meets_of_serve? hs
  have he := Happened.threadStep hu.busy hl hs
  rw [List.append_assoc]
  rcases hd : d.step true r with d' | ⟨⟩
  · rw [PortLock.step_dismantling hd] at he ⊢
    refine ⟨_, underway_settle hserved hu.busy hl howns hstate
      (.dismantling (ha.step hmeets hd (hw.settled_stays he) ?_))⟩
    -- All has been said on a connection once the last write of its announcement is made.
    rintro y rest queue writes rfl hoffered hends
    cases hd.symm.trans (Dismantling.step_of_ends hends)
    have hbusy := threads_settle (by rw [hserved.threads]; exact hu.busy) l
      (.going (.dismantling h (.shutting y queue)))
    refine ⟨(hw.happened he).regular.accounted.spent_of_work
      (work_of_call (callOn_eq_some.mpr hbusy) rfl) (.inl rfl), ?_⟩
    show (w₁.settle t i l (.going (.dismantling h (.shutting y queue)))).network.said y = _
    rw [network_settle]
    exact said_of_write hs hoffered (hw.said_of_offered hu.busy hoffered)
  · rw [PortLock.step_dismantling_over hd] at he ⊢
    refine ⟨_, underway_settle hserved hu.busy hl howns hstate ?_⟩
    obtain ⟨told, late, hsaid, heq⟩ := (ha.mono (hw.settled_stays he)).over hmeets hd
    obtain rfl := Dismantling.abandoning_of_over hd
    exact heq ▸ .dismantled (hw.vacant_stays he h (hw.vacant_of_release hu.busy rfl)) hsaid

/-- The last step of a release leaves the gate. -/
theorem Underway.leaves (hu : w.Underway t i s .leaving es) (hw : w.Steady)
    (hl : w.lock? i = some l) (choice : Nat)
    (he : w.Happened e (w.settle t i (l.leave t choice) (.over .released))) :
    (w.settle t i (l.leave t choice) (.over .released)).Ended t i s
      (es ++ [(.choose, .chosen choice)]) := by
  obtain ⟨l', hl', howns, hstate⟩ := hu.has
  obtain rfl := Option.some.inj (hl.symm.trans hl')
  obtain ⟨asleep, hleave⟩ := PortLock.leave_last howns choice
  refine ⟨threads_settle hu.busy _ _, ⟨l.leave t choice, ?_, ?_, ?_, ?_⟩, es, choice, rfl,
    hu.asked.mono (hw.settled_stays he) (hw.vacant_stays he)⟩
  · rw [lock?_settle hl, if_pos rfl]
    rfl
  all_goals rw [hleave]
  exact hstate

/-- A step of its thread leads a release on, or ends it. -/
theorem Underway.own (hu : w.Underway t i s c es) (hw : w.Steady)
    (hx : w.exchange? t chance = some x) (he : w.step? (.thread t) chance = some w') :
    (∃ c', w'.Underway t i s c' (es ++ [x])) ∨ w'.Ended t i s (es ++ [x]) := by
  obtain ⟨l, hl, howns, hstate⟩ := hu.has
  obtain ⟨r, w₁, hs, rfl, rfl⟩ := step_of_exchange hx he hu.busy hl
  have hserved := served_of_serve? hs
  have hasked := hu.asked
  cases hasked with
  | counting =>
    cases hs
    rw [hu.counts hl]
    exact .inl ⟨_, underway_settle hserved hu.busy hl howns hstate .resetting⟩
  | resetting =>
    cases hs
    replace hstate : l.state = s := hstate
    rcases hholder : s.holder? with _ | h
    · rw [PortLock.step_resetting_bare (by rw [hstate]; exact hholder)]
      exact .inl ⟨_, underway_settle hserved hu.busy hl howns rfl (.bare hholder)⟩
    · obtain rfl := LockState.holder?_eq_some.mp hholder
      rw [PortLock.step_resetting hstate]
      exact .inl ⟨_, underway_settle hserved hu.busy hl howns rfl
        (.dismantling ⟨[], List.forall_mem_nil _, rfl, rfl⟩)⟩
  | dismantling ha => exact .inl (hu.dismantles hw hl ha hs)
  | dismantled | bare =>
    obtain ⟨choice, rfl, rfl⟩ := serve?_choose hs
    exact .inr (hu.leaves hw hl choice (.threadStep hu.busy hl hs))

/-! ## Runs -/

/-- Along a run a release is under way until it is over. -/
theorem Underway.goes (hu : w₀.Underway t i s .counting []) (hw₀ : w₀.Steady)
    (hg : w₀.Goes t es w) :
    (∃ c, w.Underway t i s c es) ∨ ∃ last, w.threads[t]? = some (.free last) := by
  induction hg with
  | start => exact .inl ⟨_, hu⟩
  | own hg hx he ih =>
    rcases ih with ⟨c, hc⟩ | ⟨last, hfree⟩
    · rcases hc.own (hw₀.goes hg) hx he with hc' | hended
      · exact .inl hc'
      · exact .inr ⟨_, hended.returned⟩
    · cases (exchange?_of_free hfree).symm.trans hx
  | other hg hstep hbegin he ih =>
    have hw := hw₀.goes hg
    have he := happened_of_happen? he
    rcases ih with ⟨c, hc⟩ | ⟨last, hfree⟩
    · exact .inl ⟨c, hc.happened hw he hstep hbegin⟩
    · exact .inr ⟨last, he.activity_stays hw.regular.unoccupied hfree hstep hbegin⟩

theorem Asked.isRelease (ha : w.Asked s c es) : c.isRelease = true := by
  cases ha <;> rfl

/-! ## Releases that are over -/

/-- What is drained is what is registered. -/
theorem drained_of_exchange {links : List LinkId}
    (hx : w.exchange? t chance = some (.drain h, .drained links)) :
    ∃ holder, w.holders[h]? = some holder ∧ holder.registry.links = links := by
  unfold exchange? at hx
  split at hx
  case h_2 => cases hx
  case h_1 i c ht =>
    obtain ⟨l, -, hx⟩ := Option.bind_eq_some_iff.mp hx
    obtain ⟨⟨r, w₁⟩, hs, hx⟩ := Option.bind_eq_some_iff.mp hx
    obtain ⟨hq, rfl⟩ := Prod.mk.inj (Option.some.inj hx)
    rw [hq] at hs
    obtain ⟨holder, hh, hs⟩ := Option.bind_eq_some_iff.mp hs
    split at hs
    · cases hs
    · cases hs
      exact ⟨holder, hh, rfl⟩

/-- Nobody is registered twice. -/
theorem Steady.nodup_registry (hw : w.Steady) (hh : w.holders[h]? = some holder) :
    holder.registry.links.Nodup := by
  refine List.nodup_iff_count_le_one.mpr fun x => ?_
  have hone := hw.regular.accounted.pens_le_one h x
  rw [Estate.pens_of_holder hh] at hone
  unfold Holder.pens at hone
  omega

theorem Ended.phase (he : w.Ended t i s es) : w.phase i = .idle := by
  obtain ⟨l, hl, hidle, -⟩ := he.opened
  unfold World.phase
  rw [hl, Option.map_some, PortLock.phase, hidle]
  rfl

theorem Ended.waiterCount (he : w.Ended t i s es) : w.waiterCount i = 0 := by
  obtain ⟨⟨settings, gate, state⟩, hl, hidle, -⟩ := he.opened
  obtain rfl : state = .idle := hidle
  unfold World.waiterCount
  rw [hl]

/-- A release has dissolved a holder. It has asked for all of this, and this is what it leaves. -/
structure Dissolved (w₀ : World) (t : ThreadId) (h : HolderId) (es : List Exchange) (w : World)
    (holder : Holder) (told : List Farewell) : Prop where
  /-- The holder is drained as it is at that moment. -/
  drained : ∃ w₁ w₂ chance back, w₀.Goes t opening w₁ ∧ w₁.holders[h]? = some holder ∧
    w₁.exchange? t chance = some (.drain h, .drained holder.registry.links) ∧
    w₁.step? (.thread t) chance = some w₂ ∧ w₂.Goes t back w ∧
    es = opening ++ (.drain h, .drained holder.registry.links) :: back
  /-- All who were registered are told, and everything else is asked for, once each. -/
  asked : ∃ late choice, es = opening ++
    (Dismantling.closing h told late ++ Dismantling.discards late ++ [(.abandon h, .done)]) ++
    [(.choose, .chosen choice)]
  everybody : told.map (·.link) = holder.registry.links
  once : holder.registry.links.Nodup
  sound : ∀ f ∈ told, f.Sound
  /-- What is said on a connection depends on the writes there only. -/
  said : ∀ f ∈ told, w.network.said f.link = Attendance.answer ++ f.taken
  healthy : ∀ f ∈ told, f.IsHealthy → w.network.said f.link = script
  delivered : ∀ f ∈ told, w.network.callers f.link ≠ 0 → ∃ read, w.network.Delivered f.link read
  closed : w.network.isListening holder.listener = false
  emptied : ∃ holder', w.holders[h]? = some holder' ∧ holder'.listener = holder.listener ∧
    holder'.registry = []

theorem Steady.dissolved {told : List Farewell} {late : List LinkId} {choice : Nat}
    (hw₀ : w₀.Steady) (hv : w.estate.Vacant h)
    (hsaid : ∀ f ∈ told, f.Sound ∧ w.estate.Settled f.link f.taken)
    (hes : es = opening ++
      (Dismantling.closing h told late ++ Dismantling.discards late ++ [(.abandon h, .done)]) ++
      [(.choose, .chosen choice)]) (hg : w₀.Goes t es w) :
    ∃ holder, w₀.Dissolved t h es w holder told := by
  have hw := hw₀.goes hg
  obtain ⟨back, hback⟩ : ∃ back, es = opening ++ (.drain h, .drained (told.map (·.link))) :: back :=
    ⟨_, by rw [hes, List.append_assoc]; rfl⟩
  obtain ⟨w₁, w₂, chance, h₁, hx, hstep, h₂⟩ := (hback ▸ hg : w₀.Goes t _ w).split
  obtain ⟨holder, hh, hlinks⟩ := drained_of_exchange hx
  have hw₁ := hw₀.goes h₁
  obtain ⟨es₂, hr₂⟩ := h₂.run
  obtain ⟨holder', hh', hlistener⟩ := hw₁.regular.listener_of_run ((run?_step hstep).trans hr₂) hh
  obtain ⟨holder'', hh'', hswept, hgone⟩ := hv
  obtain rfl := Option.some.inj (hh'.symm.trans hh'')
  have hclosed := (hw.closed _ (List.mem_of_getElem? (fronts_getElem? hh')) hgone).2
  exact ⟨holder, {
    drained := ⟨w₁, w₂, chance, back, h₁, hh, by rw [hlinks]; exact hx, hstep, h₂,
      by rw [hlinks]; exact hback⟩
    asked := ⟨late, choice, hes⟩
    everybody := hlinks.symm
    once := hw₁.nodup_registry hh
    sound := fun f hf => (hsaid f hf).1
    said := fun f hf => (hsaid f hf).2.said
    healthy := fun f hf hhealthy =>
      (hsaid f hf).2.said.trans (by rw [(hsaid f hf).1.taken_of_isHealthy hhealthy]; rfl)
    delivered := fun f hf hopen => hw.received.delivered hopen
    closed := by rw [← hlistener]; exact hclosed
    emptied := ⟨holder', hh', hlistener, hswept.empty⟩ }⟩

/-- The outermost release by the owner of a gate can always be brought to its end, whatever has
failed so far and in whatever order registries are (`Concludes`). When it is over, the lock is idle
and its gate open. If it had a holder, then all who were registered when the holder was drained have
been told once each and shut, each of them has got what the writes to it took, and the listener is
closed and the registry empty (`Dissolved`). A lock that was assumed has only stored that it is idle
and left its gate. -/
theorem release_completes {terrain : Terrain} {es₀ : List Event}
    (h₀ : (World.blank terrain).run? es₀ = some w₀)
    (ht : w₀.threads[t]? = some (.busy i .counting)) (hl : w₀.lock? i = some l)
    (hholds : l.gate.holdsOf t = 1) :
    (∀ es w, w₀.Goes t es w → w.Concludes t) ∧
    ∀ es w chance x w', w₀.Goes t es w → w.exchange? t chance = some x →
      w.step? (.thread t) chance = some w' → (∀ j c, w'.threads[t]? ≠ some (.busy j c)) →
      w'.threads[t]? = some (.free (some .released)) ∧
      w'.phase i = .idle ∧ w'.waiterCount i = 0 ∧
      (∃ l', w'.lock? i = some l' ∧ l'.gate.owner = none ∧ l'.gate.holds = 0) ∧
      ((∃ h holder told, l.state = .holding h ∧ w₀.Dissolved t h (es ++ [x]) w' holder told) ∨
        ∃ choice, l.state = .assumed ∧ es ++ [x] = opening ++ [(.choose, .chosen choice)]) := by
  have hw₀ := (Steady.blank terrain).run h₀
  have hstands := hw₀.regular.orderly.stands hl t
  rw [callOn_eq_some.mpr ht] at hstands
  have howns : l.Owns t 1 := by
    unfold Gate.holdsOf at hholds
    split at hholds
    · next howner => exact ⟨howner, hholds⟩
    · cases hholds
  generalize hs : l.state = s
  have hu : w₀.Underway t i s .counting [] := ⟨ht, ⟨l, hl, howns, hs⟩, .counting⟩
  refine ⟨fun es w hg => ?_, fun es w chance x w' hg hx he hfree => ?_⟩
  · rcases hu.goes hw₀ hg with ⟨c, hc⟩ | ⟨last, hfree⟩
    · exact (hw₀.goes hg).concludes hc.busy hc.asked.isRelease
    · exact .over hfree
  · rcases hu.goes hw₀ hg with ⟨c, hc⟩ | ⟨last, hover⟩
    case inr => cases (exchange?_of_free hover).symm.trans hx
    rcases hc.own (hw₀.goes hg) hx he with ⟨c', hc'⟩ | hended
    · exact absurd hc'.busy (hfree _ _)
    obtain ⟨l', hl', -, howner, hholds'⟩ := hended.opened
    obtain ⟨front, choice, hes, hasked⟩ := hended.asked
    refine ⟨hended.returned, hended.phase, hended.waiterCount, ⟨l', hl', howner, hholds'⟩, ?_⟩
    cases hasked with
    | dismantled hv hsaid =>
      obtain ⟨holder, hd⟩ := hw₀.dissolved hv hsaid hes (hg.own hx he)
      exact .inl ⟨_, holder, _, rfl, hd⟩
    | bare hbare =>
      have htaken := hstands howns.1
      rw [hs] at htaken
      cases s <;> cases htaken
      · cases hbare
      · exact .inr ⟨choice, rfl, hes⟩

/-- Two peers are registered with a lock when its owner begins to release it. -/
def crowded : List Event := List.flatten
  [[.newLock {}, .newThread, .begins 0 0 .acquire], turns 6 (.thread 0),
    [.call { host := .loopback, port := 40000 } ({} : Settings).endpoint,
      .call { host := .loopback, port := 40001 } ({} : Settings).endpoint,
      .deed 0 (.write (Text.encode Message.check.line)),
      .deed 1 (.write (Text.encode Message.check.line))],
    turns 4 (.worker 0), turns 6 (.attendant 0 0), turns 6 (.attendant 0 1),
    [.begins 0 0 .release]]

/-- The release cannot write to the first of them. It goes on until it has only to leave the gate. -/
def lossy : List Event := List.flatten
  [turns 3 (.thread 0), [.step (.thread 0) (.fail .brokenPipe)], turns 6 (.thread 0),
    turns 1 (.worker 0), turns 3 (.thread 0)]

theorem release_completes_lossy : ∃ w₀ w w' es x holder told,
    (World.blank .usual).run? crowded = some w₀ ∧ w₀.run? lossy = some w ∧
      w.happen? (.step (.thread 0) .plain) = some w' ∧ w₀.Concludes 0 ∧
      w₀.Goes 0 es w ∧ w₀.Dissolved 0 0 (es ++ [x]) w' holder told ∧
      w'.network.said 0 = Attendance.answer ∧ w'.network.said 1 = script := by
  have hruns : ((World.blank .usual).run? crowded).any (fun w₀ =>
      w₀.threads[0]? = some (.busy 0 .counting) ∧
      (w₀.lock? 0).any (fun l => l.gate.holdsOf 0 = 1 ∧ l.state = .holding 0) = true ∧
      (w₀.run? lossy).any (fun w => (w.happen? (.step (.thread 0) .plain)).any fun w' =>
        w'.threads[0]? = some (.free (some .released)) ∧
        w'.network.said 0 = Attendance.answer ∧ w'.network.said 1 = script) = true) = true := by
    decide +kernel
  obtain ⟨w₀, h₀, hruns⟩ := (Option.any_eq_true ..).mp hruns
  obtain ⟨ht, hlock, hruns⟩ := of_decide_eq_true hruns
  obtain ⟨l, hl, hlock⟩ := (Option.any_eq_true ..).mp hlock
  obtain ⟨hholds, hstate⟩ := of_decide_eq_true hlock
  obtain ⟨w, hw, hruns⟩ := (Option.any_eq_true ..).mp hruns
  obtain ⟨w', hw', hends⟩ := (Option.any_eq_true ..).mp hruns
  obtain ⟨hfree, hfirst, hsecond⟩ := of_decide_eq_true hends
  obtain ⟨es, hg⟩ := goes_of_run (t := 0) hw fun e he i kind heq => by
    simp [heq, lossy, turns] at he
  obtain ⟨x, hx⟩ := exchange?_of_step hw'
  obtain ⟨hconcludes, hover⟩ := release_completes h₀ ht hl hholds
  obtain ⟨-, -, -, -, hend⟩ := hover es w .plain x w' hg hx hw' fun j c hbusy => by
    cases hfree.symm.trans hbusy
  rcases hend with ⟨h, holder, told, hholding, hdissolved⟩ | ⟨choice, hassumed, -⟩
  · cases hstate.symm.trans hholding
    exact ⟨w₀, w, w', es, x, holder, told, h₀, hw, hw', hconcludes [] w₀ .start, hg, hdissolved,
      hfirst, hsecond⟩
  · cases hstate.symm.trans hassumed

end LoopbackLock.World
