import LoopbackLock.Proofs.Holder.Step
import LoopbackLock.Proofs.Network.Ends
import LoopbackLock.Proofs.World.Step

/-!
# Estates

What becomes of accepted connections is decided by the network, the holders, and the dismantling of
holders by calls. A `Work` is what a call has of the latter: which holder, whether it is released or
dropped, and how far it is. The three make an `Estate`, and `Estate.Moves` is all that an event does
to it.
-/

namespace LoopbackLock

/-- The dismantling of a holder that a call is at. -/
structure Work where
  holder : HolderId
  /-- It is a release, no drop. -/
  orderly : Bool
  stage : Dismantling
  deriving DecidableEq, Repr

namespace Work

/-- The work after a reply, if it goes on. -/
def next (W : Work) (r : Reply) : Option Work :=
  match W.stage.step W.orderly r with
  | .going stage => some { W with stage }
  | .over () => none

theorem next_going {W : Work} {r : Reply} {d d' : Dismantling} (hs : W.stage = d)
    (h : d.step W.orderly r = .going d') : W.next r = some { W with stage := d' } := by
  unfold next; rw [hs, h]

end Work

/-- The work of a call, if it is at one. -/
def Call.work? : Call → Option Work
  | dismantling holder stage => some { holder, orderly := true, stage }
  | dropping holder stage => some { holder, orderly := false, stage }
  | _ => none

theorem Call.not_isDemolition {s : Settings} {c : Call} (h : c.work? = none) :
    (c.request s).isDemolition = false := by
  have ha := c.asks s
  rcases hq : (c.request s).isDemolition with _ | _
  · rfl
  · rw [← hq]
    generalize c.request s = q at ha
    rcases ha with _ | _ | _ | _ | _ | _ | @⟨_, q, -, hr⟩ | _ | _
    case watch => cases q <;> cases hr <;> rfl
    case dismantle | drop => cases h
    all_goals rfl

/-- The work of a thread, if it is at one. -/
def Activity.work? : Activity → Option Work
  | busy _ c => c.work?
  | free _ => none

theorem Progress.work?_activity (i : LockId) (p : Progress Call Ending) :
    (p.activity i).work? = p.call?.bind Call.work? := by
  cases p <;> rfl

namespace PortLock

variable {l : PortLock} {t : ThreadId} {c : Call} {r : Reply}

theorem work?_step_some {W : Work} (h : c.work? = some W) :
    (l.step t c r).2.call?.bind Call.work? = W.next r := by
  rcases c with _ | _ | c | _ | _ | _ | _ | ⟨holder, d⟩ | _ | _ | ⟨holder, d⟩
  case dismantling =>
    obtain rfl := Option.some.inj h
    simp only [PortLock.step, Work.next]
    rcases d.step true r with d' | _ <;> rfl
  case dropping =>
    obtain rfl := Option.some.inj h
    simp only [PortLock.step, Work.next]
    rcases d.step false r with d' | _ <;> rfl
  all_goals cases h

/-- A call that is at no work begins one when it resets or retires a lock with a holder. -/
theorem work?_step_none (h : c.work? = none) :
    (l.step t c r).2.call?.bind Call.work? = none ∨
      ∃ holder, l.state = .holding holder ∧
        (c = .resetting ∧ (l.step t c r).2.call?.bind Call.work? =
            some { holder, orderly := true, stage := .draining } ∨
          c = .retiring ∧ (l.step t c r).2.call?.bind Call.work? =
            some { holder, orderly := false, stage := .stopping }) := by
  fun_cases PortLock.step l t c r
  case case1 =>
    obtain ⟨_, _, heq, rfl | rfl | rfl⟩ := l.enter_cases t <;> rw [heq] <;> exact .inl rfl
  case case3 c =>
    unfold PortLock.contend
    rcases c.step l.settings r with _ | _ | _ <;> exact .inl rfl
  case case6 =>
    rcases l.count_cases t with heq | heq | heq <;> rw [heq] <;> exact .inl rfl
  case case7 next =>
    rcases hs : l.state with _ | _ | _ | holder | _
    case holding =>
      simp only [next, hs]
      exact .inr ⟨holder, rfl, .inl ⟨trivial, rfl⟩⟩
    all_goals simp only [next, hs]; exact .inl rfl
  case case8 => cases h
  case case9 => cases h
  case case11 holder hs => exact .inr ⟨holder, hs, .inr ⟨rfl, rfl⟩⟩
  case case13 => cases h
  case case14 => cases h
  case case15 => exact .inl h
  all_goals exact .inl rfl

end PortLock

/-- A write at the called end gets nothing through, and is not to be tried again. -/
def Network.cuts (n : Network) (x : LinkId) (bytes : Bytes) (chance : Chance) : Bool :=
  match (n.say x .callee bytes chance).1 with
  | .took count => count = 0
  | .failed f => f.kind ≠ .interrupted
  | _ => false

/-- The part of a world that decides what becomes of connections. -/
structure Estate where
  network : Network
  holders : List Holder
  works : List (Option Work)

/-- The estate of a world. -/
def World.estate (w : World) : Estate := ⟨w.network, w.holders, w.threads.map Activity.work?⟩

namespace Estate

/-- Changes a holder. -/
def setHolder (E : Estate) (h : HolderId) (next : Holder × Network) : Estate :=
  { E with holders := E.holders.set h next.1, network := next.2 }

/-- Changes a work. -/
def setWork (E : Estate) (t : ThreadId) (W : Option Work) : Estate :=
  { E with works := E.works.set t W }

/-- What the system does for a work, and how the work goes on. -/
inductive Labour (E : Estate) (W : Work) (chance : Chance) : Option Work → Estate → Prop
  | stuck : Labour E W chance (some W) E
  | drained {holder : Holder} (hs : W.stage = .draining)
      (hh : E.holders[W.holder]? = some holder) (hr : holder.registrar = none) :
    Labour E W chance (some { W with stage := .notify holder.registry.links })
      (E.setHolder W.holder ({ holder with registry := [] }, E.network))
  | wrote {x : LinkId} {rest : Bytes} {queue : List LinkId} {count : Nat} {n : Network}
      (hs : W.stage = .notifying x rest queue)
      (hw : E.network.write x .callee (rest.take count) = .ok n) :
    Labour E W chance (some { W with stage := .notifying x (rest.drop count) queue })
      { E with network := n }
  | announced {x : LinkId} {rest : Bytes} {queue : List LinkId} {n : Network}
      (hs : W.stage = .notifying x rest queue) (hw : E.network.write x .callee rest = .ok n) :
    Labour E W chance (some { W with stage := .shutting x queue }) { E with network := n }
  | cut {x : LinkId} {rest : Bytes} {queue : List LinkId} {n : Network}
      (hs : W.stage = .notifying x rest queue) (hcut : E.network.cuts x rest chance = true)
      (hn : n = E.network ∨ E.network.write x .callee [] = .ok n) :
    Labour E W chance (some { W with stage := .shutting x queue }) { E with network := n }
  | shut {x : LinkId} {queue : List LinkId} {n : Network} (hs : W.stage = .shutting x queue)
      (hn : n = E.network ∨ E.network.finish x .callee = .ok n) :
    Labour E W chance (some { W with stage := .discarding x queue }) { E with network := n }
  | discarded {x : LinkId} {queue : List LinkId} (hs : W.stage = .discarding x queue) :
    Labour E W chance (some { W with stage := .notify queue })
      { E with network := E.network.release x .callee }
  | stopped {holder : Holder} (hs : W.stage = .stopping)
      (hh : E.holders[W.holder]? = some holder) :
    Labour E W chance (some { W with stage := .joining })
      (E.setHolder W.holder ({ holder with stopping := true }, E.network))
  | joined {holder : Holder} (hs : W.stage = .joining)
      (hh : E.holders[W.holder]? = some holder) (hw : holder.worker = .gone) :
    Labour E W chance
      (some { W with stage := if W.orderly then .sweeping else .abandoning }) E
  | swept {holder : Holder} (hs : W.stage = .sweeping)
      (hh : E.holders[W.holder]? = some holder) (hr : holder.registrar = none) :
    Labour E W chance (some { W with stage := .clear holder.registry.links })
      (E.setHolder W.holder ({ holder with registry := [] }, E.network))
  | cleared {x : LinkId} {queue : List LinkId} (hs : W.stage = .clearing x queue) :
    Labour E W chance (some { W with stage := .clear queue })
      { E with network := E.network.release x .callee }
  | abandoned {holder : Holder} (hs : W.stage = .abandoning)
      (hh : E.holders[W.holder]? = some holder) :
    Labour E W chance none
      (E.setHolder W.holder (({ holder with kept := false } : Holder).settle E.network))

/-- What an event does to an estate. A work begins for a holder that is stored in a lock. -/
inductive Moves (E : Estate) (stored : HolderId → Prop) : Event → Estate → Prop
  | quiet {e : Event} {n : Network} (hn : E.network.Like n) : Moves E stored e { E with network := n }
  | grew {e : Event} : Moves E stored e { E with works := E.works ++ [none] }
  | began {e : Event} {t : ThreadId} {W : Work} (hfree : E.works[t]? = some none)
      (hstored : stored W.holder)
      (hstage : W.stage = if W.orderly then .draining else .stopping) :
    Moves E stored e (E.setWork t (some W))
  | laboured {t : ThreadId} {chance : Chance} {W : Work} {W' : Option Work} {E' : Estate}
      (hW : E.works[t]? = some (some W)) (hl : E.Labour W chance W' E') :
    Moves E stored (.step (.thread t) chance) (E'.setWork t W')
  | founded {e : Event} (s : Settings) (ℓ : ListenerId) :
    Moves E stored e { E with holders := E.holders ++ [Holder.found s ℓ] }
  | unbound {e : Event} (ℓ : ListenerId) : Moves E stored e { E with network := E.network.unbind ℓ }
  | connected {e : Event} {source target : Endpoint} {x : LinkId} {n : Network}
      (hc : E.network.connect source target = .ok (x, n)) : Moves E stored e { E with network := n }
  | polled {e : Event} {h : HolderId} {holder : Holder} {next : Holder × Network}
      (hh : E.holders[h]? = some holder) (hp : holder.Polled E.network next.1 next.2) :
    Moves E stored e (E.setHolder h next)
  | attended {h : HolderId} {k : Nat} {chance : Chance} {holder : Holder} {a : Attendant}
      {next : Holder × Network} (hh : E.holders[h]? = some holder)
      (hk : holder.attendants[k]? = some a)
      (ha : holder.Attended E.network k a chance next.1 next.2) :
    Moves E stored (.step (.attendant h k) chance) (E.setHolder h next)
  | shuffled {e : Event} {h : HolderId} {holder : Holder} {registry : Registry}
      (hh : E.holders[h]? = some holder) (hperm : registry.Perm holder.registry) :
    Moves E stored e (E.setHolder h ({ holder with registry }, E.network))

end Estate

namespace World

variable {w w' w₁ : World} {t : ThreadId} {i : LockId}

/-- A holder is stored in a lock. -/
def Stores (w : World) (h : HolderId) : Prop :=
  ∃ i l, w.lock? i = some l ∧ l.state = .holding h

theorem serve?_write {s : Settings} {chance : Chance} {x : LinkId} {bytes : Bytes} :
    w.serve? s chance (.write x bytes) = some ((w.network.say x .callee bytes chance).1,
      { w with network := (w.network.say x .callee bytes chance).2 }) := rfl

theorem labour_of_write {s : Settings} {W : Work} {chance : Chance} {r : Reply} {x : LinkId}
    {rest : Bytes} {queue : List LinkId} (hs : W.stage = .notifying x rest queue)
    (h : w.serve? s chance (.write x rest) = some (r, w₁)) :
    w.estate.Labour W chance (W.next r) w₁.estate := by
  rw [serve?_write] at h
  rcases hsay : w.network.say x .callee rest chance with ⟨reply, n⟩
  rw [hsay] at h
  cases h
  rcases Network.say_cases hsay with ⟨f, rfl, rfl⟩ | ⟨count, rfl, hw⟩
  · by_cases hf : f.kind = .interrupted
    · have hnext := Work.next_going (r := .failed f) hs (if_pos hf)
      rw [hnext, ← hs]
      exact .stuck
    · have hnext := Work.next_going (r := .failed f) hs (if_neg hf)
      have hcut : w.network.cuts x rest chance = true := by simp [Network.cuts, hsay, hf]
      rw [hnext]
      exact .cut hs hcut (.inl rfl)
  · by_cases hzero : (rest.take count).length = 0
    · have hnext := Work.next_going (r := .took (rest.take count).length) hs
        (if_pos (by simp [hzero]))
      rw [hnext]
      rw [List.eq_nil_of_length_eq_zero hzero] at hw hsay
      have hcut : w.network.cuts x rest chance = true := by simp [Network.cuts, hsay]
      exact .cut hs hcut (.inr hw)
    · by_cases hall : rest.length ≤ count
      · rw [List.take_of_length_le hall] at hw hzero ⊢
        have hnext := Work.next_going (r := .took rest.length) hs (if_pos (by simp))
        rw [hnext]
        exact .announced hs hw
      · have hlen : (rest.take count).length = count := by
          rw [List.length_take]; omega
        rw [hlen] at hzero ⊢
        have hnext := Work.next_going (r := .took count) hs (if_neg (by simp [hzero, hall]))
        rw [hnext]
        exact .wrote hs hw

theorem labour_of_serve? {s : Settings} {W : Work} {chance : Chance} {r : Reply}
    (h : w.serve? s chance (W.stage.request W.holder) = some (r, w₁)) :
    w.estate.Labour W chance (W.next r) w₁.estate := by
  obtain ⟨holder, orderly, stage⟩ := W
  have hserved := served_of_serve? h
  cases stage
  case notifying x rest queue => exact labour_of_write rfl h
  case draining =>
    have hserved : w.Served s (.drain holder) r w₁ := hserved
    cases hserved
    case failed => exact .stuck
    case drained hr hh => exact .drained rfl hh hr
  case shutting x queue =>
    have hserved : w.Served s (.shut x) r w₁ := hserved
    cases hserved
    case failed => exact .shut rfl (.inl rfl)
    case shut hf => exact .shut rfl (.inr hf)
  case discarding x queue =>
    have hserved : w.Served s (.discard x) r w₁ := hserved
    cases hserved
    case failed => exact .stuck
    case discarded => exact .discarded rfl
  case stopping =>
    have hserved : w.Served s (.stop holder) r w₁ := hserved
    cases hserved
    case failed => exact .stuck
    case stopped hh => exact .stopped rfl hh
  case joining =>
    have hserved : w.Served s (.join holder) r w₁ := hserved
    cases hserved
    case failed => exact .stuck
    case joined hw hh => exact .joined rfl hh hw
  case sweeping =>
    have hserved : w.Served s (.drain holder) r w₁ := hserved
    cases hserved
    case failed => exact .stuck
    case drained hr hh => exact .swept rfl hh hr
  case clearing x queue =>
    have hserved : w.Served s (.discard x) r w₁ := hserved
    cases hserved
    case failed => exact .stuck
    case discarded => exact .cleared rfl
  case abandoning =>
    have hserved : w.Served s (.abandon holder) r w₁ := hserved
    cases hserved
    case failed => exact .stuck
    case abandoned hh => exact .abandoned rfl hh

theorem set_same {α : Type} {xs : List α} {k : Nat} {a : α} (h : xs[k]? = some a) :
    xs.set k a = xs := by
  obtain ⟨hlt, rfl⟩ := List.getElem?_eq_some_iff.mp h
  exact List.set_getElem_self hlt

theorem estate_settle (l : PortLock) (p : Progress Call Ending) :
    (w.settle t i l p).estate = w.estate.setWork t (p.call?.bind Call.work?) := by
  rw [settle_eq]
  simp [World.estate, Estate.setWork, List.map_set, Progress.work?_activity]

theorem Served.moves {s : Settings} {e : Event} {c : Call} {r : Reply} (hc : c.work? = none)
    (hs : w.Served s (c.request s) r w₁) : w.estate.Moves w.Stores e w₁.estate := by
  have hcontact := Call.not_isDemolition (s := s) hc
  generalize c.request s = q at hs hcontact
  cases hs
  case founded => exact .founded _ _
  case unbound => exact .unbound _
  case connected hn => exact .connected hn
  case bound hn => exact .quiet (Network.like_bind hn)
  case sent hn => exact .quiet (Network.like_write hn)
  case heard hn => exact .quiet (Network.like_hear? hn)
  case hungUp => exact .quiet (Network.like_hangUp _ _)
  case drained | wrote | shut | discarded | stopped | joined | abandoned => cases hcontact
  all_goals exact .quiet (.refl _)

theorem moves_threadStep {chance : Chance} {c : Call} {l : PortLock} {r : Reply}
    (ht : w.threads[t]? = some (.busy i c)) (hl : w.lock? i = some l)
    (hs : w.serve? l.settings chance (c.request l.settings) = some (r, w₁)) :
    w.estate.Moves w.Stores (.step (.thread t) chance)
      (w₁.settle t i (l.step t c r).1 (l.step t c r).2).estate := by
  have hserved := served_of_serve? hs
  have hold : w.estate.works[t]? = some c.work? := by
    simp [World.estate, ht, Activity.work?]
  have hold₁ : w₁.estate.works[t]? = some c.work? := by
    simp [World.estate, hserved.threads, ht, Activity.work?]
  rw [estate_settle]
  rcases hc : c.work? with _ | W
  · rw [hc] at hold hold₁
    rcases PortLock.work?_step_none (l := l) (t := t) (r := r) hc with hnone | ⟨k, hk, hbegin⟩
    · have hsame : w₁.estate.setWork t none = w₁.estate := by
        unfold Estate.setWork; rw [set_same hold₁]
      rw [hnone, hsame]
      exact hserved.moves hc
    · have hrest : w₁ = w := by
        rcases hbegin with ⟨rfl, -⟩ | ⟨rfl, -⟩
        all_goals
          have hserved : w.Served l.settings .nothing r w₁ := hserved
          cases hserved <;> rfl
      subst hrest
      rcases hbegin with ⟨-, hbegin⟩ | ⟨-, hbegin⟩
      · rw [hbegin]; exact .began hold ⟨i, l, hl, hk⟩ rfl
      · rw [hbegin]; exact .began hold ⟨i, l, hl, hk⟩ rfl
  · have hreq : c.request l.settings = W.stage.request W.holder := by
      rcases c with _ | _ | c | _ | _ | _ | _ | ⟨holder, d⟩ | _ | _ | ⟨holder, d⟩
      case dismantling | dropping => cases hc; rfl
      all_goals cases hc
    rw [hc] at hold
    rw [hreq] at hs
    rw [PortLock.work?_step_some hc]
    exact .laboured hold (labour_of_serve? hs)

theorem deed_like (w : World) (x : LinkId) (d : Deed) :
    w.network.Like (w.deed x d).network := by
  unfold World.deed
  split
  · split
    · next hw => exact Network.like_write hw
    · exact .refl _
  · exact Network.like_take _ _
  · split
    · next hf => exact Network.like_finish hf
    · exact .refl _
  · exact Network.like_hangUp _ _

theorem moves_of_happened {e : Event} (ho : w.occupants = []) (he : w.Happened e w') :
    w.estate.Moves w.Stores e w'.estate := by
  rcases he with ⟨ht, hl, hs⟩ | ⟨hh, hp⟩ | ⟨hh, ha⟩ | ⟨ho', -⟩ | ⟨hl, ht, hfree⟩ | ⟨hl⟩ | s | _ |
    ⟨hc⟩ | ⟨x, d⟩ | ⟨⟨hh, hperm⟩⟩
  case threadStep => exact moves_threadStep ht hl hs
  case workerStep => exact .polled hh (Holder.polled_of_poll? hp)
  case attendantStep =>
    obtain ⟨a, hk, ha⟩ := Holder.attended_of_attend? ha
    exact .attended hh hk ha
  case occupantStep => simp [ho] at ho'
  case begun t i kind _ _ =>
    have hfree : w.estate.works[t]? = some none := by simp [World.estate, ht, Activity.work?]
    have hnone : Activity.work? (.busy i kind.call) = none := by cases kind <;> rfl
    have hsame : ({ w with threads := w.threads.set t (.busy i kind.call) } : World).estate =
        w.estate := by
      have hworks : (w.threads.map Activity.work?).set t none = w.threads.map Activity.work? :=
        set_same hfree
      unfold World.estate
      rw [List.map_set, hnone, hworks]
    rw [hsame]
    exact .quiet (.refl _)
  case stirred => exact .quiet (.refl _)
  case lockMade => exact .quiet (.refl _)
  case threadMade =>
    have hgrew : ({ w with threads := w.threads ++ [.free none] } : World).estate =
        { w.estate with works := w.estate.works ++ [none] } := by
      simp [World.estate, Activity.work?]
    rw [hgrew]
    exact .grew
  case called => exact .connected hc
  case done =>
    obtain ⟨_, hd⟩ := deed_eq w x d
    have hlike := deed_like w x d
    rw [hd] at hlike ⊢
    exact .quiet hlike
  case shuffled => exact .shuffled hh hperm

end World

end LoopbackLock
