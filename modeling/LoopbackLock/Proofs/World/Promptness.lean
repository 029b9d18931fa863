import LoopbackLock.Proofs.Timing.Ensuing
import LoopbackLock.Proofs.World.Readiness

/-!
# Challenges in time

Locks with the same settings among themselves, where only waits take time: the rest of an accepting
worker, and reads that run into their limits. As long as a rest is shorter than a challenge, no
challenge runs out of time. The worker at whose listener a challenger waits has been resting since
before the challenger began to listen, so it looks for connections again in time
(`Timely.ensues`).
-/

namespace LoopbackLock

variable {s : Settings} {x : LinkId} {t : ThreadId} {ch ch₀ : Challenge} {h : HolderId}
variable {holder : Holder}

/-- What the threads of locks with these settings do of their own accord, and what becomes of the
order of a registry. -/
def Event.isOfParties (s : Settings) : Event → Bool
  | begins .. | stir .. | newThread | shuffle .. => true
  | newLock s' => s' = s
  | _ => false

/-- The challenge has a connection, and has asked nothing yet. -/
def Challenge.IsEarly (x : LinkId) : Challenge → Prop
  | limiting y | asking y => y = x
  | _ => False

namespace World

variable {w w' : World} {m : Option Actor} {a : Actor} {chance : Chance} {e : Event}

/-- The threads of locks with these settings do something of their own accord, or a registry comes
to yield its entries in another order. -/
def Parties (s : Settings) (w w' : World) : Prop :=
  ∃ e : Event, e.isOfParties s = true ∧ w.happen? e = some w'

/-! ## What a step leaves -/

/-- What was before a step of one actor, or of none. -/
structure Follows (w : World) (m : Option Actor) (w' : World) : Prop where
  challenging : ∀ t ch, w'.Challenging t ch → m ≠ some (.thread t) → w.Challenging t ch
  early : ∀ t ch x, w'.Challenging t ch → ch.IsEarly x → ∃ ch₀, w.Challenging t ch₀ ∧
    (ch₀.IsEarly x ∨ ch₀ = .connecting ∧ w.network.links.length ≤ x)
  resting : ∀ (h : HolderId) (holder' : Holder), w'.holders[h]? = some holder' →
    holder'.worker = .resting → w'.network.backlog holder'.listener = [] ∨
      m ≠ some (.worker h) ∧ ∃ holder, w.holders[h]? = some holder ∧
        holder'.listener = holder.listener ∧ holder.worker = .resting
  standing : ∀ (h : HolderId) (holder' : Holder) (k : Nat) (a : Attendant),
    w'.holders[h]? = some holder' → holder'.attendants[k]? = some a → a.stage ≠ .preparing →
    m = some (.attendant h k) ∨
      ∃ holder, w.holders[h]? = some holder ∧ holder.attendants[k]? = some a
  recalls : ∀ x, x < w.network.links.length → w.network.Recalls x w'.network

theorem Follows.refl (w : World) : w.Follows none w where
  challenging _ _ hch _ := hch
  early _ ch _ hch hearly := ⟨ch, hch, .inl hearly⟩
  resting _ holder hh hrest := .inr ⟨nofun, holder, hh, rfl, hrest⟩
  standing _ holder _ _ hh hk _ := .inr ⟨holder, hh, hk⟩
  recalls _ _ _ hx := hx

/-- Whoever has not asked yet has just connected, or had not asked before. -/
theorem early_of_step {l : PortLock} {r : Reply} {w₁ : World}
    (hs : w.serve? l.settings chance (ch₀.request l.settings) = some (r, w₁))
    (hstep : ch₀.step l.settings r = .going ch) (hearly : ch.IsEarly x) :
    ch₀.IsEarly x ∨ ch₀ = .connecting ∧ w.network.links.length ≤ x := by
  have hserved := served_of_serve? hs
  cases ch₀
  case connecting =>
    cases hserved
    case failed =>
      simp only [Challenge.step] at hstep
      split at hstep <;> cases hstep
    case connected hconnect =>
      cases hstep
      obtain rfl : _ = x := hearly
      exact .inr ⟨rfl, Nat.le_of_eq (Network.length_connect hconnect).1.symm⟩
  case limiting =>
    cases hserved <;> cases hstep <;> first | exact .inl hearly | cases hearly
  case asking =>
    cases hserved <;> cases hstep <;> cases hearly
  case listening y reader begun =>
    have hturn : ∀ {turn : Turn}, Challenge.turn l.settings y turn = .going ch → False := by
      intro turn hstep
      rcases Challenge.turn_going hstep with ⟨_, _, rfl⟩ | ⟨_, rfl⟩ <;> exact hearly
    cases r
    case heard | failed => exact (hturn hstep).elim
    all_goals cases hstep; exact hearly.elim
  case closing =>
    cases hserved <;> cases hstep
    exact hearly.elim

/-- A worker that comes to rest has found nobody waiting. -/
theorem rests_of_poll? {next : Holder × Network} (hchance : chance = .plain ∨ chance = .expire)
    (hpoll : holder.poll? w.network chance = some next) (hrest : next.1.worker = .resting) :
    next.2.backlog next.1.listener = [] := by
  have haccept : ∀ {n : Network} {ℓ : ListenerId}, n.accept? ℓ = none → n.backlog ℓ = [] := by
    intro n ℓ hnone
    unfold Network.backlog
    rcases hl : n.listeners[ℓ]? with _ | l
    · rfl
    · unfold Network.accept? at hnone
      rcases hb : l.backlog with _ | ⟨y, rest⟩
      · simp [hb]
      · simp [hl, hb] at hnone
  have hplain : (∀ f, chance ≠ .fail f) := by rcases hchance with rfl | rfl <;> exact nofun
  unfold Holder.poll? at hpoll
  split at hpoll
  case h_1 =>
    split at hpoll <;> cases hpoll
    · rw [Holder.settle_worker] at hrest
      cases hrest
    · cases hrest
  case h_2 => exact absurd rfl (hplain _)
  case h_3 =>
    split at hpoll
    · cases hpoll
      cases hrest
    · next hnone => cases hpoll; exact haccept hnone
  case h_4 =>
    cases hpoll
    cases hrest
  all_goals cases hpoll

/-- A worker that rests and has somebody waiting was resting before, and made no step. -/
theorem Concerted.resting_of {holder' : Holder} (hw : w.Concerted s) (hp : w.Patient s e)
    (he : w.happen? e = some w') (hh' : w'.holders[h]? = some holder')
    (hrest : holder'.worker = .resting) : w'.network.backlog holder'.listener = [] ∨
      (∀ chance, e ≠ .step (.worker h) chance) ∧ ∃ holder, w.holders[h]? = some holder ∧
        holder'.listener = holder.listener ∧ holder.worker = .resting := by
  by_cases hworker : ∃ chance, e = .step (.worker h) chance
  · obtain ⟨chance, rfl⟩ := hworker
    obtain ⟨holder, hh, he⟩ := Option.bind_eq_some_iff.mp he
    obtain ⟨next, hpoll, rfl⟩ := Option.map_eq_some_iff.mp he
    rw [getElem?_setHolder hh, if_pos rfl] at hh'
    cases hh'
    exact .inl (rests_of_poll? hp hpoll hrest)
  · rcases (happened_of_happen? he).worker_of hw.agreeing.regular.unoccupied hh' with
      hmine | hcheck | ⟨holder, hh, hℓ, hw⟩
    · exact absurd hmine hworker
    · rw [hcheck] at hrest
      cases hrest
    · exact .inr ⟨fun chance heq => hworker ⟨chance, heq⟩, holder, hh, hℓ, hw ▸ hrest⟩

theorem Concerted.follows (hw : w.Concerted s) (hp : w.Patient s e) (he : w.happen? e = some w')
    (hm : ∀ a, m = some a ↔ ∃ chance, e = .step a chance) : w.Follows m w' := by
  have hhappened := happened_of_happen? he
  have hreg := hw.agreeing.regular
  constructor
  case challenging =>
    intro t ch hch hne
    rcases hhappened.challenging_of hreg.unoccupied hch with ⟨hch, -⟩ | ⟨chance, heq, -⟩
    · exact hch
    · exact absurd ((hm _).mpr ⟨chance, heq⟩) hne
  case early =>
    intro t ch x hch hearly
    rcases hhappened.challenging_of hreg.unoccupied hch with ⟨hch, -⟩ |
      ⟨chance, -, rfl | ⟨i, call, l, ch₀, r, w₁, ht, hc, -, hs, hstep, -⟩⟩
    · exact ⟨ch, hch, .inl hearly⟩
    · cases hearly
    · exact ⟨ch₀, ⟨i, call, ht, hc⟩, early_of_step hs hstep hearly⟩
  case resting =>
    intro h holder' hh' hrest
    refine (hw.resting_of hp he hh' hrest).imp_right (And.imp_left fun hne hmover => ?_)
    obtain ⟨chance, heq⟩ := (hm _).mp hmover
    exact hne chance heq
  case standing =>
    intro h holder' k a hh' hk' hstage
    by_cases hmover : m = some (.attendant h k)
    · exact .inl hmover
    · right
      have hne := fun chance heq => hmover ((hm _).mpr ⟨chance, heq⟩)
      exact (hhappened.attendant_of hreg hh' hk' hne).resolve_right hstage
  case recalls => exact fun x hx => hhappened.recalls hreg.unoccupied hx

/-! ## What waits for what -/

/-- The wait of a worker that rests ends when its poll time has passed. -/
theorem Concerted.rest (hw : w.Concerted s) (hh : w.holders[h]? = some holder)
    (hrest : holder.worker = .resting) : .worker h ∈ w.actors ∧
      w.step? (.worker h) .plain = none ∧ w.limit? (.worker h) = some s.acceptPoll.toNat := by
  refine ⟨worker_mem_actors hh (by rw [hrest]; exact nofun), ?_, ?_⟩
  · show (w.holders[h]?).bind _ = none
    rw [hh]
    simp [Holder.poll?, hrest]
  · have htimes : holder.acceptPoll = s.acceptPoll := congrArg Prod.snd (hw.times h holder hh)
    unfold World.limit?
    rcases holder with ⟨_, _, _, _, _, _, worker, _, _⟩
    obtain rfl : worker = .resting := hrest
    obtain rfl : _ = s.acceptPoll := htimes
    simp only [hh]

/-- The connection of a challenge exists. -/
theorem Concerted.link_of_challenging (hw : w.Concerted s) (hch : w.Challenging t ch)
    (hx : x ∈ ch.links) : x < w.network.links.length := by
  obtain ⟨i, call, ht, hc⟩ := hch
  have hopen := (hw.agreeing.owned.mine ht ((Call.of_challenge? hc s).2.2.2 x hx)).1
  refine Decidable.byContradiction fun hlt => hopen (Network.view_none ?_)
  exact List.getElem?_eq_none_iff.mpr (Nat.not_lt.mp hlt)

/-- A challenger that is not listening goes on. -/
theorem Concerted.ready_challenging (hw : w.Concerted s) (hch : w.Challenging t ch)
    (hlisten : ∀ x reader begun, ch ≠ .listening x reader begun) :
    .thread t ∈ w.actors ∧ (w.step? (.thread t) .plain).isSome = true := by
  obtain ⟨i, call, ht, hc⟩ := hch
  obtain ⟨l, hl⟩ := hw.agreeing.regular.orderly.present (callOn_eq_some.mpr ht)
  exact ⟨thread_mem_actors ht, ready_challenger ht hl hc hlisten⟩

/-- An attendant has something to read on a connection on which the question was asked. -/
theorem Concerted.unread {h : HolderId} {k : Nat} {a : Attendant} {reader : LineReader}
    {begun : Bool} (hw : w.Concerted s) (hf : w.Fate a.link true) (hh : w.holders[h]? = some holder)
    (hk : holder.attendants[k]? = some a) (hstage : a.stage = .reading reader begun) :
    (w.step? (.attendant h k) .plain).isSome = true := by
  have hacc := hw.agreeing.regular.accounted
  have hpen : a.stage.pen? = some .fresh := by rw [hstage]; rfl
  have hplace : w.estate.Has (.holder h (some k)) a.link .fresh := .holder hh (.attendant hk hpen)
  have hsame : ∀ {h' : HolderId} {k' : Nat} {holder' : Holder} {a' : Attendant},
      w.holders[h']? = some holder' → holder'.attendants[k']? = some a' → a'.link = a.link →
      a' = a := by
    intro h' k' holder' a' hh' hk' heq
    cases hacc.place_of_attendant hh' hk' (heq ▸ hplace) rfl
    cases hh.symm.trans hh'
    exact Option.some.inj (hk'.symm.trans hk)
  rcases hf with ⟨hx, hℓ, hl, ha⟩ | ⟨hh', hk', heq, hs, hl, ha⟩ |
    ⟨hh', hk', heq, hs, hl, hended, hreset⟩ | hanswer | ha
  case queued =>
    have hp : w.estate.Has .queue a.link .fresh := .waiting (Network.waiting_pos_of_backlog hx)
    cases hacc.place_of_attendant hh hk hp rfl
  case attended =>
    obtain rfl := hsame hh' hk' heq
    have hhear := Network.hear?_question hl ha.arrived
    exact ready_reading hh hk hstage (by rw [hhear]; rfl)
  case answering =>
    obtain rfl := hsame hh' hk' heq
    rw [hstage] at hs
    cases hs
  case answered =>
    have hsaid : w.network.said a.link = [] := (hw.agreeing.regular.answered hplace).1
    rw [hsaid] at hanswer
    cases List.prefix_nil.mp hanswer
  case astray => exact absurd rfl (ha.unattended h holder hh a (List.mem_of_getElem? hk))

/-! ## Time -/

variable {c c' : Course World Actor} {h₀ : HolderId}

/-- Locks among themselves of which none is late: a worker has been resting for longer than the
challenger that waits for it has been listening, nobody has waited for a question that is still to
be asked, and nobody has listened for longer than a worker rests. -/
structure Timely (s : Settings) (c : Course World Actor) : Prop where
  instant : c.IsInstant
  concerted : c.state.Concerted s
  resting : ∀ t ch x (h : HolderId) (holder : Holder), c.state.Challenging t ch → x ∈ ch.links →
    c.state.holders[h]? = some holder → holder.worker = .resting →
    x ∈ c.state.network.backlog holder.listener → c.since (.worker h) ≤ c.since (.thread t)
  reading : ∀ t ch (h : HolderId) (holder : Holder) (k : Nat) (a : Attendant) reader begun,
    c.state.Challenging t ch → c.state.holders[h]? = some holder →
    holder.attendants[k]? = some a → a.stage = .reading reader begun → ch.IsEarly a.link →
    c.since (.attendant h k) = c.now
  listening : ∀ t x reader begun, c.state.Challenging t (.listening x reader begun) →
    c.now ≤ c.since (.thread t) + s.acceptPoll.toNat * 1000

/-- Nothing has happened yet, and only waits take time. -/
def dawn : Course World Actor := { state := .blank .usual, pace := .instant }

theorem Timely.dawn (s : Settings) : Timely s dawn where
  instant := ⟨rfl, fun _ hs => by cases hs⟩
  concerted := .blank s
  resting _ _ _ _ _ _ _ hh := by cases hh
  reading _ _ _ _ _ _ _ _ _ hh := by cases hh
  listening _ _ _ _ hch := by
    obtain ⟨_, _, ht, -⟩ := hch
    cases ht

/-- However time goes on, whoever listens has not listened for longer than a worker rests. -/
theorem Timely.heard {reader : LineReader} {begun : Bool} (h : Timely s c)
    (ho : Course.Onward World.system c m c')
    (hch : c.state.Challenging t (.listening x reader begun)) :
    c'.now ≤ c.since (.thread t) + s.acceptPoll.toNat * 1000 := by
  rcases Nat.lt_or_ge c.now c'.now with hlt | hge
  · obtain ⟨i, call, ht, hc⟩ := id hch
    obtain ⟨h₀, holder, hh, hrest, hx⟩ := h.concerted.awaited (ho.quiet hlt) ht hc
    obtain ⟨hactor, -, hlimit⟩ := h.concerted.rest hh hrest
    have hsince := h.resting t _ x h₀ holder hch List.mem_cons_self hh hrest hx
    have hend := ho.limit hlt _ hactor _ hlimit
    omega
  · exact Nat.le_trans hge (h.listening t x reader begun hch)

/-- Time does not pass while somebody can go on. -/
theorem still {a : Actor} (ho : Course.Onward World.system c m c') (ha : a ∈ c.state.actors)
    (hready : (c.state.step? a .plain).isSome = true) : c'.now = c.now := by
  refine Nat.le_antisymm (Nat.not_lt.mp fun hlt => ?_) ho.le
  have hnone : c.state.step? a .plain = none := ho.quiet hlt a ha
  rw [hnone] at hready
  cases hready

/-- Whoever makes a step, or when time passes, nobody gets late. -/
theorem Timely.onward (h : Timely s c) (ho : Course.Onward World.system c m c')
    (hw : c'.state.Concerted s) (hf : c.state.Follows m c'.state) : Timely s c' where
  instant := ho.instant
  concerted := hw
  resting t ch x h₀ holder' hch hx hh' hrest hback := by
    rcases hf.resting h₀ holder' hh' hrest with hnone | ⟨hm, holder, hh, hℓ, hrest₀⟩
    · rw [hnone] at hback
      cases hback
    by_cases hmover : m = some (.thread t)
    · rw [ho.moved _ hmover]
      exact ho.instant.since_le _
    · have hch₀ := hf.challenging t ch hch hmover
      have hback₀ := hf.recalls x (h.concerted.link_of_challenging hch₀ hx) _ (hℓ ▸ hback)
      obtain ⟨hactor, hnone, -⟩ := h.concerted.rest hh hrest₀
      obtain ⟨i, call, ht, -⟩ := id hch₀
      calc c'.since (.worker h₀) = c.since (.worker h₀) := ho.waits _ hactor hnone hm
        _ ≤ c.since (.thread t) := h.resting t ch x h₀ holder hch₀ hx hh hrest₀ hback₀
        _ ≤ c'.since (.thread t) := ho.since _ (thread_mem_actors ht)
  reading t ch h₀ holder' k a reader begun hch hh' hk' hstage hearly := by
    rcases hf.standing h₀ holder' k a hh' hk' (by simp [hstage]) with
      hm | ⟨holder, hh, hk⟩
    · exact ho.moved _ hm
    obtain ⟨ch₀, hch₀, hearly₀ | ⟨rfl, hnew⟩⟩ := hf.early t ch a.link hch hearly
    · -- The challenger can go on, so no time passes before it has asked.
      have hlisten : ∀ x reader begun, ch₀ ≠ .listening x reader begun := by
        rintro x reader begun rfl
        exact hearly₀
      obtain ⟨hactor, hready⟩ := h.concerted.ready_challenging hch₀ hlisten
      have hnow : c'.now = c.now := still ho hactor hready
      have hmine := attendant_mem_actors hh hk (by simp [hstage])
      have hsince := h.reading t ch₀ h₀ holder k a reader begun hch₀ hh hk hstage hearly₀
      refine Nat.le_antisymm (ho.instant.since_le _) ?_
      calc c'.now = c.since (.attendant h₀ k) := hnow.trans hsince.symm
        _ ≤ c'.since (.attendant h₀ k) := ho.since _ hmine
    · have hpen : a.stage.pen? = some .fresh := by rw [hstage]; rfl
      have hplace : c.state.estate.Has (.holder h₀ (some k)) a.link .fresh :=
        .holder hh (.attendant hk hpen)
      have hold := h.concerted.agreeing.regular.accounted.link_of_place hplace rfl
      exact absurd hold (Nat.not_lt.mpr hnew)
  listening t x reader begun hch := by
    by_cases hmover : m = some (.thread t)
    · rw [ho.moved _ hmover]
      exact Nat.le_add_right ..
    · have hch₀ := hf.challenging t _ hch hmover
      have hheard := h.heard ho hch₀
      obtain ⟨i, call, ht, -⟩ := hch₀
      have hsince := ho.since _ (thread_mem_actors ht)
      omega

/-- An attendant on the connection of a challenge does not stop reading: while the question is still
to be asked no time passes, and once it was asked there is something to read. -/
theorem Timely.attends {k : Nat} {a : Attendant} {reader : LineReader} {begun : Bool}
    (hvalid : s.validate = .ok s) (h : Timely s c) (ho : Course.Onward World.system c m c')
    (hh : c.state.holders[h₀]? = some holder) (hk : holder.attendants[k]? = some a)
    (hstage : a.stage = .reading reader begun) (hch : c.state.Challenging t ch)
    (hx : a.link ∈ ch.links) (hnone : c.state.step? (.attendant h₀ k) .plain = none) :
    c'.now < c.since (.attendant h₀ k) + s.challengeTimeout.toNat * 1000 := by
  have hpositive : 0 < s.challengeTimeout.toNat := by
    refine Nat.pos_of_ne_zero fun hzero => (Settings.valid_cases hvalid).2.2.1 ?_
    exact UInt64.toNat_inj.mp hzero
  have hearly : ch.IsEarly a.link →
      c'.now < c.since (.attendant h₀ k) + s.challengeTimeout.toNat * 1000 := by
    intro hearly
    have hlisten : ∀ x reader begun, ch ≠ .listening x reader begun := by
      rintro x reader begun rfl
      exact hearly
    obtain ⟨hactor, hready⟩ := h.concerted.ready_challenging hch hlisten
    have hnow : c'.now = c.now := still ho hactor hready
    rw [h.reading t ch h₀ holder k a reader begun hch hh hk hstage hearly, hnow]
    omega
  obtain ⟨i, call, ht, hc⟩ := hch
  have hf := h.concerted.fated t i call ch ht hc
  cases ch
  case connecting => cases hx
  all_goals obtain rfl := List.mem_singleton.mp hx
  case limiting | asking => exact hearly rfl
  case closing => exact absurd rfl (Astray.unattended hf h₀ holder hh a (List.mem_of_getElem? hk))
  case listening =>
    have hready := h.concerted.unread hf hh hk hstage
    rw [hnone] at hready
    cases hready

/-- Nobody stops waiting in a challenge. -/
theorem Timely.patient (hvalid : s.validate = .ok s) (hlt : s.acceptPoll < s.challengeTimeout)
    (h : Timely s c) (hm : Course.Moves World.system c a chance c') :
    c.state.Patient s (.step a chance) := by
  have hless : s.acceptPoll.toNat < s.challengeTimeout.toNat := UInt64.lt_iff_toNat_lt.mp hlt
  rcases a with t | h₀ | ⟨h₀, k⟩ | o
  case occupant => trivial
  case worker => exact hm.chance.imp_right And.left
  case thread =>
    refine hm.chance.imp_right fun ⟨hchance, _, limit, hlimit, hend⟩ => ⟨hchance, fun i call ht => ?_⟩
    obtain ⟨i', call', l, y, given, ht', hl, hrequest, rfl⟩ := limit?_thread hlimit
    cases ht.symm.trans ht'
    rcases hc : call.challenge? with _ | ch
    · rfl
    · -- Only a challenger that listens waits, and its time is not over.
      rw [(Call.of_challenge? hc l.settings).1] at hrequest
      cases ch
      case listening x reader begun =>
        cases hrequest
        have hsettings : l.settings = s := h.concerted.alike i l hl
        rw [hsettings] at hend
        have hheard := h.heard hm.onward ⟨i, call, ht, hc⟩
        omega
      all_goals cases hrequest
  case attendant =>
    refine hm.chance.imp_right fun ⟨hchance, hnone, limit, hlimit, hend⟩ =>
      ⟨hchance, fun holder a hh hk t i call ch ht hc hx => ?_⟩
    obtain ⟨holder', a', reader, begun, hh', hk', hstage, rfl⟩ := limit?_attendant hlimit
    cases hh.symm.trans hh'
    cases hk.symm.trans hk'
    have htimes : holder.challengeTimeout = s.challengeTimeout :=
      congrArg Prod.fst (h.concerted.times h₀ holder hh)
    rw [htimes] at hend
    have hattends := h.attends hvalid hm.onward hh hk hstage ⟨i, call, ht, hc⟩ hx hnone
    omega

/-- Whatever comes next, nobody gets late. -/
theorem Timely.ensues (hvalid : s.validate = .ok s) (hlt : s.acceptPoll < s.challengeTimeout)
    (h : Timely s c) (he : Course.Ensues World.system (Parties s) c c') : Timely s c' := by
  rcases Course.Ensues.cases h.instant he with ⟨ho, hsame⟩ | ⟨a, chance, hm⟩ |
    ⟨a, ha, hnone, hlimit, hexpire⟩ | ⟨⟨e, hparties, hstep⟩, hnow, hseats, hpace⟩
  · refine h.onward ho (hsame ▸ h.concerted) ?_
    rw [hsame]
    exact .refl _
  · have hpatient := h.patient hvalid hlt hm
    have hstep : c.state.happen? (.step a chance) = some c'.state := hm.step
    refine h.onward hm.onward (h.concerted.happened hvalid hpatient hstep)
      (h.concerted.follows hpatient hstep fun b => ⟨fun heq => ?_, fun ⟨_, heq⟩ => ?_⟩)
    · cases heq
      exact ⟨chance, rfl⟩
    · cases heq
      rfl
  · have hready := expires h.concerted.agreeing.regular.unoccupied hnone hlimit
    have hexpire : c.state.step? a .expire = none := hexpire
    rw [hexpire] at hready
    cases hready
  · have hpatient : c.state.Patient s e := by
      cases e
      case newLock s' =>
        have halike : s' = s := of_decide_eq_true hparties
        exact halike
      case step | call | deed => cases hparties
      all_goals trivial
    refine h.onward (h.instant.meets hnow hseats hpace)
      (h.concerted.happened hvalid hpatient hstep)
      (h.concerted.follows hpatient hstep fun b => ⟨nofun, ?_⟩)
    rintro ⟨chance, rfl⟩
    cases hparties

/-- Whatever comes of the dawn, nobody gets late. -/
theorem Timely.reaches (hvalid : s.validate = .ok s) (hlt : s.acceptPoll < s.challengeTimeout)
    (hr : Course.Reaches World.system (Parties s) World.dawn c) : Timely s c := by
  induction hr with
  | here => exact .dawn s
  | step _ he ih => exact ih.ensues hvalid hlt he

/-! ## Answers in time -/

/-- A holder has to do with the connection: it waits at the holder's listener, or one of the
holder's attendants is at it. -/
def Faces (w : World) (x : LinkId) : Prop :=
  ∃ (h : HolderId) (holder : Holder), w.holders[h]? = some holder ∧
    (x ∈ w.network.backlog holder.listener ∨ ∃ a ∈ holder.attendants, a.link = x)

/-- Challenges are answered in time. -/
structure Prompt (s : Settings) (c : Course World Actor) : Prop where
  /-- No acquisition has failed. -/
  unfailed : ∀ (t : ThreadId) (why : LockError),
    c.state.threads[t]? ≠ some (.free (some (.failed why)))
  /-- A verdict is that the occupant is a lock, or that it departed. -/
  unmistaken : ∀ t verdict, c.state.verdict? t .plain = some verdict →
    verdict.isOk = true ∨ verdict = .error .departed
  /-- The verdict on a holder that has the connection is that it is a lock. -/
  confirmed : ∀ t ch x verdict, c.state.Challenging t ch → x ∈ ch.links → c.state.Faces x →
    c.state.verdict? t .plain = some verdict → verdict.isOk = true
  /-- Whoever listens for an answer has time left. -/
  punctual : ∀ t x reader begun, c.state.Challenging t (.listening x reader begun) →
    c.now < c.since (.thread t) + s.challengeTimeout.toNat * 1000

/-- Only a challenge without a connection, or one that closes it, refuses the occupant. -/
theorem refused_cases {r : Reply} {why : Refusal} (hstep : ch.step s r = .over (.error why)) :
    ch = .connecting ∨ ∃ x why, ch = .closing x why := by
  have hturn : ∀ {y : LinkId} {turn : Turn},
      Challenge.turn s y turn ≠ .over (.error why) := by
    intro y turn hstep
    rcases turn with ⟨result, reader⟩ | ⟨reader, begun⟩
    · unfold Challenge.turn Challenge.judge at hstep
      dsimp only at hstep
      split at hstep
      case h_5 => split at hstep <;> cases hstep
      all_goals cases hstep
    · cases hstep
  cases ch
  case connecting => exact .inl rfl
  case closing => exact .inr ⟨_, _, rfl⟩
  case listening =>
    cases r
    case heard | failed => exact absurd hstep hturn
    all_goals cases hstep
  case limiting | asking => cases r <;> cases hstep

theorem Timely.prompt (hlt : s.acceptPoll < s.challengeTimeout) (h : Timely s c) : Prompt s c where
  unfailed t why ht := h.concerted.agreeing.fares t _ ht
  unmistaken t verdict hv := by
    refine h.concerted.agreeing.verdict ?_ hv
    unfold World.cooperates
    simp only
    split
    · next call _ => exact call.isSpared_plain
    · rfl
  confirmed t ch x verdict hch hx hface hv := by
    rcases verdict with why | p
    · exfalso
      obtain ⟨i, call, ht, hc⟩ := hch
      obtain ⟨i', call', l, ch', r, w₁, ht', -, hc', -, hstep⟩ := verdict?_eq_some hv
      cases ht.symm.trans ht'
      cases hc.symm.trans hc'
      rcases refused_cases hstep with rfl | ⟨y, why', rfl⟩
      · cases hx
      · obtain rfl := List.mem_singleton.mp hx
        have hastray : c.state.Astray x := h.concerted.fated t i call _ ht hc
        obtain ⟨h₀, holder, hh, hback | ⟨a, ha, hax⟩⟩ := hface
        · have hpos := Network.waiting_pos_of_backlog hback
          rw [hastray.waiting] at hpos
          cases hpos
        · exact hastray.unattended h₀ holder hh a ha hax
    · rfl
  punctual t x reader begun hch := by
    have hless : s.acceptPoll.toNat < s.challengeTimeout.toNat := UInt64.lt_iff_toNat_lt.mp hlt
    have hheard := h.listening t x reader begun hch
    omega

end World

end LoopbackLock
