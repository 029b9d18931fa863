import LoopbackLock.Proofs.World.Aside

/-!
# What becomes of a question

A contender connects, asks and listens. Its connection waits until it is accepted, then an attendant
reads the question and answers it; or the listener closes first, and the connection is lost
(`World.Fate`). As long as no read runs out of time there is no other way, whatever else happens
(`Agreeing.fate_others`).
-/

namespace LoopbackLock

variable {x : LinkId} {w w' : World} {e : Event}

/-- The line that asks whether the occupant is a lock. -/
def Challenge.question : Bytes := Text.encode Message.check.line

theorem Attendance.turn_question :
    turn (({} : LineReader).supply false (.ok Challenge.question)) = answering answer := by
  decide +kernel

theorem Challenge.take_question : question.take readLimit = question := by decide +kernel

theorem Challenge.question_ne_nil : question ≠ [] := by decide +kernel

/-- The question, if it was asked, has arrived, and nothing has come back. -/
structure Link.Awaits (asked : Bool) (l : Link) : Prop where
  arrived : l.callee.inbox = if asked then Challenge.question else []
  ended : l.caller.ended = false
  reset : l.caller.reset = false
  finished : l.caller.finished = false

namespace Network

variable {n : Network} {side : Side} {l : Link}

/-- A read finds what has arrived. -/
theorem hear?_inbox (hl : n.links[x]? = some l) (hne : (l.atSide side).inbox ≠ []) :
    n.hear? x side .plain = some (.heard ((l.atSide side).inbox.take readLimit),
      n.modifyLink x (·.take side ((l.atSide side).inbox.take readLimit).length)) := by
  have hfound : (l.atSide side).found readLimit =
      some (.ok ((l.atSide side).inbox.take readLimit)) := if_pos hne
  unfold Network.hear? Network.read?
  simp [hl, hfound, Network.replyOf]

/-- A read waits where nothing has arrived and nobody has hung up. -/
theorem hear?_empty (hl : n.links[x]? = some l) (hinbox : (l.atSide side).inbox = [])
    (hended : (l.atSide side).ended = false) (hreset : (l.atSide side).reset = false) :
    n.hear? x side .plain = none := by
  have hfound : (l.atSide side).found readLimit = none := by
    unfold End.found
    simp [hinbox, hended, hreset]
  unfold Network.hear? Network.read?
  simp [hl, hfound]

/-- A read does not wait where the other end has hung up. -/
theorem hear?_over (hl : n.links[x]? = some l)
    (hover : (l.atSide side).ended = true ∨ (l.atSide side).reset = true) :
    (n.hear? x side .plain).isSome = true := by
  have hfound : ((l.atSide side).found readLimit).isSome = true := by
    unfold End.found
    split
    · rfl
    · split
      · rfl
      · next hended => rw [if_pos (hover.resolve_left hended)]; rfl
  obtain ⟨answer, hanswer⟩ := Option.isSome_iff_exists.mp hfound
  unfold Network.hear? Network.read?
  rcases answer with k | bytes <;> simp [hl, hanswer]

/-- A question that has arrived is heard. -/
theorem hear?_question (hl : n.links[x]? = some l) (hinbox : l.callee.inbox = Challenge.question) :
    n.hear? x .callee .plain = some (.heard Challenge.question,
      n.modifyLink x (·.take .callee Challenge.question.length)) := by
  have hinbox : (l.atSide .callee).inbox = Challenge.question := hinbox
  rw [hear?_inbox hl (hinbox ▸ Challenge.question_ne_nil), hinbox, Challenge.take_question]

end Network

/-- What waits does not come out of nothing. -/
theorem Estate.Moves.waiting_le {E E' : Estate} {stored : HolderId → Prop}
    (hm : E.Moves stored e E') (hx : x < E.network.links.length) :
    E'.network.waiting x ≤ E.network.waiting x := by
  cases hm
  case quiet hn => exact Nat.le_of_eq (congrFun hn.waiting x)
  case unbound ℓ =>
    have := Network.waiting_unbind E.network ℓ x
    show (E.network.unbind ℓ).waiting x ≤ _
    omega
  case connected y n hc =>
    have hne : x ≠ y := by
      rw [(Network.length_connect hc).1]
      exact Nat.ne_of_lt hx
    show n.waiting x ≤ _
    rw [Network.waiting_connect hc, if_neg hne]
    exact Nat.le_refl _
  case polled hp => exact hp.speech.2.2.1 x
  case attended ha => exact Nat.le_of_eq (congrFun ha.ends.1 x)
  case laboured hl =>
    cases hl
    case wrote hw => exact Nat.le_of_eq (congrFun (Network.write_callee hw).2.2.1 x)
    case announced hw => exact Nat.le_of_eq (congrFun (Network.write_callee hw).2.2.1 x)
    case cut hn =>
      rcases hn with rfl | hw
      · exact Nat.le_refl _
      · exact Nat.le_of_eq (congrFun (Network.write_callee hw).2.2.1 x)
    case shut hn =>
      rcases hn with rfl | hf
      · exact Nat.le_refl _
      · exact Nat.le_of_eq (congrFun (Network.finish_callee hf).2.2.1 x)
    case abandoned holder _ _ =>
      exact Nat.le_of_eq (congrFun (({ holder with kept := false } : Holder).settle_ends _).2.2.1 x)
    all_goals exact Nat.le_refl _
  all_goals exact Nat.le_refl _

namespace World

theorem getElem?_setHolder {h : HolderId} {holder : Holder} (hh : w.holders[h]? = some holder)
    (next : Holder × Network) (h' : HolderId) :
    (w.setHolder h next).holders[h']? = if h' = h then some next.1 else w.holders[h']? :=
  Estate.getElem?_setHolder (E := w.estate) hh h'

/-- Nobody will ever answer: the connection does not wait, and no attendant was ever at it. -/
structure Astray (w : World) (x : LinkId) : Prop where
  old : x < w.network.links.length
  waiting : w.network.waiting x = 0
  unattended : ∀ (h : HolderId) (holder : Holder), w.holders[h]? = some holder →
    ∀ a ∈ holder.attendants, a.link ≠ x

theorem Astray.happened (ha : w.Astray x) (hw : w.Regular) (he : w.Happened e w') :
    w'.Astray x where
  old := by
    obtain ⟨l', hl', -⟩ := (he.evolves hw.unoccupied hw.accounted).old
      (List.getElem?_eq_getElem ha.old)
    exact (List.getElem?_eq_some_iff.mp hl').1
  waiting := Nat.le_zero.mp (ha.waiting ▸ (hw.moves he).waiting_le ha.old)
  unattended h holder' hh' a' ha' := by
    rcases (hw.moves he).holder_of (h := h) hh' with ⟨holder, hh, ht⟩ | ⟨-, s, ℓ, rfl⟩
    · rcases ht.attendant_of ha' with ⟨a, hmem, hlink, -⟩ | ⟨hwait, -⟩
      · rw [← hlink]
        exact ha.unattended h holder hh a hmem
      · rintro rfl
        have hwait : 0 < w.network.waiting a'.link := hwait
        rw [ha.waiting] at hwait
        cases hwait
    · cases ha'

theorem Astray.congr (ha : w.Astray x) (hn : w'.network = w.network) (hh : w'.holders = w.holders) :
    w'.Astray x :=
  ⟨hn ▸ ha.old, hn ▸ ha.waiting, fun h holder hh' => ha.unattended h holder (hh ▸ hh')⟩

/-- What can be with a connection on which nothing was asked yet, or the question was. -/
inductive Fate (w : World) (x : LinkId) : Bool → Prop
  | queued {asked : Bool} {ℓ : ListenerId} {l : Link} (hx : x ∈ w.network.backlog ℓ)
      (hℓ : w.network.isListening ℓ = true) (hl : w.network.links[x]? = some l)
      (ha : l.Awaits asked) : Fate w x asked
  | attended {asked : Bool} {h : HolderId} {k : Nat} {holder : Holder} {a : Attendant} {l : Link}
      (hh : w.holders[h]? = some holder) (hk : holder.attendants[k]? = some a) (hax : a.link = x)
      (hs : a.stage = .preparing ∨ a.stage = .reading {} false)
      (hl : w.network.links[x]? = some l) (ha : l.Awaits asked) : Fate w x asked
  | answering {h : HolderId} {k : Nat} {holder : Holder} {a : Attendant} {l : Link}
      (hh : w.holders[h]? = some holder) (hk : holder.attendants[k]? = some a) (hax : a.link = x)
      (hs : a.stage = .answering Attendance.answer) (hl : w.network.links[x]? = some l)
      (hended : l.caller.ended = false) (hreset : l.caller.reset = false) : Fate w x true
  | answered (ha : Attendance.answer <+: w.network.said x) : Fate w x true
  | astray {asked : Bool} (ha : w.Astray x) : Fate w x asked

theorem Fate.congr {asked : Bool} (hf : w.Fate x asked) (hn : w'.network = w.network)
    (hh : w'.holders = w.holders) : w'.Fate x asked := by
  rcases hf with ⟨hx, hℓ, hl, ha⟩ | ⟨hh₀, hk, hax, hs, hl, ha⟩ |
    ⟨hh₀, hk, hax, hs, hl, hended, hreset⟩ | ha | ha
  case queued => exact .queued (hn ▸ hx) (hn ▸ hℓ) (hn ▸ hl) ha
  case attended => exact .attended (hh ▸ hh₀) hk hax hs (hn ▸ hl) ha
  case answering => exact .answering (hh ▸ hh₀) hk hax hs (hn ▸ hl) hended hreset
  case answered => exact .answered (hn ▸ ha)
  case astray => exact .astray (ha.congr hn hh)

/-! ## The attendant at work -/

section Attendant

variable {h : HolderId} {k : Nat} {holder : Holder} {a : Attendant} {l : Link}

/-- The step of an attendant that concerns the connection alone. -/
theorem attended_of_step {chance : Chance} (hh : w.holders[h]? = some holder)
    (hk : holder.attendants[k]? = some a)
    (hs : a.stage = .preparing ∨ (∃ reader begun, a.stage = .reading reader begun) ∨
      ∃ rest, a.stage = .answering rest)
    (he : w.happen? (.step (.attendant h k) chance) = some w') :
    ∃ stage n, a.serve? holder.challengeTimeout w.network chance = some (stage, n) ∧
      w' = w.setHolder h (holder.move k stage, n) := by
  obtain ⟨holder₁, hh₁, he⟩ := Option.bind_eq_some_iff.mp he
  obtain rfl := Option.some.inj (hh.symm.trans hh₁)
  obtain ⟨next, hnext, rfl⟩ := Option.map_eq_some_iff.mp he
  unfold Holder.attend? at hnext
  rw [hk] at hnext
  have hserved : ((a.serve? holder.challengeTimeout w.network chance).bind fun p =>
      some (holder.move k p.1, p.2)) = some next := by
    rcases hs with hs | ⟨_, _, hs⟩ | ⟨_, hs⟩ <;> simpa [hs] using hnext
  obtain ⟨⟨stage, n⟩, hserve, hnext⟩ := Option.bind_eq_some_iff.mp hserved
  cases hnext
  exact ⟨stage, n, hserve, rfl⟩

theorem attendants_setHolder (hh : w.holders[h]? = some holder) (hk : holder.attendants[k]? = some a)
    (n : Network) (stage : Attendance) :
    (w.setHolder h (holder.move k stage, n)).holders[h]? = some (holder.move k stage) ∧
      (holder.move k stage).attendants[k]? = some { a with stage } := by
  constructor
  · rw [getElem?_setHolder hh, if_pos rfl]
  · rw [Holder.attendants_move hk, if_pos rfl]

/-- A calling end that is owned has not hung up. -/
theorem Agreeing.open_callee (hw : w.Agreeing) (hl : w.network.links[x]? = some l)
    (hopen : w.network.callers x ≠ 0) (hfin : l.caller.finished = false) :
    l.callee.ended = false ∧ l.callee.reset = false := by
  have hsound := hw.regular.sound l (List.mem_of_getElem? hl)
  have hopen : l.caller.handles ≠ 0 := by
    unfold Network.callers at hopen
    rwa [Network.view_some hl] at hopen
  constructor
  · rcases he : l.callee.ended with _ | _
    · rfl
    · rcases hsound.ended he with hf | hzero
      · rw [hfin] at hf
        cases hf
      · exact absurd hzero hopen
  · rcases hr : l.callee.reset with _ | _
    · rfl
    · exact absurd (hsound.reset hr) hopen

/-- The attendant sets its limits, and then reads. -/
theorem fate_preparing {asked : Bool} (hlimit : holder.challengeTimeout ≠ 0)
    (hh : w.holders[h]? = some holder) (hk : holder.attendants[k]? = some a)
    (hs : a.stage = .preparing) (hl : w.network.links[a.link]? = some l) (ha : l.Awaits asked)
    (he : w.happen? (.step (.attendant h k) .plain) = some w') : w'.Fate a.link asked := by
  obtain ⟨stage, n, hserve, rfl⟩ := attended_of_step hh hk (.inl hs) he
  unfold Attendant.serve? at hserve
  rw [hs] at hserve
  have hserve : a.prepare holder.challengeTimeout w.network .plain = (stage, n) :=
    Option.some.inj hserve
  unfold Attendant.prepare at hserve
  rw [if_neg hlimit] at hserve
  obtain ⟨rfl, rfl⟩ := Prod.mk.inj hserve
  obtain ⟨hh', hk'⟩ := attendants_setHolder hh hk (w.network.modifyLink a.link (·.share .callee))
    (.reading {} false)
  have hl' : (w.network.modifyLink a.link (·.share .callee)).links[a.link]? =
      some (l.share .callee) := Network.getElem?_modifyLink_self hl _
  exact .attended hh' hk' rfl (.inr rfl) hl' ⟨ha.arrived, ha.ended, ha.reset, ha.finished⟩

/-- The attendant reads the question, once it was asked, and goes on to answer it. -/
theorem Agreeing.fate_reading {asked : Bool} (hw : w.Agreeing) (hopen : w.network.callers a.link ≠ 0)
    (hh : w.holders[h]? = some holder) (hk : holder.attendants[k]? = some a)
    (hs : a.stage = .reading {} false) (hl : w.network.links[a.link]? = some l)
    (ha : l.Awaits asked) (he : w.happen? (.step (.attendant h k) .plain) = some w') :
    w'.Fate a.link asked := by
  obtain ⟨hended, hreset⟩ := hw.open_callee hl hopen ha.finished
  obtain ⟨stage, n, hserve, rfl⟩ := attended_of_step hh hk (.inr (.inl ⟨_, _, hs⟩)) he
  unfold Attendant.serve? at hserve
  rw [hs] at hserve
  obtain ⟨⟨reply, n₁⟩, hhear, hserve⟩ := Option.bind_eq_some_iff.mp hserve
  have harrived := ha.arrived
  cases asked
  case false =>
    -- Nothing was asked, so there is nothing to read yet.
    have hnone : w.network.hear? a.link .callee .plain = none :=
      Network.hear?_empty hl harrived hended hreset
    rw [hnone] at hhear
    cases hhear
  case true =>
    have hinbox : l.callee.inbox = Challenge.question := harrived
    have hheard := Network.hear?_question hl hinbox
    rw [hheard] at hhear
    obtain ⟨rfl, rfl⟩ := Prod.mk.inj (Option.some.inj hhear)
    have hserve : Attendance.turn (({} : LineReader).supply false (.ok Challenge.question)) = stage ∧
        w.network.modifyLink a.link (·.take .callee Challenge.question.length) = n :=
      Prod.mk.inj (Option.some.inj hserve)
    obtain ⟨hstage, rfl⟩ := hserve
    rw [Attendance.turn_question] at hstage
    subst hstage
    obtain ⟨hh', hk'⟩ := attendants_setHolder hh hk
      (w.network.modifyLink a.link (·.take .callee Challenge.question.length))
      (.answering Attendance.answer)
    have hl' : (w.network.modifyLink a.link
        (·.take .callee Challenge.question.length)).links[a.link]? =
          some (l.take .callee Challenge.question.length) :=
      Network.getElem?_modifyLink_self hl _
    exact .answering hh' hk' rfl rfl hl' ha.ended ha.reset

/-- The attendant answers. -/
theorem Agreeing.fate_answering (hw : w.Agreeing) (hopen : w.network.callers a.link ≠ 0)
    (hh : w.holders[h]? = some holder) (hk : holder.attendants[k]? = some a)
    (hs : a.stage = .answering Attendance.answer) (hl : w.network.links[a.link]? = some l)
    (he : w.happen? (.step (.attendant h k) .plain) = some w') : w'.Fate a.link true := by
  have hfits := hw.regular.answered (.holder hh (.attendant hk (by rw [hs]; rfl)))
  have hsound := hw.regular.sound l (List.mem_of_getElem? hl)
  have hopen : l.caller.handles ≠ 0 := by
    unfold Network.callers at hopen
    rwa [Network.view_some hl] at hopen
  have hfinished : l.callee.finished = false := by
    have hshut : w.network.isShut a.link = false := hfits.2
    unfold Network.isShut at hshut
    rwa [Network.view_some hl] at hshut
  have hreset : l.callee.reset = false := by
    rcases hr : l.callee.reset with _ | _
    · rfl
    · exact absurd (hsound.reset hr) hopen
  obtain ⟨stage, n, hserve, rfl⟩ := attended_of_step hh hk (.inr (.inr ⟨_, hs⟩)) he
  unfold Attendant.serve? at hserve
  rw [hs] at hserve
  obtain ⟨l', hwrite⟩ : ∃ l', l.write .callee Attendance.answer = .ok l' := by
    unfold Link.write
    simp [Link.atSide, hfinished, hreset, Side.other, End.isClosed, hopen]
  have hnet : w.network.write a.link .callee Attendance.answer =
      .ok (w.network.modifyLink a.link fun _ => l') := by
    unfold Network.write
    rw [hl]
    simp [hwrite, Except.map]
  have hsay : w.network.say a.link .callee Attendance.answer .plain =
      (.took Attendance.answer.length, w.network.modifyLink a.link fun _ => l') := by
    unfold Network.say Network.say.attempt
    rw [hnet]
  have hn : (w.network.say a.link .callee Attendance.answer .plain).2 = n :=
    (Prod.mk.inj (Option.some.inj hserve)).2
  rw [hsay] at hn
  have hnone : w.network.said a.link = [] := List.self_eq_append_left.mp hfits.1.symm
  refine .answered ?_
  show _ <+: n.said a.link
  rw [← hn, Network.said_write hnet, if_pos rfl, hnone]
  exact List.prefix_refl _

end Attendant

/-! ## What others do -/

/-- When the listener closes at which a connection waits, nobody is left to accept it. -/
theorem Agreeing.astray_closed {h : HolderId} {holder : Holder} {next : Holder × Network} {p : Pen}
    (hw : w.Agreeing) (hh : w.holders[h]? = some holder) (hp : w.estate.Has .queue x p)
    (hattendants : next.1.attendants = holder.attendants) (hwaiting : next.2.waiting x = 0)
    (hlength : x < next.2.links.length) : (w.setHolder h next).Astray x where
  old := hlength
  waiting := hwaiting
  unattended h' holder' hh' a ha := by
    rintro rfl
    have hnobody : ∀ {h : HolderId} {holder : Holder}, w.estate.holders[h]? = some holder →
        a ∉ holder.attendants := by
      intro h holder hh ha
      obtain ⟨k, hk⟩ := List.getElem?_of_mem ha
      cases hw.regular.accounted.place_of_attendant hh hk hp rfl
    have hset := (getElem?_setHolder hh next h').symm.trans hh'
    split at hset
    · cases hset
      rw [hattendants] at ha
      exact hnobody hh ha
    · exact hnobody hset ha

/-- The accepting worker accepts the connection, or accepts another one, or closes its listener. -/
theorem Agreeing.fate_polled {asked : Bool} {h : HolderId} {holder : Holder}
    {next : Holder × Network} {ℓ : ListenerId} {l : Link} (hw : w.Agreeing)
    (hh : w.holders[h]? = some holder) (hpolled : holder.Polled w.network next.1 next.2)
    (hx : x ∈ w.network.backlog ℓ) (hℓ : w.network.isListening ℓ = true)
    (hl : w.network.links[x]? = some l) (ha : l.Awaits asked) :
    (w.setHolder h next).Fate x asked := by
  have hacc := hw.regular.accounted
  have hp : w.estate.Has .queue x .fresh := .waiting (Network.waiting_pos_of_backlog hx)
  have hset : (w.setHolder h next).holders[h]? = some next.1 := by
    rw [getElem?_setHolder hh, if_pos rfl]
  obtain ⟨holder', n'⟩ := next
  have hpolled : holder.Polled w.network holder' n' := hpolled
  have hleft : w.network.Leaves x n' → (w.setHolder h (holder', n')).Fate x asked := by
    intro hleaves
    obtain ⟨hx', hℓ'⟩ := hleaves.queue ℓ hx hℓ
    exact .queued hx' hℓ' (hleaves.link.trans hl) ha
  cases hpolled
  case turned => exact hleft (.refl w.network x)
  case attached y hworker hy =>
    by_cases heq : y = x
    · subst heq
      have hlink : n'.links[y]? = some l := by rw [Network.view_accept? hy]; exact hl
      exact .attended hset List.getElem?_concat_length rfl (.inl rfl) hlink ha
    · exact hleft (Network.leaves_accept? heq hy)
  case stopped hworker hstop =>
    by_cases hmine : x ∈ w.network.backlog holder.listener
    · obtain ⟨-, -, hwaiting, hlength⟩ := ({ holder with worker := .gone } : Holder).settle_ends
        (w.network.unbind holder.listener)
      have hunbind := Network.waiting_unbind w.network holder.listener x
      have harrival : w.network.waiting x + w.estate.came x ≤ 1 := hacc.arrival x
      have hcount := List.count_pos_iff.mpr hmine
      refine .astray (hw.astray_closed hh hp (Holder.settle_attendants _ _) ?_ ?_)
      · rw [hwaiting]
        omega
      · rw [hlength, Network.length_unbind]
        exact hacc.link_of_place hp rfl
    · have hnot : x ∉ holder.registry.links := hacc.not_filed hp rfl hh
      exact hleft ((Network.leaves_unbind hmine).trans
        (Holder.settle_leaves (h := { holder with worker := .gone }) hnot))

/-- Whatever others do, what can be with a connection stays so; its attendant does not give up
waiting. -/
theorem Agreeing.fate_others {asked : Bool} (hw : w.Agreeing) (hf : w.Fate x asked)
    (he : w.happen? e = some w') (hopen : w.network.callers x ≠ 0)
    (hcaller : ∀ t i c chance, w.threads[t]? = some (.busy i c) → e = .step (.thread t) chance →
      x ∉ c.links)
    (hdeed : ∀ y d, e ≠ .deed y d)
    (hlimit : ∀ (h : HolderId) (holder : Holder), w.holders[h]? = some holder →
      holder.challengeTimeout ≠ 0)
    (hplain : ∀ h k chance, e = .step (.attendant h k) chance → ∀ (holder : Holder) (a : Attendant),
      w.holders[h]? = some holder → holder.attendants[k]? = some a → a.link = x →
        chance = .plain) : w'.Fate x asked := by
  have hhappened := happened_of_happen? he
  have hstays : ∀ {h k holder a}, w.holders[h]? = some holder → holder.attendants[k]? = some a →
      (∀ chance, e ≠ .step (.attendant h k) chance) →
      ∃ holder', w'.holders[h]? = some holder' ∧ holder'.attendants[k]? = some a := by
    intro h k holder a hh hk hne
    obtain ⟨holder', hh', ht⟩ := (hw.regular.moves hhappened).turns hh
    exact ⟨holder', hh', ht.attendant_stays hk hne⟩
  have hleaves : ∀ {h k p}, w.estate.Has (.holder h (some k)) x p →
      (∀ chance, e ≠ .step (.attendant h k) chance) → w.network.Leaves x w'.network := by
    intro h k p hp hne
    refine hw.leaves hhappened hp rfl hcaller hdeed (fun h' k' chance heq => ?_) nofun
    cases heq
    exact hne chance
  rcases hf with ⟨hx, hℓ, hl, ha⟩ | ⟨hh, hk, rfl, hs, hl, ha⟩ |
    ⟨hh, hk, rfl, hs, hl, hended, hreset⟩ | ha | ha
  case queued ℓ l =>
    by_cases hworker : ∃ h chance, e = .step (.worker h) chance
    · obtain ⟨h, chance, rfl⟩ := hworker
      obtain ⟨holder, hh, he⟩ := Option.bind_eq_some_iff.mp he
      obtain ⟨next, hpoll, rfl⟩ := Option.map_eq_some_iff.mp he
      exact hw.fate_polled hh (Holder.polled_of_poll? hpoll) hx hℓ hl ha
    · have hp : w.estate.Has .queue x .fresh := .waiting (Network.waiting_pos_of_backlog hx)
      have hleaves := hw.leaves hhappened hp rfl hcaller hdeed nofun
        fun _ h chance heq => hworker ⟨h, chance, heq⟩
      obtain ⟨hx', hℓ'⟩ := hleaves.queue ℓ hx hℓ
      exact .queued hx' hℓ' (hleaves.link.trans hl) ha
  case attended h k holder a l =>
    by_cases hmine : ∃ chance, e = .step (.attendant h k) chance
    · obtain ⟨chance, rfl⟩ := hmine
      obtain rfl := hplain h k chance rfl holder a hh hk rfl
      rcases hs with hs | hs
      · exact fate_preparing (hlimit h holder hh) hh hk hs hl ha he
      · exact hw.fate_reading hopen hh hk hs hl ha he
    · have hne := fun chance heq => hmine ⟨chance, heq⟩
      have hpen : a.stage.pen? = some .fresh := by rcases hs with hs | hs <;> rw [hs] <;> rfl
      obtain ⟨holder', hh', hk'⟩ := hstays hh hk hne
      exact .attended hh' hk' rfl hs
        ((hleaves (.holder hh (.attendant hk hpen)) hne).link.trans hl) ha
  case answering h k holder a l =>
    by_cases hmine : ∃ chance, e = .step (.attendant h k) chance
    · obtain ⟨chance, rfl⟩ := hmine
      obtain rfl := hplain h k chance rfl holder a hh hk rfl
      exact hw.fate_answering hopen hh hk hs hl he
    · have hne := fun chance heq => hmine ⟨chance, heq⟩
      have hpen : a.stage.pen? = some (.answering Attendance.answer) := by rw [hs]; rfl
      obtain ⟨holder', hh', hk'⟩ := hstays hh hk hne
      exact .answering hh' hk' rfl hs
        ((hleaves (.holder hh (.attendant hk hpen)) hne).link.trans hl) hended hreset
  case answered =>
    refine .answered ?_
    rcases hw.regular.answered.said hw.regular.accounted (hw.regular.moves hhappened) x with
      hsame | ⟨hpre, -⟩
    · rw [show w'.network.said x = w.network.said x from hsame]
      exact ha
    · exact ha.trans hpre
  case astray => exact .astray (ha.happened hw.regular hhappened)

end World

end LoopbackLock
