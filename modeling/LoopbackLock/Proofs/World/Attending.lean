import LoopbackLock.Proofs.Network.Arrival
import LoopbackLock.Proofs.World.Asking
import LoopbackLock.Proofs.World.Origins
import LoopbackLock.Proofs.World.Release

/-!
# What attendants read

`readsOn` lists what the reads at the called end of a connection brought along a run. They were made
by the one attendant of the connection, with one call of a new reader; when the call was over, the
attendant went on to answer if it had heard a check, and has given the connection up if not
(`Attendance.Follows`). All that was read had been sent by the peer, in this order
(`Attending.arrived`).
-/

namespace LoopbackLock

open Framing

variable {x : LinkId}

namespace Holder

variable {h h' : Holder} {n n' : Network} {k : Nat} {a : Attendant} {chance : Chance}

theorem settle_passes (h : Holder) (n : Network) : n.Passes x (h.settle n).2 := by
  unfold settle
  split
  · exact Network.passes_releaseAll ..
  · exact .refl n

theorem Polled.passes (hp : h.Polled n h' n') : n.Passes x n' := by
  cases hp
  case stopped => exact (Network.passes_unbind ..).trans (settle_passes ..)
  case turned => exact .refl n
  case attached hx => exact .of_links (Network.view_accept? hx)

theorem Attended.passes (ha : h.Attended n k a chance h' n')
    (hle : a.stage.handles ≤ n.handles a.link)
    (hother : a.link = x → ∀ reader begun, a.stage ≠ .reading reader begun) :
    n.Passes x n' := by
  cases ha
  case prepared hs =>
    refine .modifyLink fun _ l hl => .of_same rfl rfl fun _ => ?_
    unfold Network.handles at hle
    rw [hs, Network.view_some hl] at hle
    exact Nat.ne_of_gt hle
  case heard hs hh => exact Network.passes_hear? hh fun hx => absurd hs (hother hx _ _)
  case missed hs hh => exact Network.passes_hear? hh fun hx => absurd hs (hother hx _ _)
  case answered hw => exact Network.passes_say hw
  case admitted =>
    exact (Network.passes_releaseAll ..).trans (Network.passes_releaseAll ..)
  case parted => exact (Network.passes_releaseAll ..).trans (settle_passes ..)
  all_goals exact .refl n

end Holder

namespace World

variable {w w' w₀ w₁ : World} {e : Event} {es : List Event} {h : HolderId} {k : Nat}
  {a : Attendant} {chance : Chance} {reads : List ReadAnswer}

/-- The attendant of a number. -/
def attendant? (w : World) (h : HolderId) (k : Nat) : Option Attendant :=
  (w.holders[h]?).bind (·.attendants[k]?)

theorem attendant?_eq_some :
    w.attendant? h k = some a ↔
      ∃ holder, w.holders[h]? = some holder ∧ holder.attendants[k]? = some a :=
  Option.bind_eq_some_iff

theorem Served.passes {s : Settings} {q : Request} {r : Reply} (hs : w.Served s q r w₁) :
    w.network.Passes x w₁.network := by
  cases hs
  case bound hb =>
    obtain ⟨-, -, -, rfl⟩ := Network.bind_eq_ok hb
    exact .of_links rfl
  case unbound => exact Network.passes_unbind ..
  case connected hc => exact Network.passes_connect hc
  case sent hw => exact Network.passes_write hw
  case heard hh => exact Network.passes_hear? hh fun _ => rfl
  case hungUp => exact Network.passes_release ..
  case wrote hw => exact Network.passes_write hw
  case shut hf => exact Network.passes_finish hf
  case discarded => exact Network.passes_release ..
  case abandoned => exact Holder.settle_passes ..
  all_goals exact .refl w.network

theorem deed_passes (w : World) (y : LinkId) (d : Deed) :
    w.network.Passes x (w.deed y d).network := by
  unfold World.deed
  split
  · split
    · next hw => exact Network.passes_write hw
    · exact .refl _
  · exact .modifyLink fun _ _ _ => .of_same rfl rfl id
  · split
    · next hf => exact Network.passes_finish hf
    · exact .refl _
  · exact Network.passes_release ..

/-- Nobody reads at a called end but an attendant of the connection. -/
theorem Regular.passes (hw : w.Regular) (he : w.Happened e w')
    (hother : ∀ h k chance a reader begun, e = .step (.attendant h k) chance →
      w.attendant? h k = some a → a.stage = .reading reader begun → a.link ≠ x) :
    w.network.Passes x w'.network := by
  rcases he with ⟨ht, hl, hs⟩ | ⟨hh, hp⟩ | ⟨hh, ha⟩ | ⟨ho, -⟩ | ⟨hl, ht, hfree⟩ | ⟨hl⟩ | s | _ |
    ⟨hc⟩ | ⟨y, d⟩ | ⟨⟨-, -⟩⟩
  case threadStep =>
    rw [network_settle]
    exact (served_of_serve? hs).passes
  case workerStep => exact (Holder.polled_of_poll? hp).passes
  case attendantStep h k chance holder next =>
    obtain ⟨a, hk, ha⟩ := Holder.attended_of_attend? ha
    refine ha.passes (Nat.le_trans (Holder.stage_le_owns hk)
      (hw.accounted.owns_le (E := w.estate) hh _)) fun hlink reader begun hs => ?_
    exact hother h k chance a reader begun rfl (attendant?_eq_some.mpr ⟨holder, hh, hk⟩) hs hlink
  case occupantStep => simp [hw.unoccupied] at ho
  case called => exact Network.passes_connect hc
  case done => exact deed_passes w y d
  all_goals exact .refl w.network

/-! ## The attendant of a connection -/

/-- What an event brings to who reads at the called end of a connection. -/
def hears (x : LinkId) (w : World) : Event → Option ReadAnswer
  | .step (.attendant h k) chance => do
    let a ← w.attendant? h k
    match a.stage with
    | .reading .. =>
      if a.link = x then ((w.network.hear? x .callee chance).map (·.1)).bind Reply.read? else none
    | _ => none
  | _ => none

/-- What the reads at the called end of a connection bring along a run. -/
def readsOn (x : LinkId) : World → List Event → List ReadAnswer
  | _, [] => []
  | w, e :: es =>
    (w.hears x e).toList ++ ((w.happen? e).map fun w' => readsOn x w' es).getD []

theorem readsOn_concat (hr : w₀.run? es = some w) (e : Event) :
    readsOn x w₀ (es ++ [e]) = readsOn x w₀ es ++ (w.hears x e).toList := by
  induction es generalizing w₀ with
  | nil =>
    cases hr
    show _ ++ ((w.happen? e).map fun _ => []).getD [] = _
    rcases w.happen? e <;> exact List.append_nil _
  | cons e₁ es ih =>
    rw [run?_cons] at hr
    obtain ⟨w₁, he₁, hr⟩ := Option.bind_eq_some_iff.mp hr
    rw [List.cons_append, readsOn, readsOn, he₁, Option.map_some, Option.getD_some,
      Option.map_some, Option.getD_some, ih hr, List.append_assoc]

/-- An attendant of the connection is to write of its answer. -/
def Tries (x : LinkId) (w : World) : Event → Prop
  | .step (.attendant h k) _ => ∃ rest, w.estate.Answers h k x rest
  | _ => False

/-- The system does not set the time limits for an attendant of the connection, or does not share
the connection; or the limit is zero. -/
def Impedes (x : LinkId) (w : World) : Event → Prop
  | .step (.attendant h k) chance => ∃ holder a, w.holders[h]? = some holder ∧
      holder.attendants[k]? = some a ∧ a.link = x ∧ a.stage = .preparing ∧
      ((∃ f, chance = .fail f) ∨ holder.challengeTimeout = 0)
  | _ => False

/-- Who is not reading at a connection hears nothing there. -/
theorem hears_eq_none (hk : w.attendant? h k = some a)
    (hother : a.link = x → ∀ reader begun, a.stage ≠ .reading reader begun) :
    w.hears x (.step (.attendant h k) chance) = none := by
  show (w.attendant? h k).bind _ = none
  rw [hk, Option.bind_some]
  split
  · next reader begun hs => exact if_neg fun hlink => hother hlink reader begun hs
  · rfl

theorem hears_eq (hk : w.attendant? h k = some a) {reader : LineReader} {begun : Bool}
    (hs : a.stage = .reading reader begun) {reply : Reply} {n : Network}
    (hh : w.network.hear? a.link .callee chance = some (reply, n)) :
    w.hears a.link (.step (.attendant h k) chance) = reply.read? := by
  show (w.attendant? h k).bind _ = _
  rw [hk, Option.bind_some, hs]
  simp only [if_true, hh, Option.map_some, Option.bind_some]

theorem Tries.answering (ht : w.Tries x (.step (.attendant h k) chance))
    (hk : w.attendant? h k = some a) : a.link = x ∧ ∃ rest, a.stage = .answering rest := by
  obtain ⟨rest, holder, a', hh, hk', hlink, hs⟩ := ht
  obtain rfl := Option.some.inj (hk.symm.trans (attendant?_eq_some.mpr ⟨holder, hh, hk'⟩))
  exact ⟨hlink, rest, hs⟩

theorem Impedes.preparing (hr : w.Impedes x (.step (.attendant h k) chance))
    (hk : w.attendant? h k = some a) : a.link = x ∧ a.stage = .preparing := by
  obtain ⟨holder, a', hh, hk', hlink, hs, -⟩ := hr
  obtain rfl := Option.some.inj (hk.symm.trans (attendant?_eq_some.mpr ⟨holder, hh, hk'⟩))
  exact ⟨hlink, hs⟩

end World

/-- What an attendant has read of its connection at each of its stages, and whether it has begun to
write its answer; it has read nothing if the system refused to prepare the connection. -/
inductive Attendance.Follows (reads : List ReadAnswer) (tried refused : Prop) : Attendance → Prop
  | preparing (hreads : reads = []) (htried : ¬ tried) : Follows reads tried refused .preparing
  | reading {reader : LineReader} {begun : Bool}
      (htakes : LineReader.Takes ({} : LineReader).start reads (.starved reader begun))
      (htried : ¬ tried) : Follows reads tried refused (.reading reader begun)
  | answering {rest : Bytes} {next : LineReader}
      (htakes : LineReader.Takes ({} : LineReader).start reads
        (.done (.ok (.message .check)) next)) :
    Follows reads tried refused (.answering rest)
  | answered {s : Attendance} {next : LineReader}
      (hs : s = .queuing ∨ s = .deciding ∨ s = .admitting)
      (htakes : LineReader.Takes ({} : LineReader).start reads (.done (.ok (.message .check)) next))
      (htried : tried) : Follows reads tried refused s
  | dismissed {s : Attendance} (hs : s.isActive = false) (hreads : reads = []) (htried : ¬ tried)
      (hrefused : refused) : Follows reads tried refused s
  | ended {s : Attendance} {result : Received} {next : LineReader} (hs : s.isActive = false)
      (htakes : LineReader.Takes ({} : LineReader).start reads (.done result next))
      (htried : tried ↔ result = .ok (.message .check)) : Follows reads tried refused s

namespace Attendance

variable {reads : List ReadAnswer} {tried refused : Prop} {s : Attendance}

/-- Nobody reads before its connection is prepared. -/
theorem Follows.unread (hf : Follows reads tried refused .preparing) : reads = [] ∧ ¬ tried := by
  cases hf
  case preparing hreads htried => exact ⟨hreads, htried⟩
  case answered hs => simp at hs
  case dismissed hs | ended hs => cases hs

/-- Who reads has not answered. -/
theorem Follows.unanswered {reader : LineReader} {begun : Bool}
    (hf : Follows reads tried refused (.reading reader begun)) :
    LineReader.Takes ({} : LineReader).start reads (.starved reader begun) ∧ ¬ tried := by
  cases hf
  case reading htried htakes => exact ⟨htakes, htried⟩
  case answered hs => simp at hs
  case dismissed hs | ended hs => cases hs

/-- Who answers has read a check. -/
theorem Follows.checked {rest : Bytes} (hf : Follows reads tried refused (.answering rest)) :
    ∃ next, LineReader.Takes ({} : LineReader).start reads
      (.done (.ok (.message .check)) next) := by
  cases hf
  case answering htakes => exact ⟨_, htakes⟩
  case answered hs => simp at hs
  case dismissed hs | ended hs => cases hs

/-- Who is between its answer and the registry has answered a check. -/
theorem Follows.check (hf : s.Follows reads tried refused)
    (hs : s = .queuing ∨ s = .deciding ∨ s = .admitting) :
    tried ∧ ∃ next, LineReader.Takes ({} : LineReader).start reads
      (.done (.ok (.message .check)) next) := by
  have hactive : s.isActive = true := by rcases hs with rfl | rfl | rfl <;> rfl
  rcases hf with ⟨_, _⟩ | ⟨_, _⟩ | _ | ⟨_, htakes, htried⟩ | ⟨hidle, _, _, _⟩ | ⟨hidle, _, _⟩
  case answered => exact ⟨htried, _, htakes⟩
  case dismissed | ended => cases hactive.symm.trans hidle
  all_goals simp at hs

/-- Who has given up its pen stays with what it has read. -/
theorem Follows.idle {s' : Attendance} (hf : s.Follows reads tried refused)
    (hs : s.isActive = false) (hs' : s'.isActive = false) : s'.Follows reads tried refused := by
  rcases hf with ⟨_, _⟩ | ⟨_, _⟩ | _ | ⟨hactive, _, _⟩ | ⟨_, hreads, htried, hrefused⟩ |
    ⟨_, htakes, htried⟩
  case answered => rcases hactive with rfl | rfl | rfl <;> cases hs
  case dismissed => exact .dismissed hs' hreads htried hrefused
  case ended => exact .ended hs' htakes htried
  all_goals cases hs

/-- What an attendant does once it has answered leaves it with what it has read. -/
theorem Follows.attended {h h' : Holder} {n n' : Network} {k : Nat} {a : Attendant}
    (hf : a.stage.Follows reads tried refused) (ha : h.Attended n k a chance h' n')
    (hk : h.attendants[k]? = some a)
    (hlate : a.stage ≠ .preparing ∧ (∀ reader begun, a.stage ≠ .reading reader begun) ∧
      ∀ rest, a.stage ≠ .answering rest) :
    ∃ s, h'.attendants[k]? = some { a with stage := s } ∧ s.Follows reads tried refused := by
  have hmove : ∀ (h₁ : Holder) (s : Attendance), h₁.attendants[k]? = some a →
      (h₁.move k s).attendants[k]? = some { a with stage := s } :=
    fun _ s hk => by rw [Holder.attendants_move hk, if_pos rfl]
  have hleft : ∀ {s : Attendance}, s.isActive = false →
      a.stage = .queuing ∨ a.stage = .deciding ∨ a.stage = .admitting →
      s.Follows reads tried refused := by
    intro s hs hactive
    obtain ⟨htried, next, htakes⟩ := hf.check hactive
    exact .ended hs htakes ⟨fun _ => rfl, fun _ => htried⟩
  cases ha
  case queued hs _ =>
    obtain ⟨htried, next, htakes⟩ := hf.check (.inl hs)
    exact ⟨_, hmove { h with registrar := some k } .deciding hk,
      .answered (.inr (.inl rfl)) htakes htried⟩
  case dismissed hs _ =>
    exact ⟨_, hmove { h with registrar := none } (.parting 2) hk,
      hleft rfl (.inr (.inl hs))⟩
  case welcomed hs _ =>
    obtain ⟨htried, next, htakes⟩ := hf.check (.inr (.inl hs))
    exact ⟨_, hmove h .admitting hk, .answered (.inr (.inr rfl)) htakes htried⟩
  case admitted hs =>
    exact ⟨_, hmove (h.enroll n a chance).1 (.parting 1) hk, hleft rfl (.inr (.inr hs))⟩
  case parted hs =>
    refine ⟨.gone, ?_, hf.idle (by rw [hs]; rfl) rfl⟩
    rw [Holder.settle_attendants]
    exact hmove h .gone hk
  case refused hs | prepared hs => exact absurd hs hlate.1
  case heard hs _ | missed hs _ => exact absurd hs (hlate.2.1 _ _)
  case answered hs _ => exact absurd hs (hlate.2.2 _)

/-- Where a turn of the reader leads to. -/
theorem follows_turn {t : Turn} (htakes : LineReader.Takes ({} : LineReader).start reads t)
    (htried : ¬ tried) : (turn t).Follows reads tried refused := by
  unfold turn
  split
  · exact .answering htakes
  · next result next hcheck =>
    refine .ended rfl htakes ⟨fun h => absurd h htried, ?_⟩
    rintro rfl
    exact (hcheck rfl).elim
  · exact .reading htakes htried

/-- Where a write of the answer leads to. -/
theorem follows_written {next : LineReader} (rest : Bytes) (reply : Reply)
    (htakes : LineReader.Takes ({} : LineReader).start reads (.done (.ok (.message .check)) next))
    (htried : tried) : (written rest reply).Follows reads tried refused := by
  have hended : (parting 2).Follows reads tried refused :=
    .ended rfl htakes ⟨fun _ => rfl, fun _ => htried⟩
  unfold written
  split
  · split
    · exact hended
    · split
      · exact .answered (.inl rfl) htakes htried
      · exact .answering htakes
  · split
    · exact .answering htakes
    · exact hended
  · exact .answering htakes

end Attendance

namespace World

variable {w w' w₀ w₁ : World} {e : Event} {es : List Event} {h : HolderId} {k : Nat}
  {a : Attendant} {chance : Chance} {reads : List ReadAnswer} {tried refused : Prop}

/-- Where a step moves an attendant to. -/
theorem attendant?_setHolder {holder : Holder} (hh : w.holders[h]? = some holder)
    {next : Holder × Network} {s : Attendance}
    (hs : next.1.attendants[k]? = some { a with stage := s }) :
    (w.setHolder h next).attendant? h k = some { a with stage := s } :=
  attendant?_eq_some.mpr ⟨_, by rw [getElem?_setHolder hh, if_pos rfl], hs⟩

theorem attendant?_move {holder : Holder} (hh : w.holders[h]? = some holder)
    (hk : holder.attendants[k]? = some a) (s : Attendance) (n : Network) :
    (w.setHolder h (holder.move k s, n)).attendant? h k = some { a with stage := s } :=
  attendant?_setHolder hh (by rw [Holder.attendants_move hk, if_pos rfl])

/-- What an attendant hears goes to its reader. -/
theorem heard_of_step {reader : LineReader} {begun : Bool} (hk : w.attendant? h k = some a)
    (hs : a.stage = .reading reader begun)
    (he : w.happen? (.step (.attendant h k) chance) = some w') :
    ∃ reply r n, w.network.hear? a.link .callee chance = some (reply, n) ∧ reply.read? = some r ∧
      w'.network = n ∧
      w'.attendant? h k = some { a with stage := .turn (reader.supply begun r) } := by
  obtain ⟨holder, hh, hi⟩ := attendant?_eq_some.mp hk
  obtain ⟨s, n, hserve, rfl⟩ := attended_of_step hh hi (.inr (.inl ⟨_, _, hs⟩)) he
  unfold Attendant.serve? at hserve
  rw [hs] at hserve
  obtain ⟨⟨reply, n₁⟩, hhear, hserve⟩ := Option.bind_eq_some_iff.mp hserve
  split at hserve
  · next hreply =>
    cases hreply
    cases hserve
    exact ⟨_, _, _, hhear, rfl, rfl, attendant?_move hh hi _ _⟩
  · next hreply =>
    cases hreply
    cases hserve
    exact ⟨_, _, _, hhear, rfl, rfl, attendant?_move hh hi _ _⟩
  · cases hserve

theorem follows_prepare (hk : w.attendant? h k = some a) (hs : a.stage = .preparing)
    (hf : a.stage.Follows reads tried refused)
    (he : w.happen? (.step (.attendant h k) chance) = some w') :
    ∃ s, w'.attendant? h k = some { a with stage := s } ∧
      s.Follows reads tried (refused ∨ w.Impedes a.link (.step (.attendant h k) chance)) := by
  obtain ⟨holder, hh, hi⟩ := attendant?_eq_some.mp hk
  obtain ⟨s, n, hserve, rfl⟩ := attended_of_step hh hi (.inl hs) he
  refine ⟨s, attendant?_move hh hi s n, ?_⟩
  obtain ⟨hreads, htried⟩ := (hs ▸ hf).unread
  have hserve : a.prepare holder.challengeTimeout w.network chance = (s, n) := by
    unfold Attendant.serve? at hserve
    rw [hs] at hserve
    exact Option.some.inj hserve
  have hrefused : (∃ f, chance = .fail f) ∨ holder.challengeTimeout = 0 → s = .parting 1 →
      s.Follows reads tried (refused ∨ w.Impedes a.link (.step (.attendant h k) chance)) := by
    rintro hwhy rfl
    exact .dismissed rfl hreads htried (.inr ⟨holder, a, hh, hi, rfl, hs, hwhy⟩)
  unfold Attendant.prepare at hserve
  split at hserve
  · exact hrefused (.inl ⟨_, rfl⟩) (Prod.mk.inj hserve).1.symm
  · split at hserve
    · next hzero => exact hrefused (.inr hzero) (Prod.mk.inj hserve).1.symm
    · rw [← (Prod.mk.inj hserve).1, hreads]
      exact .reading .none htried

theorem follows_read {reader : LineReader} {begun : Bool} (hk : w.attendant? h k = some a)
    (hs : a.stage = .reading reader begun) (hf : a.stage.Follows reads tried refused)
    (he : w.happen? (.step (.attendant h k) chance) = some w') :
    ∃ s, w'.attendant? h k = some { a with stage := s } ∧
      s.Follows (reads ++ (w.hears a.link (.step (.attendant h k) chance)).toList)
        tried refused := by
  obtain ⟨reply, r, n, hhear, hread, -, hk'⟩ := heard_of_step hk hs he
  obtain ⟨htakes, htried⟩ := (hs ▸ hf).unanswered
  refine ⟨_, hk', ?_⟩
  rw [hears_eq hk hs hhear, hread]
  exact Attendance.follows_turn (htakes.trans (.read .none)) htried

theorem follows_answer {rest : Bytes} (hk : w.attendant? h k = some a)
    (hs : a.stage = .answering rest) (hf : a.stage.Follows reads tried refused)
    (he : w.happen? (.step (.attendant h k) chance) = some w') :
    ∃ s, w'.attendant? h k = some { a with stage := s } ∧
      s.Follows reads (tried ∨ w.Tries a.link (.step (.attendant h k) chance)) refused := by
  obtain ⟨holder, hh, hi⟩ := attendant?_eq_some.mp hk
  obtain ⟨s, n, hserve, rfl⟩ := attended_of_step hh hi (.inr (.inr ⟨rest, hs⟩)) he
  refine ⟨s, attendant?_move hh hi s n, ?_⟩
  obtain ⟨next, htakes⟩ := (hs ▸ hf).checked
  unfold Attendant.serve? at hserve
  rw [hs] at hserve
  rw [← (Prod.mk.inj (Option.some.inj hserve)).1]
  exact Attendance.follows_written rest _ htakes (.inr ⟨rest, holder, a, hh, hi, rfl, hs⟩)

theorem follows_late (hk : w.attendant? h k = some a) (hf : a.stage.Follows reads tried refused)
    (hlate : a.stage ≠ .preparing ∧ (∀ reader begun, a.stage ≠ .reading reader begun) ∧
      ∀ rest, a.stage ≠ .answering rest)
    (he : w.happen? (.step (.attendant h k) chance) = some w') :
    ∃ s, w'.attendant? h k = some { a with stage := s } ∧ s.Follows reads tried refused := by
  obtain ⟨holder, hh, hi⟩ := attendant?_eq_some.mp hk
  obtain ⟨holder₁, hh₁, he⟩ := Option.bind_eq_some_iff.mp he
  obtain rfl := Option.some.inj (hh.symm.trans hh₁)
  obtain ⟨next, hnext, rfl⟩ := Option.map_eq_some_iff.mp he
  obtain ⟨a₁, hk₁, hattended⟩ := Holder.attended_of_attend? hnext
  obtain rfl := Option.some.inj (hi.symm.trans hk₁)
  obtain ⟨s, hs, hfollows⟩ := hf.attended hattended hi hlate
  exact ⟨s, attendant?_setHolder hh hs, hfollows⟩

/-- An attendant goes on as it has read. -/
theorem follows_step (hk : w.attendant? h k = some a) (hf : a.stage.Follows reads tried refused)
    (he : w.happen? (.step (.attendant h k) chance) = some w') :
    ∃ s, w'.attendant? h k = some { a with stage := s } ∧
      s.Follows (reads ++ (w.hears a.link (.step (.attendant h k) chance)).toList)
        (tried ∨ w.Tries a.link (.step (.attendant h k) chance))
        (refused ∨ w.Impedes a.link (.step (.attendant h k) chance)) := by
  -- At each stage two of the three are out of the question.
  have hsilent : (∀ reader begun, a.stage ≠ .reading reader begun) →
      reads ++ (w.hears a.link (.step (.attendant h k) chance)).toList = reads := fun hs => by
    rw [hears_eq_none hk fun _ => hs, Option.toList_none, List.append_nil]
  have huntried : (∀ rest, a.stage ≠ .answering rest) →
      (tried ∨ w.Tries a.link (.step (.attendant h k) chance)) = tried := fun hs =>
    propext (or_iff_left fun htries => (htries.answering hk).2.elim hs)
  have hserves : a.stage ≠ .preparing →
      (refused ∨ w.Impedes a.link (.step (.attendant h k) chance)) = refused := fun hs =>
    propext (or_iff_left fun himpedes => hs (himpedes.preparing hk).2)
  by_cases hprep : a.stage = .preparing
  · rw [hsilent (by simp [hprep]), huntried (by simp [hprep])]
    exact follows_prepare hk hprep hf he
  rw [hserves hprep]
  by_cases hread : ∃ reader begun, a.stage = .reading reader begun
  · obtain ⟨reader, begun, hs⟩ := hread
    rw [huntried (by simp [hs])]
    exact follows_read hk hs hf he
  have hread : ∀ reader begun, a.stage ≠ .reading reader begun :=
    fun reader begun hs => hread ⟨reader, begun, hs⟩
  rw [hsilent hread]
  by_cases hans : ∃ rest, a.stage = .answering rest
  · obtain ⟨rest, hs⟩ := hans
    exact follows_answer hk hs hf he
  have hans : ∀ rest, a.stage ≠ .answering rest := fun rest hs => hans ⟨rest, hs⟩
  rw [huntried hans]
  exact follows_late hk hf ⟨hprep, hread, hans⟩ he

/-! ## A run -/

/-- What was read at the called end of a connection, and whether an answer was begun there or the
connection was refused. -/
structure Attending (w : World) (x : LinkId) (reads : List ReadAnswer) (tried refused : Prop) :
    Prop where
  attended : ∀ {h k a}, w.attendant? h k = some a → a.link = x →
    a.stage.Follows reads tried refused
  unattended : (∀ h k a, w.attendant? h k = some a → a.link ≠ x) → reads = [] ∧ ¬ tried
  arrived : w.network.Arrived x (data reads)

theorem Attending.blank (terrain : Terrain) (refused : Prop) :
    (World.blank terrain).Attending x [] False refused where
  attended hk := by
    obtain ⟨holder, hh, -⟩ := attendant?_eq_some.mp hk
    cases hh
  unattended _ := ⟨rfl, id⟩
  arrived := fun l hl => nomatch hl

/-- Nobody hears anything at a connection but an attendant that reads there. -/
theorem hears_eq_none_of_other (hother : ∀ h k chance a reader begun,
      e = .step (.attendant h k) chance → w.attendant? h k = some a →
      a.stage = .reading reader begun → a.link ≠ x) : w.hears x e = none := by
  rcases e with ⟨t | h | ⟨h, k⟩ | o, chance⟩ | _ | _ | _ | _ | _ | _
  case step.attendant =>
    rcases hk : w.attendant? h k with _ | a
    · show (w.attendant? h k).bind _ = none
      rw [hk]
      rfl
    · exact hears_eq_none hk fun hlink reader begun hs =>
        hother h k chance a reader begun rfl hk hs hlink
  all_goals rfl

/-- Nobody does anything at a connection that only an attendant does. -/
theorem idle_of_other (hother : ∀ h k chance a, e = .step (.attendant h k) chance →
      w.attendant? h k = some a → a.link ≠ x) :
    w.hears x e = none ∧ ¬ w.Tries x e ∧ ¬ w.Impedes x e := by
  refine ⟨hears_eq_none_of_other fun h k chance a _ _ he hk _ => hother h k chance a he hk, ?_⟩
  rcases e with ⟨t | h | ⟨h, k⟩ | o, chance⟩ | _ | _ | _ | _ | _ | _
  case step.attendant =>
    constructor
    · rintro ⟨rest, holder, a, hh, hk, hlink, -⟩
      exact hother h k chance a rfl (attendant?_eq_some.mpr ⟨holder, hh, hk⟩) hlink
    · rintro ⟨holder, a, hh, hk, hlink, -⟩
      exact hother h k chance a rfl (attendant?_eq_some.mpr ⟨holder, hh, hk⟩) hlink
  all_goals exact ⟨id, id⟩

/-- An attendant was there before, or has just been given its connection. -/
theorem Regular.attendant_of (hw : w.Regular) (he : w.Happened e w')
    (hk : w'.attendant? h k = some a) :
    (∃ a₀, w.attendant? h k = some a₀ ∧ a₀.link = a.link) ∨ a.stage = .preparing := by
  obtain ⟨holder', hh', hk'⟩ := attendant?_eq_some.mp hk
  rcases (hw.moves he).holder_of (h := h) hh' with ⟨holder, hh, ht⟩ | ⟨-, s, ℓ, rfl⟩
  · rcases ht.attendant_at hk' with ⟨a₀, hk₀, hlink, -⟩ | ⟨hs, -⟩
    · exact .inl ⟨a₀, attendant?_eq_some.mpr ⟨holder, hh, hk₀⟩, hlink⟩
    · exact .inr hs
  · cases hk'

theorem Regular.attendant_unique {h' : HolderId} {k' : Nat} {a' : Attendant} (hw : w.Regular)
    (hk : w.attendant? h k = some a) (hk' : w.attendant? h' k' = some a')
    (hlink : a'.link = a.link) : h' = h ∧ k' = k ∧ a' = a := by
  obtain ⟨holder, hh, hi⟩ := attendant?_eq_some.mp hk
  obtain ⟨holder', hh', hi'⟩ := attendant?_eq_some.mp hk'
  obtain ⟨rfl, rfl⟩ := hw.accounted.attendant_unique (E := w.estate) hh hi hh' hi' hlink
  exact ⟨rfl, rfl, Option.some.inj (hk'.symm.trans hk)⟩

/-- Only its own step moves an attendant. -/
theorem Regular.attendant_stays (hw : w.Regular) (he : w.Happened e w')
    (hk : w.attendant? h k = some a) (hne : ∀ chance, e ≠ .step (.attendant h k) chance) :
    w'.attendant? h k = some a := by
  obtain ⟨holder, hh, hi⟩ := attendant?_eq_some.mp hk
  obtain ⟨holder', hh', ht⟩ := (hw.moves he).turns hh
  exact attendant?_eq_some.mpr ⟨holder', hh', ht.attendant_stays hi hne⟩

/-- What arrives at the connection of an attendant is read by nobody else. -/
theorem Regular.arrived (hw : w.Regular) (hk : w.attendant? h k = some a)
    (ha : w.network.Arrived a.link (data reads)) (he : w.happen? e = some w') :
    w'.network.Arrived a.link (data (reads ++ (w.hears a.link e).toList)) := by
  have hhappened := happened_of_happen? he
  obtain ⟨holder, hh, hi⟩ := attendant?_eq_some.mp hk
  by_cases hmine : ∃ chance reader begun, e = .step (.attendant h k) chance ∧
      a.stage = .reading reader begun
  · obtain ⟨chance, reader, begun, rfl, hs⟩ := hmine
    obtain ⟨reply, r, n, hhear, -, hn, -⟩ := heard_of_step hk hs he
    rw [hears_eq hk hs hhear, data_append, hn]
    have hopen : w.network.handles a.link ≠ 0 := by
      have hle : holder.owns a.link ≤ w.network.handles a.link := hw.accounted.owns_le hh a.link
      have hown := Holder.stage_le_owns hi
      rw [hs] at hown
      have htwo : (Attendance.reading reader begun).handles = 2 := rfl
      omega
    exact Network.arrived_hear? hhear hopen ha
  · have hother : ∀ h' k' chance a' reader begun, e = .step (.attendant h' k') chance →
        w.attendant? h' k' = some a' → a'.stage = .reading reader begun → a'.link ≠ a.link := by
      intro h' k' chance a' reader begun heq hk' hs hlink
      obtain ⟨rfl, rfl, rfl⟩ := hw.attendant_unique hk hk' hlink
      exact hmine ⟨chance, reader, begun, heq, hs⟩
    rw [hears_eq_none_of_other hother, Option.toList_none, List.append_nil]
    refine (hw.passes hhappened hother).arrived ha fun hnone => ?_
    obtain ⟨l, hl⟩ := hw.link_of_attendant hh (List.mem_of_getElem? hi)
    cases hl.symm.trans hnone

theorem Attending.happened (ha : w.Attending x reads tried refused) (hw : w.Regular)
    (he : w.happen? e = some w') :
    w'.Attending x (reads ++ (w.hears x e).toList) (tried ∨ w.Tries x e)
      (refused ∨ w.Impedes x e) := by
  have hhappened := happened_of_happen? he
  by_cases hx : ∃ h k a, w.attendant? h k = some a ∧ a.link = x
  · obtain ⟨h, k, a, hk, rfl⟩ := hx
    obtain ⟨s, hk', hfollows⟩ : ∃ s, w'.attendant? h k = some { a with stage := s } ∧
        s.Follows (reads ++ (w.hears a.link e).toList) (tried ∨ w.Tries a.link e)
          (refused ∨ w.Impedes a.link e) := by
      by_cases hmine : ∃ chance, e = .step (.attendant h k) chance
      · obtain ⟨chance, rfl⟩ := hmine
        exact follows_step hk (ha.attended hk rfl) he
      · obtain ⟨hsilent, huntried, hserves⟩ := idle_of_other (w := w) (e := e) (x := a.link)
          fun h' k' chance a' heq hk' hlink => by
            obtain ⟨rfl, rfl, -⟩ := hw.attendant_unique hk hk' hlink
            exact hmine ⟨chance, heq⟩
        rw [hsilent, Option.toList_none, List.append_nil, eq_false huntried, or_false,
          eq_false hserves, or_false]
        exact ⟨a.stage, hw.attendant_stays hhappened hk fun chance heq => hmine ⟨chance, heq⟩,
          ha.attended hk rfl⟩
    refine ⟨fun hi hlink => ?_, fun hnone => (hnone h k _ hk' rfl).elim,
      hw.arrived hk ha.arrived he⟩
    obtain ⟨-, -, rfl⟩ := (hw.happened hhappened).attendant_unique hk' hi hlink
    exact hfollows
  · have hnone : ∀ h k a, w.attendant? h k = some a → a.link ≠ x :=
      fun h k a hk hlink => hx ⟨h, k, a, hk, hlink⟩
    obtain ⟨hsilent, huntried, hserves⟩ := idle_of_other (w := w) (e := e) (x := x)
      fun h k _ a _ => hnone h k a
    rw [hsilent, Option.toList_none, List.append_nil, eq_false huntried, or_false,
      eq_false hserves, or_false]
    obtain ⟨hreads, htried⟩ := ha.unattended hnone
    refine ⟨fun {h k a} hk hlink => ?_, fun _ => ⟨hreads, htried⟩, ?_⟩
    · rcases hw.attendant_of hhappened hk with ⟨a₀, hk₀, hlink₀⟩ | hs
      · exact absurd (hlink₀.trans hlink) (hnone h k a₀ hk₀)
      · rw [hs]
        exact .preparing hreads htried
    · refine (hw.passes hhappened fun h k _ a _ _ _ hk _ => hnone h k a hk).arrived ha.arrived
        fun _ => by rw [hreads]; rfl

theorem attending_of_run {terrain : Terrain} (hr : (World.blank terrain).run? es = some w)
    (x : LinkId) :
    w.Attending x (readsOn x (World.blank terrain) es) ((World.blank terrain).Once (Tries x) es)
      ((World.blank terrain).Once (Impedes x) es) := by
  refine history_of_run (P := fun es w => w.Attending x (readsOn x (World.blank terrain) es)
    ((World.blank terrain).Once (Tries x) es) ((World.blank terrain).Once (Impedes x) es)) ?_ ?_ hr
  · rw [eq_false not_once_nil]
    exact .blank terrain _
  · intro es w e w' hr hw ha he
    rw [readsOn_concat hr, propext (once_concat hr), propext (once_concat hr)]
    exact ha.happened hw he

end World

end LoopbackLock
