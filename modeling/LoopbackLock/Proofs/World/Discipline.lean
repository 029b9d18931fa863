import LoopbackLock.Proofs.World.Speaking

/-!
# The discipline of a holder

What a holder says on the connections it accepts, to whom, and whom it registers: along every run it
answers those whose first line is a check and nobody else, announces its release to those it has
registered and nobody else, and has registered only who was answered in full; every other connection
it closes (`wire_discipline`).
-/

namespace LoopbackLock

open Framing

namespace Attendance

variable {reads : List ReadAnswer} {tried refused : Prop} {s : Attendance}

/-- An answer is begun if the first line is a check, and only then. -/
theorem Follows.tried_iff (hf : s.Follows reads tried refused) :
    (∃ rest, s = .answering rest) ∨ tried ↔ Checks reads := by
  have hneither : ∀ {s : Attendance} {reader : LineReader} {begun : Bool},
      LineReader.Takes ({} : LineReader).start reads (.starved reader begun) →
      (∀ rest, s ≠ .answering rest) → ¬ tried →
      ((∃ rest, s = .answering rest) ∨ tried ↔ Checks reads) := by
    intro s reader begun htakes hs htried
    refine iff_of_false ?_ ?_
    · rintro (⟨rest, hans⟩ | hans)
      · exact hs rest hans
      · exact htried hans
    · rintro ⟨line, hopens, -⟩
      exact not_opens_of_starved htakes hopens
  have hidle : s.isActive = false → ∀ rest, s ≠ .answering rest := by
    rintro hs rest rfl
    cases hs
  rcases hf with ⟨rfl, htried⟩ | ⟨htakes, htried⟩ | htakes | ⟨hs, htakes, htried⟩ |
    ⟨hs, rfl, htried, -⟩ | ⟨hs, htakes, htried⟩
  case preparing => exact hneither .none nofun htried
  case reading => exact hneither htakes nofun htried
  case answering => exact iff_of_true (.inl ⟨_, rfl⟩) ((checks_iff_of_takes htakes).mpr rfl)
  case answered => exact iff_of_true (.inr htried) ((checks_iff_of_takes htakes).mpr rfl)
  case dismissed => exact hneither .none (hidle hs) htried
  case ended =>
    rw [checks_iff_of_takes htakes, ← htried]
    exact or_iff_right fun ⟨rest, hans⟩ => hidle hs rest hans

/-- Who reads no more has met what the stream opens with, unless the connection was refused. -/
theorem Follows.opens (hf : s.Follows reads tried refused) (hprep : s ≠ .preparing)
    (hread : ∀ reader begun, s ≠ .reading reader begun) :
    refused ∨ ∃ o, ∀ after, Opens (reads ++ after) o := by
  have hended : ∀ {result : Received} {next : LineReader},
      LineReader.Takes ({} : LineReader).start reads (.done result next) →
      refused ∨ ∃ o, ∀ after, Opens (reads ++ after) o := by
    intro result next htakes
    obtain ⟨o, -, hall⟩ := opens_of_takes htakes
    exact .inr ⟨o, hall⟩
  cases hf
  case preparing => exact absurd rfl hprep
  case reading => exact absurd rfl (hread _ _)
  case answering htakes => exact hended htakes
  case answered htakes _ _ => exact hended htakes
  case dismissed hrefused _ => exact .inl hrefused
  case ended htakes _ _ => exact hended htakes

end Attendance

namespace World

variable {w w' w₀ : World} {e : Event} {es : List Event} {h : HolderId} {k : Nat} {x : LinkId}
  {a : Attendant} {chance : Chance} {reads : List ReadAnswer} {terrain : Terrain}

/-- Nobody but its attendant has a connection any more, and the attendant closes it with its next
step, if it has not done so. -/
structure Closing (w : World) (h : HolderId) (k : Nat) (a : Attendant) : Prop where
  handles : w.network.handles a.link = a.stage.handles
  closes : ∀ handles, a.stage = .parting handles → ∀ chance, ∃ w',
    w.happen? (.step (.attendant h k) chance) = some w' ∧ w'.network.handles a.link = 0

/-- What an attendant makes of its connection, on which it has read so much. -/
inductive Conduct (w : World) (h : HolderId) (k : Nat) (a : Attendant)
    (reads : List ReadAnswer) : Prop
  /-- The first line is not there yet. -/
  | undecided (hs : a.stage = .preparing ∨ ∃ reader begun, a.stage = .reading reader begun)
      (hopen : ∀ o, ¬ Opens reads o) (hsaid : w.network.said a.link = [])
  | answering {rest : Bytes} (hs : a.stage = .answering rest) (hcheck : Checks reads)
      (hsaid : w.network.said a.link ++ rest = Attendance.answer)
  /-- The connection is to be registered. -/
  | answered (hs : a.stage = .queuing ∨ a.stage = .deciding ∨ a.stage = .admitting)
      (hcheck : Checks reads) (hsaid : w.network.said a.link = Attendance.answer)
  /-- The connection was registered, or turned away because the holder is stopping. -/
  | served (hs : a.stage.isActive = false) (hcheck : Checks reads)
      (hsaid : Attendance.answer <+: w.network.said a.link)
  | dropped (hs : a.stage.isActive = false)
      (hfail : ¬ (Checks reads ∧ Attendance.answer <+: w.network.said a.link))
      (hunfiled : ∀ (h : HolderId) (holder : Holder), w.holders[h]? = some holder →
        a.link ∉ holder.registry.links)
      (hclosing : w.Closing h k a)

/-- A release announces itself on a connection. -/
def Announces (t : ThreadId) (h : HolderId) (x : LinkId) (w : World) : Event → Prop
  | .step (.thread t') _ => t' = t ∧ ∃ i rest queue,
    w.threads[t]? = some (.busy i (.dismantling h (.notifying x rest queue)))
  | _ => False

/-- What holders have made of their connections along a run. -/
structure Disciplined (w₀ : World) (es : List Event) (w : World) : Prop where
  /-- Nothing is said on a connection but the answer and, after it, the announcement of a release,
  each of them whole unless somebody is at it or a write was cut short. -/
  worded : ∀ x, w.network.said x <+: script ∧ (w.estate.Worded x ∨ w₀.Once (CutsShort x) es)
  /-- What was read is what the peer has sent. -/
  arrived : ∀ x, w.network.Arrived x (data (readsOn x w₀ es))
  /-- An attendant has begun to answer if the first line is a check, and only then. -/
  tried : ∀ {h k a}, w.attendant? h k = some a →
    ((∃ rest, a.stage = .answering rest) ∨ w₀.Once (Tries a.link) es ↔
      Checks (readsOn a.link w₀ es))
  /-- An attendant reads until it has met the first line, whatever follows it, the end of the stream
  or a failure, if the system lets it prepare the connection. -/
  opened : ∀ {h k a}, w.attendant? h k = some a → a.stage ≠ .preparing →
    (∀ reader begun, a.stage ≠ .reading reader begun) →
    w₀.Once (Impedes a.link) es ∨ ∃ o, ∀ after, Opens (readsOn a.link w₀ es ++ after) o
  conduct : ∀ {h k a}, w.attendant? h k = some a →
    w.Conduct h k a (readsOn a.link w₀ es)
  /-- Only its attendant answers on a connection, and only a release announces itself on it, one
  that has taken the connection out of the registry. -/
  spoken : ∀ e w' x, w.happen? e = some w' → w'.network.said x = w.network.said x ∨
    (w.Tries x e ∧ w'.network.said x <+: Attendance.answer) ∨
    ∃ t h, w.Announces t h x e ∧ w₀.Once (Drains t h x) es ∧
      Attendance.answer <+: w.network.said x
  /-- Who is registered has been accepted, is filed under the port it comes from, has sent a check,
  and was answered in full. -/
  registered : ∀ {h : HolderId} {holder : Holder} {p x}, w.holders[h]? = some holder →
    (p, x) ∈ holder.registry →
    w.network.portOf? x = some p ∧ w.network.said x = Attendance.answer ∧
      Checks (readsOn x w₀ es) ∧
      ∃ k a, w.attendant? h k = some a ∧ a.link = x ∧ a.port = p ∧ a.stage.isActive = false

/-! ## Closing -/

/-- Giving up all handles of a connection closes it. -/
theorem handles_parted (h : Holder) (n : Network) {m : Nat} (hm : n.handles x = m) :
    (h.settle (n.releaseAll (List.replicate m x))).2.handles x = 0 := by
  have hzero : (n.releaseAll (List.replicate m x)).handles x = 0 := by
    rw [Network.handles_releaseAll, List.count_replicate_self, hm, Nat.sub_self]
  unfold Holder.settle
  split
  · rw [Network.handles_releaseAll, hzero, Nat.zero_sub]
  · exact hzero

/-- Who is neither registered nor about to be told of a release is being closed. -/
theorem Regular.closing (hw : w.Regular) (hk : w.attendant? h k = some a)
    (hunfiled : ∀ (h : HolderId) (holder : Holder), w.holders[h]? = some holder →
      a.link ∉ holder.registry.links)
    (hunworked : ∀ (t : ThreadId) (W : Work), w.estate.works[t]? = some (some W) →
      a.link ∉ W.stage.links) : w.Closing h k a := by
  obtain ⟨holder, hh, hi⟩ := attendant?_eq_some.mp hk
  have hhandles : w.network.handles a.link = a.stage.handles := by
    have hall : w.network.handles a.link = _ :=
      hw.accounted.handles_of_attendant (E := w.estate) hh (List.mem_of_getElem? hi)
    have hworks : total (Work.owns a.link) w.estate.works = 0 := by
      refine total_eq_zero fun work hmem => ?_
      rcases work with _ | W
      · rfl
      · obtain ⟨t, hW⟩ := List.getElem?_of_mem hmem
        exact List.count_eq_zero.mpr (hunworked t W hW)
    rw [hall, hworks, List.count_eq_zero.mpr (hunfiled h holder hh)]
    rfl
  refine ⟨hhandles, fun handles hs chance => ?_⟩
  have hstep : holder.attend? w.network k chance = some ((holder.move k .gone).settle
      (w.network.releaseAll (List.replicate handles a.link))) := by
    unfold Holder.attend?
    rw [hi]
    simp [hs]
  have he : w.happen? (.step (.attendant h k) chance) = some (w.setHolder h
      ((holder.move k .gone).settle
        (w.network.releaseAll (List.replicate handles a.link)))) := by
    show ((w.holders[h]?).bind fun holder => (holder.attend? w.network k chance).map _) = _
    rw [hh, Option.bind_some, hstep, Option.map_some]
  exact ⟨_, he, handles_parted (holder.move k .gone) w.network (by rw [hhandles, hs]; rfl)⟩

/-! ## Every run -/

/-- Where something has been said, the first line is a check. -/
theorem checks_of_said (hr : (World.blank terrain).run? es = some w)
    (hk : w.attendant? h k = some a) (hsaid : w.network.said a.link ≠ []) :
    Checks (readsOn a.link (World.blank terrain) es) :=
  ((attending_of_run hr a.link).attended hk rfl).tried_iff.mp (.inr (tried_of_said hr hsaid))

theorem answer_ne_nil : Attendance.answer ≠ [] := by decide

/-- Who is registered was accepted. -/
theorem Regular.attendant_of_filed {holder : Holder} {p : UInt16} (hw : w.Regular)
    (hh : w.holders[h]? = some holder) (hx : (p, x) ∈ holder.registry) :
    ∃ k a, w.attendant? h k = some a ∧ a.link = x ∧ a.port = p ∧ a.stage.isActive = false := by
  have hlinks : x ∈ holder.registry.links := List.mem_map.mpr ⟨_, hx, rfl⟩
  obtain ⟨a, hmem, hlink⟩ := attendant_of_came hh (hw.came_of_registered hh hlinks)
  obtain ⟨k, hi⟩ := List.getElem?_of_mem hmem
  refine ⟨k, a, attendant?_eq_some.mpr ⟨holder, hh, hi⟩, hlink, ?_, ?_⟩
  · have hport := hw.ported.attendant hh a hmem
    rw [hlink, hw.ported.filed hh p x hx] at hport
    exact (Option.some.inj hport).symm
  · -- A pen of the attendant would be a second one beside that of the registry.
    rcases hpen : a.stage.pen? with _ | pen
    · rcases hs : a.stage with _ | _ | _ | _ | _ | _ | _ | _ <;> rw [hs] at hpen <;>
        first | rfl | cases hpen
    · have hmine : w.estate.Has (.holder h (some k)) a.link pen := .holder hh (.attendant hi hpen)
      rw [hlink] at hmine
      cases hw.accounted.place_unique hmine (.holder hh (.filed hlinks))

/-- Who is registered was answered, and its first line is a check. -/
theorem filed_of_run {holder : Holder} (hr : (World.blank terrain).run? es = some w)
    (hh : w.holders[h]? = some holder) (hx : x ∈ holder.registry.links) :
    w.network.said x = Attendance.answer ∧ Checks (readsOn x (World.blank terrain) es) := by
  have hw : w.Regular := (Regular.blank terrain).run hr
  have hsaid : w.network.said x = Attendance.answer := (hw.answered (.holder hh (.filed hx))).1
  obtain ⟨⟨p, y⟩, hmem, rfl⟩ := List.mem_map.mp hx
  obtain ⟨k, a, hk, hlink, -⟩ := hw.attendant_of_filed hh hmem
  refine ⟨hsaid, ?_⟩
  have hchecks := checks_of_said hr hk (by rw [hlink, hsaid]; exact answer_ne_nil)
  rwa [hlink] at hchecks

theorem conduct_of_run (hr : (World.blank terrain).run? es = some w)
    (hk : w.attendant? h k = some a) :
    w.Conduct h k a (readsOn a.link (World.blank terrain) es) := by
  have hw : w.Regular := (Regular.blank terrain).run hr
  have hfollows := (attending_of_run hr a.link).attended hk rfl
  obtain ⟨holder, hh, hi⟩ := attendant?_eq_some.mp hk
  have hpen : ∀ {p : Pen}, a.stage.pen? = some p →
      p.Fits (w.network.said a.link) (w.network.isShut a.link) :=
    fun hp => hw.answered (.holder hh (.attendant hi hp))
  have hdone : a.stage.isActive = false →
      w.Conduct h k a (readsOn a.link (World.blank terrain) es) := by
    intro hs
    by_cases hok : Checks (readsOn a.link (World.blank terrain) es) ∧
        Attendance.answer <+: w.network.said a.link
    · exact .served hs hok.1 hok.2
    · have hunfiled : ∀ (h : HolderId) (holder : Holder), w.holders[h]? = some holder →
          a.link ∉ holder.registry.links := by
        intro h holder hh hx
        obtain ⟨hsaid, hcheck⟩ := filed_of_run hr hh hx
        exact hok ⟨hcheck, hsaid ▸ List.prefix_refl _⟩
      refine .dropped hs hok hunfiled (hw.closing hk hunfiled fun t W hW hx => ?_)
      have hsaid := entrusted_of_run hr t W hW a.link hx
      refine hok ⟨checks_of_said hr hk fun hnone => ?_, hsaid⟩
      rw [show w.estate.network.said a.link = [] from hnone] at hsaid
      exact answer_ne_nil (List.prefix_nil.mp hsaid)
  rcases hs : a.stage with _ | ⟨reader, begun⟩ | rest | _ | _ | _ | _ | _
  case preparing =>
    rw [hs] at hfollows
    refine .undecided (.inl hs) ?_ (hpen (p := .fresh) (by rw [hs]; rfl)).1
    rw [hfollows.unread.1]
    exact fun o => not_opens_of_starved .none
  case reading =>
    rw [hs] at hfollows
    exact .undecided (.inr ⟨reader, begun, hs⟩)
      (fun o => not_opens_of_starved hfollows.unanswered.1) (hpen (p := .fresh) (by rw [hs]; rfl)).1
  case answering =>
    exact .answering hs (hfollows.tried_iff.mp (.inl ⟨rest, hs⟩))
      (hpen (p := .answering rest) (by rw [hs]; rfl)).1
  case parting | gone => exact hdone (by rw [hs]; rfl)
  all_goals
    have hactive : a.stage = .queuing ∨ a.stage = .deciding ∨ a.stage = .admitting := by simp [hs]
    obtain ⟨next, htakes⟩ := (hfollows.check hactive).2
    exact .answered hactive ((checks_iff_of_takes htakes).mpr rfl)
      (hpen (p := .answered) (by rw [hs]; rfl)).1

/-- Along every run holders say on a connection nothing but the answer and the announcement, whole
unless a write is cut short; they answer who has sent a check first, whatever follows, and nobody
else; only a release announces itself, to whom it has taken out of the registry; registered is only
who has sent a check and was answered in full, under its own port; and they close every other
connection unregistered. -/
theorem wire_discipline (hr : (World.blank terrain).run? es = some w) :
    (World.blank terrain).Disciplined es w := by
  have hw : w.Regular := (Regular.blank terrain).run hr
  refine ⟨fun x => ⟨hw.scripted x, worded_of_run hr x⟩, fun x => (attending_of_run hr x).arrived,
    fun hk => ((attending_of_run hr _).attended hk rfl).tried_iff,
    fun hk => ((attending_of_run hr _).attended hk rfl).opens,
    fun hk => conduct_of_run hr hk, fun e w' x he => ?_, fun {h holder p x} hh hx => ?_⟩
  · rcases hw.answered.speaker hw.accounted (hw.moves (happened_of_happen? he)) x with hsame |
      ⟨h, k, chance, rest, rfl, hans, hshort⟩ |
      ⟨t, chance, W, rest, queue, rfl, hW, hs, hans, -⟩
    · exact .inl hsame
    · exact .inr (.inl ⟨⟨rest, hans⟩, hshort⟩)
    · obtain ⟨i, hcall⟩ := hw.releasing_of_work hW (.inr ⟨x, rest, queue, hs⟩)
      have hdrained := drained_of_run hr hW (Dismantling.audience_of_head hs)
      rw [hs] at hcall
      exact .inr (.inr ⟨t, W.holder, ⟨rfl, i, rest, queue, hcall⟩, hdrained, hans⟩)
  · obtain ⟨hsaid, hcheck⟩ := filed_of_run hr hh (List.mem_map.mpr ⟨_, hx, rfl⟩)
    exact ⟨hw.ported.filed hh p x hx, hsaid, hcheck, hw.attendant_of_filed hh hx⟩

/-- Two peers call a holder, and only one asks whether it is a lock; both are attended to. -/
def twoCallers : List Event :=
  [.newLock {}, .newThread, .begins 0 0 .acquire] ++ turns 6 (.thread 0) ++
  [.call { host := .loopback, port := 40000 } ({} : Settings).endpoint,
    .call { host := .loopback, port := 40001 } ({} : Settings).endpoint,
    .deed 0 (.write (Text.encode Message.check.line)), .deed 1 (.write (Text.encode "HELLO\n"))] ++
  turns 4 (.worker 0) ++ turns 6 (.attendant 0 0) ++ turns 3 (.attendant 0 1)

theorem two_callers_disciplined :
    ∃ w, (World.blank .usual).run? twoCallers = some w ∧
      (World.blank .usual).Disciplined twoCallers w ∧
      (w.holders[0]?).map (·.registry) = some [(40000, 0)] ∧
      w.network.said 0 = Attendance.answer ∧ w.network.said 1 = [] ∧ w.network.handles 1 = 0 := by
  have hends : ((World.blank .usual).run? twoCallers).any (fun w =>
      (w.holders[0]?).map (·.registry) = some [(40000, 0)] ∧
      w.network.said 0 = Attendance.answer ∧ w.network.said 1 = [] ∧
      w.network.handles 1 = 0) = true := by decide +kernel
  obtain ⟨w, hr, hends⟩ := (Option.any_eq_true ..).mp hends
  exact ⟨w, hr, wire_discipline hr, of_decide_eq_true hends⟩

end World

end LoopbackLock
