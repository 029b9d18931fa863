import LoopbackLock.Proofs.World.Discipline

/-!
# Who is left when a connection is registered

Before a connection is registered, the registry gives up those whose peers have hung up. The holder
takes a peer for hung up if a look at its connection fails, or finds the end of the stream or a
reset; bytes that nobody has read stand in front of these two. So a registered connection at which
the look does not fail stays unless its peer has hung up and all it ever sent was read before
(`left_after_pruning`).
-/

namespace LoopbackLock

open Framing

namespace Link

variable {l l' : Link} {calls : Prop}

/-- The called end learns that the peer has hung up. -/
def Heeds (l : Link) : Prop :=
  l.isHungUp = true → l.callee.ended = true ∨ l.callee.reset = true

theorem Changes.heeds (hc : l.Changes calls l') (h : l.Heeds) : l'.Heeds := by
  unfold Heeds Link.isHungUp at *
  cases hc
  case took side count _ => cases side <;> exact h
  case wrote side bytes hw =>
    rcases write_cases hw with ⟨-, rfl⟩ | ⟨-, rfl⟩ <;> cases side
    · exact h
    · exact fun hup => .inr rfl
    · exact h
    · exact h
  case finished side hf =>
    obtain rfl := finish_eq hf
    cases side
    · exact fun _ => .inl rfl
    · exact h
  case shared => exact h
  case released side _ =>
    rcases release_cases l side with ⟨heq, hleft⟩ | ⟨-, heq | heq⟩ <;> rw [heq] <;> cases side
    · intro hup
      refine h ?_
      have hup : (l.caller.finished || decide (l.caller.handles - 1 = 0)) = true := hup
      have hleft : l.caller.handles = 0 ∨ l.caller.handles - 1 ≠ 0 := hleft
      simp only [Bool.or_eq_true, decide_eq_true_eq] at hup ⊢
      exact hup.imp_right fun hzero => hleft.resolve_right fun hne => hne hzero
    · exact h
    · exact fun _ => .inr rfl
    · exact h
    · exact fun _ => .inl rfl
    · exact h
  case refused => exact h

/-- A called end looks open as long as its peer has not hung up, and as long as it has bytes to
read. -/
theorem Heeds.looksOpen_iff (h : l.Heeds) (hs : l.Sound) :
    l.callee.looksOpen = true ↔ l.isHungUp = false ∨ l.callee.inbox ≠ [] := by
  constructor
  · intro hopen
    refine (Bool.eq_false_or_eq_true l.isHungUp).symm.imp_right fun hup => ?_
    have hover : l.callee.ended || l.callee.reset := by simpa using h hup
    simpa [End.looksOpen, hover] using hopen
  · rintro (hup | hinbox)
    · exact hs.looksOpen hup
    · simp [End.looksOpen, hinbox]

end Link

namespace Network

variable {n n' : Network} {x : LinkId} {calls : LinkId → Prop} {read : Bytes}

/-- The called ends learn which peers have hung up. -/
def Heeds (n : Network) : Prop := ∀ l ∈ n.links, l.Heeds

theorem Heeds.evolves (h : n.Heeds) (he : n.Evolves calls n') : n'.Heeds := by
  intro l' hl'
  obtain ⟨x, hx'⟩ := List.getElem?_of_mem hl'
  rcases hx : n.links[x]? with _ | l
  · obtain ⟨source, target, hevolves⟩ := he.new hx hx'
    exact hevolves.invariant (fun _ _ h hc => hc.heeds h) nofun
  · obtain ⟨l₁, hl₁, hevolves⟩ := he.old hx
    obtain rfl := Option.some.inj (hl₁.symm.trans hx')
    exact hevolves.invariant (fun _ _ h hc => hc.heeds h) (h l (List.mem_of_getElem? hx))

/-- What the calling end has written. -/
abbrev callerSaid : Network → LinkId → Bytes := view (·.caller.said) []

/-- A connection that somebody owns looks open as long as its peer has not hung up, and as long as
the peer has sent more than was read. -/
theorem Heeds.looksOpen_iff (h : n.Heeds) (hs : n.Sound) (ha : n.Arrived x read)
    (hopen : n.handles x ≠ 0) :
    n.looksOpen x = true ↔ n.isHungUp x = false ∨ read ≠ n.callerSaid x := by
  unfold handles at hopen
  rcases hl : n.links[x]? with _ | l
  · exact absurd (view_none hl) hopen
  have hmem : l ∈ n.links := List.mem_of_getElem? hl
  rw [view_some hl] at hopen
  have hall : read ++ l.callee.inbox = l.caller.said := (ha l hl).2 hopen
  have hinbox : l.callee.inbox ≠ [] ↔ read ≠ l.caller.said := by
    rw [← hall]
    simp
  unfold looksOpen isHungUp callerSaid
  rw [hl, view_some hl, ← hinbox, Option.any_some]
  exact (h l hmem).looksOpen_iff (hs l hmem)

end Network

namespace World

variable {w w' : World} {es : List Event} {h : HolderId} {k : Nat} {x : LinkId} {p : UInt16}
  {a : Attendant} {chance : Chance} {holder : Holder} {terrain : Terrain}

theorem heeds_of_run (hr : (World.blank terrain).run? es = some w) : w.network.Heeds := by
  refine Regular.run_invariant (P := fun w => w.network.Heeds) ?_ (.blank terrain) ?_ hr
  · intro w e w' hw hh he
    exact hh.evolves (he.evolves hw.unoccupied hw.accounted)
  · exact List.forall_mem_nil _

/-- Registering a connection leaves, of those that are registered under other ports and at which the
look does not fail, the ones whose peers have not hung up and the ones whose peers have sent
something that was not read. -/
theorem left_after_pruning (hr : (World.blank terrain).run? es = some w)
    (hh : w.holders[h]? = some holder) (hk : holder.attendants[k]? = some a)
    (hs : a.stage = .admitting) (he : w.happen? (.step (.attendant h k) chance) = some w') :
    ∃ holder', w'.holders[h]? = some holder' ∧ ∀ p x, (p, x) ∈ holder'.registry ↔
      (p, x) = (a.port, a.link) ∨
        (p, x) ∈ holder.registry ∧ p ≠ a.port ∧ chance.blinds x = false ∧
        (w.network.isHungUp x = false ∨
          data (readsOn x (World.blank terrain) es) ≠ w.network.callerSaid x) := by
  have hw : w.Regular := (Regular.blank terrain).run hr
  have hstep : w.happen? (.step (.attendant h k) chance) =
      some (w.setHolder h ((holder.enroll w.network a chance).1.move k (.parting 1),
        (holder.enroll w.network a chance).2)) := by
    show ((w.holders[h]?).bind fun holder => (holder.attend? w.network k chance).map _) = _
    rw [hh, Option.bind_some, Holder.attend?_admitting hk hs, Option.map_some]
  obtain rfl := Option.some.inj (hstep.symm.trans he)
  refine ⟨_, List.getElem?_set_self (List.getElem?_eq_some_iff.mp hh).1, fun p x => ?_⟩
  show (p, x) ∈ (holder.registry.pruned w.network chance).insert a.port a.link ↔ _
  rw [Registry.mem_insert_pruned]
  refine or_congr_right (and_congr_right fun hx => and_congr_right fun _ => ?_)
  have hopen : w.network.handles x ≠ 0 :=
    (hw.open_of_registered hh (List.mem_map.mpr ⟨_, hx, rfl⟩)).2
  rw [(heeds_of_run hr).looksOpen_iff hw.sound (attending_of_run hr x).arrived hopen, and_comm]

/-- A peer asks, is registered, says something more and hangs up; another one asks and is about to
be registered. -/
def lastWord : List Event := List.flatten
  [[.newLock {}, .newThread, .begins 0 0 .acquire], turns 6 (.thread 0),
    [.call { host := .loopback, port := 40000 } ({} : Settings).endpoint,
      .call { host := .loopback, port := 40001 } ({} : Settings).endpoint,
      .deed 0 (.write (Text.encode Message.check.line)),
      .deed 1 (.write (Text.encode Message.check.line))],
    turns 4 (.worker 0), turns 7 (.attendant 0 0),
    [.deed 0 (.take Attendance.answer.length), .deed 0 (.write [88]), .deed 0 .close],
    turns 5 (.attendant 0 1)]

theorem last_word_left :
    ∃ w w' holder', (World.blank .usual).run? lastWord = some w ∧ w.network.isHungUp 0 = true ∧
      w.happen? (.step (.attendant 0 1) .plain) = some w' ∧ w'.holders[0]? = some holder' ∧
      (40000, 0) ∈ holder'.registry := by
  have hends : ((World.blank .usual).run? lastWord).any (fun w =>
      w.network.isHungUp 0 = true ∧ (w.happen? (.step (.attendant 0 1) .plain)).isSome = true ∧
      data (readsOn 0 (World.blank .usual) lastWord) ≠ w.network.callerSaid 0 ∧
      (w.holders[0]?).any fun holder => (40000, 0) ∈ holder.registry ∧
        holder.attendants[1]? = some ⟨1, 40001, .admitting⟩) = true := by decide +kernel
  obtain ⟨w, hr, hends⟩ := (Option.any_eq_true ..).mp hends
  obtain ⟨hup, hstep, hread, hholder⟩ := of_decide_eq_true hends
  obtain ⟨w', he⟩ := Option.isSome_iff_exists.mp hstep
  obtain ⟨holder, hh, hholder⟩ := (Option.any_eq_true ..).mp hholder
  obtain ⟨hfiled, hk⟩ := of_decide_eq_true hholder
  obtain ⟨holder', hh', hleft⟩ := left_after_pruning hr hh hk rfl he
  exact ⟨w, w', holder', hr, hup, he, hh',
    (hleft 40000 0).mpr (.inr ⟨hfiled, by decide, rfl, .inr hread⟩)⟩

end World

end LoopbackLock
