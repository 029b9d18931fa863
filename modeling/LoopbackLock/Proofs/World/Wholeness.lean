import LoopbackLock.Proofs.Estate.Whole
import LoopbackLock.Proofs.Network.Delivery
import LoopbackLock.Proofs.World.Regular

/-!
# Answers stay whole

An answer is cut when an attendant has written a part of it and can write no more. While none is,
whoever has read a connection to its end has read a whole answer, or nothing (`Candid`).
-/

namespace LoopbackLock

/-- Callers hear what a lock says to them, and at the end of a connection a whole answer or none. -/
structure Network.Candid (n : Network) : Prop where
  said : ∀ x, n.said x <+: script
  whole : ∀ x, n.isOver x = true → n.said x = [] ∨ Attendance.answer <+: n.said x

namespace World

variable {w w' : World} {t : ThreadId} {h : HolderId} {k : Nat} {e : Event} {x : LinkId}
variable {rest : Bytes} {chance : Chance} {holder : Holder} {a : Attendant}

/-- An attendant that has written a part of its answer can write no more. -/
def cutsAnswer (w : World) : Event → Bool
  | .step (.attendant h k) chance =>
    ((w.holders[h]?).bind (·.attendants[k]?)).any fun a =>
      match a.stage with
      | .answering rest => rest ≠ Attendance.answer && w.network.cuts a.link rest chance
      | _ => false
  | _ => false

/-- What an attendant does that is at its answer. -/
theorem estate_answer (he : w.happen? (.step (.attendant h k) chance) = some w')
    (hh : w.holders[h]? = some holder) (hk : holder.attendants[k]? = some a)
    (hs : a.stage = .answering rest) :
    w'.estate = w.estate.setHolder h
      (holder.move k (.written rest (w.network.say a.link .callee rest chance).1),
        (w.network.say a.link .callee rest chance).2) := by
  obtain ⟨holder₁, hh₁, hstep⟩ := Option.bind_eq_some_iff.mp he
  obtain rfl := Option.some.inj (hh.symm.trans hh₁)
  have hdone : holder.attend? w.network k chance =
      some (holder.move k (.written rest (w.network.say a.link .callee rest chance).1),
        (w.network.say a.link .callee rest chance).2) := by
    unfold Holder.attend?
    rw [hk]
    simp [hs, Attendant.serve?]
  rw [hdone] at hstep
  cases hstep
  rfl

/-- An attendant at its answer goes on with it, completes it, or has written nothing of it. -/
theorem Regular.whole_step (hw : w.Regular)
    (he : w.happen? (.step (.attendant h k) chance) = some w') (hans : w.estate.Answers h k x rest)
    (hcut : w.cutsAnswer (.step (.attendant h k) chance) = false) :
    w'.network.said x = [] ∨ Attendance.answer <+: w'.network.said x ∨
      ∃ rest, w'.estate.Answers h k x rest := by
  have hfits := (hw.answered hans.has).1
  obtain ⟨holder, a, hh, hk, rfl, hs⟩ := hans
  have hestate := estate_answer he hh hk hs
  have hnetwork : w'.network = (w.network.say a.link .callee rest chance).2 :=
    congrArg Estate.network hestate
  have hh : w.holders[h]? = some holder := hh
  -- When the write gets nothing through, nothing was written before.
  have hfirst : w.network.cuts a.link rest chance = true → w.network.said a.link = [] := by
    intro hcuts
    have hall : rest = Attendance.answer := by
      simpa [cutsAnswer, hh, hk, hs, hcuts] using hcut
    rw [hall] at hfits
    exact List.self_eq_append_left.mp hfits.symm
  have hgoes : ∀ {rest'}, Attendance.written rest (w.network.say a.link .callee rest chance).1 =
      .answering rest' → ∃ rest, w'.estate.Answers h k a.link rest := by
    intro rest' hstage
    refine ⟨rest', holder.move k (.answering rest'), { a with stage := .answering rest' }, ?_, ?_,
      rfl, rfl⟩
    · rw [hestate, hstage, Estate.getElem?_setHolder (E := w.estate) hh, if_pos rfl]
    · rw [Holder.attendants_move hk, if_pos rfl]
  rcases hsay : w.network.say a.link .callee rest chance with ⟨reply, n⟩
  rw [hsay] at hnetwork hgoes
  rcases Network.say_cases hsay with ⟨f, rfl, rfl⟩ | ⟨count, rfl, hwrite⟩
  · by_cases hf : f.kind = .interrupted
    · exact .inr (.inr (hgoes (if_pos hf)))
    · left
      rw [hnetwork]
      refine hfirst ?_
      unfold Network.cuts
      rw [hsay]
      simpa using hf
  · have hsaid : w'.network.said a.link = w.network.said a.link ++ rest.take count := by
      rw [hnetwork, Network.said_write hwrite, if_pos rfl]
    by_cases hzero : (rest.take count).length = 0
    · left
      rw [hsaid, List.eq_nil_of_length_eq_zero hzero, List.append_nil]
      refine hfirst ?_
      unfold Network.cuts
      rw [hsay]
      simpa using hzero
    by_cases hall : rest.length ≤ (rest.take count).length
    · right; left
      rw [List.length_take] at hall
      rw [hsaid, List.take_of_length_le (by omega)]
      exact ⟨[], by rw [List.append_nil]; exact hfits.symm⟩
    · exact .inr (.inr (hgoes ((if_neg hzero).trans (if_neg hall))))

theorem Whole.happened (hwhole : w.estate.Whole) (hw : w.Regular) (he : w.happen? e = some w')
    (hcut : w.cutsAnswer e = false) : w'.estate.Whole := by
  intro x
  have hm := hw.moves (happened_of_happen? he)
  by_cases hans : ∃ h k rest, w.estate.Answers h k x rest
  · obtain ⟨h, k, rest, hans⟩ := hans
    by_cases hmine : ∃ chance, e = .step (.attendant h k) chance
    · obtain ⟨chance, rfl⟩ := hmine
      rcases hw.whole_step he hans hcut with hnone | hall | ⟨rest', hgoes⟩
      · exact .inl hnone
      · exact .inr (.inl hall)
      · exact .inr (.inr ⟨h, k, rest', hgoes⟩)
    · obtain ⟨holder, a, hh, hk, rfl, hs⟩ := hans
      obtain ⟨holder', hh', ht⟩ := hm.turns hh
      have hstays := ht.attendant_stays hk fun chance heq => hmine ⟨chance, heq⟩
      exact .inr (.inr ⟨h, k, rest, holder', a, hh', hstays, rfl, hs⟩)
  · have hnone : ∀ h k rest, ¬ w.estate.Answers h k x rest :=
      fun h k rest hmine => hans ⟨h, k, rest, hmine⟩
    have hx := (hwhole x).imp_right fun hx => hx.resolve_right hans
    exact (hw.answered.whole hw.accounted hm hx hnone).imp_right .inl

/-- A connection that is over is nobody's to answer on. -/
theorem Regular.candid (hw : w.Regular) (hwhole : w.estate.Whole) : w.network.Candid where
  said := hw.scripted
  whole x hover := by
    rcases hwhole x with hnone | hall | ⟨h, k, rest, hans⟩
    · exact .inl hnone
    · exact .inr hall
    · exfalso
      have hopen := (hw.answered hans.has).2
      obtain ⟨holder, a, hh, hk, rfl, hs⟩ := hans
      have hle := Nat.le_trans (Holder.stage_le_owns hk) (hw.accounted.owns_le hh a.link)
      rw [hs] at hle
      unfold Network.isOver at hover
      rcases hl : w.network.links[a.link]? with _ | l
      · rw [Network.view_none hl] at hover
        cases hover
      · have hle : 2 ≤ w.network.handles a.link := hle
        have hopen : w.network.isShut a.link = false := hopen
        unfold Network.handles at hle
        unfold Network.isShut at hopen
        rw [Network.view_some hl] at hover hle hopen
        rcases (hw.sound l (List.mem_of_getElem? hl)).notified hover with hshut | hclosed
        · rw [hopen] at hshut
          cases hshut
        · omega

end World

end LoopbackLock
