import LoopbackLock.Proofs.Estate.Pens

/-!
# What is said on a connection

An event says nothing at all, or whoever has the pen for one connection writes a piece of what is
due there, or shuts it (`Moves.speech`). So everything that was said fits the pens at all times
(`Answered`): the answer, then the announcement, and nothing else.
-/

namespace LoopbackLock

/-- What a write of an attendant leaves of its answer. -/
theorem Attendance.written_of_say {n n' : Network} {x : LinkId} {rest : Bytes} {chance : Chance}
    {reply : Reply} (h : n.say x .callee rest chance = (reply, n')) :
    (n' = n ∧ (written rest reply = answering rest ∨ written rest reply = parting 2)) ∨
      ∃ part, n.write x .callee part = .ok n' ∧
        (Pen.answering rest).Utters part false (written rest reply).pen? := by
  rcases Network.say_cases h with ⟨f, rfl, rfl⟩ | ⟨count, rfl, hw⟩
  · left
    refine ⟨rfl, ?_⟩
    by_cases hf : f.kind = .interrupted
    · exact .inl (if_pos hf)
    · exact .inr (if_neg hf)
  · right
    refine ⟨_, hw, ?_⟩
    by_cases hzero : (rest.take count).length = 0
    · have hstage : written rest (.took (rest.take count).length) = parting 2 := if_pos hzero
      rw [hstage, List.eq_nil_of_length_eq_zero hzero]
      exact .muted
    · by_cases hall : rest.length ≤ (rest.take count).length
      · have hstage : written rest (.took (rest.take count).length) = queuing :=
          (if_neg hzero).trans (if_pos hall)
        have hwhole : rest.take count = rest := by
          rw [List.length_take] at hall
          exact List.take_of_length_le (by omega)
        rw [hstage, hwhole]
        exact .answered
      · have hlen : (rest.take count).length = count := by
          rw [List.length_take] at hall ⊢
          omega
        have hstage : written rest (.took (rest.take count).length) =
            answering (rest.drop count) := by
          refine (if_neg hzero).trans ((if_neg hall).trans ?_)
          rw [hlen]
        have hu := @Pen.Utters.answering (rest.take count) (rest.drop count)
        rw [List.take_append_drop] at hu
        rw [hstage]
        exact hu

namespace Holder

variable {h h' : Holder} {n n' : Network} {j : Option Nat} {k : Nat} {a : Attendant}
variable {chance : Chance} {x : LinkId} {p p' : Pen} {s : Attendance}

theorem attendants_move (hk : h.attendants[k]? = some a) (s : Attendance) (i : Nat) :
    (h.move k s).attendants[i]? =
      if i = k then some { a with stage := s } else h.attendants[i]? :=
  getElem?_modify_some hk _ i

theorem has_move (hk : h.attendants[k]? = some a) (hp : (h.move k s).Has j x p) :
    j = some k ∧ x = a.link ∧ s.pen? = some p ∨ j ≠ some k ∧ h.Has j x p := by
  rcases hp with @⟨i, a', p, hi, hq⟩ | ⟨hx⟩
  · rw [attendants_move hk] at hi
    by_cases hik : i = k
    · rw [if_pos hik] at hi
      cases hi
      exact .inl ⟨by rw [hik], rfl, hq⟩
    · rw [if_neg hik] at hi
      exact .inr ⟨fun heq => hik (Option.some.inj heq), .attendant hi hq⟩
  · exact .inr ⟨by simp, .filed hx⟩

/-- What a holder has is with its attendants or in its registry. -/
theorem Has.congr (hp : h'.Has j x p) (hatt : h'.attendants = h.attendants)
    (hreg : h'.registry = h.registry) : h.Has j x p := by
  rcases hp with ⟨hi, hq⟩ | ⟨hx⟩
  · exact .attendant (hatt ▸ hi) hq
  · exact .filed (hreg ▸ hx)

theorem has_settle (hp : (h.settle n).1.Has j x p) : h.Has j x p := by
  unfold settle at hp
  split at hp
  · rcases hp with @⟨i, a', p, hi, hq⟩ | ⟨hx⟩
    · exact .attendant hi hq
    · cases hx
  · exact hp

/-- A turn of the reader leaves the attendant with what its pen already allowed. -/
theorem fresh_of_turn {t : Turn} (hp : (Attendance.turn t).pen? = some p) :
    Pen.fresh.Implies p := by
  unfold Attendance.turn at hp
  split at hp
  · cases hp; exact Pen.fresh_implies_answering
  · cases hp
  · cases hp; exact .refl _

/-- A pen for a connection that is filed came with the attendant, or was filed before. -/
theorem has_enroll (hk : h.attendants[k]? = some a) (hs : a.stage = .admitting)
    (hp : (h.enroll n a chance).1.Has j x p) : ∃ j, h.Has j x p := by
  rcases hp with @⟨i, a', p, hi, hq⟩ | ⟨hx⟩
  · exact ⟨some i, .attendant hi hq⟩
  · have hpos := List.count_pos_iff.mpr hx
    have hcount := count_enroll h n a chance x
    by_cases hax : a.link = x
    · subst hax
      exact ⟨some k, .attendant hk (by rw [hs]; rfl)⟩
    · rw [Attendant.came_of_ne hax] at hcount
      exact ⟨none, .filed (List.count_pos_iff.mp (by omega))⟩

/-- What an attendant says: nothing, or a part of its answer. -/
theorem Attended.speech (ha : h.Attended n k a chance h' n') (hk : h.attendants[k]? = some a) :
    (n'.said = n.said ∧ n'.isShut = n.isShut ∧
      ∀ {j x p'}, h'.Has j x p' → ∃ j p, h.Has j x p ∧ p.Implies p') ∨
    ∃ p part next, h.Has (some k) a.link p ∧ p.Utters part false next ∧
      n.write a.link .callee part = .ok n' ∧
      ∀ {j x p'}, h'.Has j x p' → h.Has j x p' ∧ ¬ (j = some k ∧ x = a.link) ∨
        j = some k ∧ x = a.link ∧ next = some p' := by
  have hmoved : ∀ (h₁ : Holder) {s : Attendance} {j x p'}, h₁.attendants[k]? = some a →
      (∀ {j x p'}, h₁.Has j x p' → ∃ j, h.Has j x p') →
      (∀ {p'}, s.pen? = some p' → ∃ p, a.stage.pen? = some p ∧ p.Implies p') →
      (h₁.move k s).Has j x p' → ∃ j p, h.Has j x p ∧ p.Implies p' := by
    intro h₁ s j x p' hk₁ hrest hmine hp
    rcases has_move hk₁ hp with ⟨-, rfl, hs⟩ | ⟨-, hp⟩
    · obtain ⟨p, hq, himp⟩ := hmine hs
      exact ⟨some k, p, .attendant hk hq, himp⟩
    · obtain ⟨j, hj⟩ := hrest hp
      exact ⟨j, p', hj, .refl _⟩
  have hown : ∀ {j x p'}, h.Has j x p' → ∃ j, h.Has j x p' := fun hp => ⟨_, hp⟩
  rcases ha with hs | hs | ⟨hs, hh⟩ | ⟨hs, hh⟩ | ⟨hs, hw⟩ | ⟨hs, hr⟩ | ⟨hs, hstop⟩ | ⟨hs, hstop⟩ |
    hs | hs
  case refused => exact .inl ⟨rfl, rfl, fun hp => hmoved h hk hown (fun hq => by cases hq) hp⟩
  case prepared =>
    refine .inl ⟨Network.view_modifyLink_same fun _ => rfl,
      Network.view_modifyLink_same fun _ => rfl, fun hp => hmoved h hk hown (fun hq => ?_) hp⟩
    cases hq
    exact ⟨.fresh, by rw [hs]; rfl, .refl _⟩
  case heard =>
    exact .inl ⟨(Network.like_hear? hh).said, (Network.like_hear? hh).shut, fun hp =>
      hmoved h hk hown (fun hq => ⟨.fresh, by rw [hs]; rfl, fresh_of_turn hq⟩) hp⟩
  case missed =>
    exact .inl ⟨(Network.like_hear? hh).said, (Network.like_hear? hh).shut, fun hp =>
      hmoved h hk hown (fun hq => ⟨.fresh, by rw [hs]; rfl, fresh_of_turn hq⟩) hp⟩
  case queued =>
    exact .inl ⟨rfl, rfl, fun hp => hmoved { h with registrar := some k } hk
      (fun hp => ⟨_, hp.congr rfl rfl⟩)
      (fun hq => ⟨.answered, by rw [hs]; rfl, by cases hq; exact .refl _⟩) hp⟩
  case dismissed =>
    exact .inl ⟨rfl, rfl, fun hp => hmoved { h with registrar := none } hk
      (fun hp => ⟨_, hp.congr rfl rfl⟩) (fun hq => by cases hq) hp⟩
  case welcomed =>
    exact .inl ⟨rfl, rfl, fun hp => hmoved h hk hown
      (fun hq => ⟨.answered, by rw [hs]; rfl, by cases hq; exact .refl _⟩) hp⟩
  case admitted =>
    have hatt : (h.enroll n a chance).1.attendants[k]? = some a := hk
    refine .inl ⟨(Network.said_releaseAll ..).trans (Network.said_releaseAll ..),
      (Network.isShut_releaseAll ..).trans (Network.isShut_releaseAll ..), fun hp =>
      hmoved (h.enroll n a chance).1 hatt (has_enroll hk hs) (fun hq => by cases hq) hp⟩
  case parted handles =>
    obtain ⟨hsaid, hshut, -, -⟩ := (h.move k .gone).settle_ends
      (n.releaseAll (List.replicate handles a.link))
    exact .inl ⟨hsaid.trans (Network.said_releaseAll ..),
      hshut.trans (Network.isShut_releaseAll ..), fun hp =>
      hmoved h hk hown (fun hq => by cases hq) (has_settle hp)⟩
  case answered rest reply =>
    have hmine : h.Has (some k) a.link (.answering rest) := .attendant hk (by rw [hs]; rfl)
    have hnext : ∀ {s : Attendance} {j x p'}, (h.move k s).Has j x p' →
        h.Has j x p' ∧ ¬ (j = some k ∧ x = a.link) ∨
          j = some k ∧ x = a.link ∧ s.pen? = some p' := by
      intro s j x p' hp
      rcases has_move hk hp with hs | ⟨hne, hp⟩
      · exact .inr hs
      · exact .inl ⟨hp, fun heq => hne heq.1⟩
    rcases Attendance.written_of_say hw with ⟨rfl, hstage⟩ | ⟨part, hwrite, hu⟩
    · refine .inl ⟨rfl, rfl, fun hp => hmoved h hk hown (fun hq => ?_) hp⟩
      rcases hstage with hstage | hstage
      · rw [hstage] at hq
        cases hq
        exact ⟨.answering rest, by rw [hs]; rfl, .refl _⟩
      · rw [hstage] at hq
        cases hq
    · exact .inr ⟨_, part, _, hmine, hu, hwrite, hnext⟩

/-- The accepting worker says nothing, and hands out pens for connections that waited. -/
theorem Polled.speech (hp : h.Polled n h' n') :
    n'.said = n.said ∧ n'.isShut = n.isShut ∧ (∀ x, n'.waiting x ≤ n.waiting x) ∧
      ∀ {j x p'}, h'.Has j x p' → h.Has j x p' ∨ p' = .fresh ∧ 0 < n.waiting x := by
  rcases hp with ⟨hw, hs⟩ | ⟨hw, hwork⟩ | ⟨hw, hx⟩
  case stopped =>
    obtain ⟨hsaid, hshut, hwaiting, -⟩ :=
      ({ h with worker := .gone } : Holder).settle_ends (n.unbind h.listener)
    refine ⟨hsaid.trans (Network.view_unbind_same (fun _ => rfl) ..),
      hshut.trans (Network.view_unbind_same (fun _ => rfl) ..), fun x => ?_,
      fun hp => .inl ((has_settle hp).congr rfl rfl)⟩
    have hunbind := Network.waiting_unbind n h.listener x
    rw [hwaiting]
    omega
  case turned => exact ⟨rfl, rfl, fun _ => Nat.le_refl _, fun hp => .inl (hp.congr rfl rfl)⟩
  case attached x =>
    have hlinks := Network.view_accept? hx
    have hwaiting := Network.waiting_accept? hx
    refine ⟨?_, ?_, fun y => ?_, fun hp => ?_⟩
    · funext y; unfold Network.said Network.view; rw [hlinks]
    · funext y; unfold Network.isShut Network.view; rw [hlinks]
    · have := hwaiting y
      omega
    · rcases hp with @⟨i, a', p, hi, hq⟩ | ⟨hx⟩
      · unfold attach at hi
        dsimp only at hi
        rcases getElem?_concat_cases hi with ⟨-, rfl⟩ | hold
        · cases hq
          refine .inr ⟨rfl, ?_⟩
          have hone := hwaiting x
          rw [if_pos rfl] at hone
          show 0 < n.waiting x
          omega
        · exact .inl (.attendant hold hq)
      · exact .inl (.filed hx)

end Holder

namespace Estate

variable {E E' : Estate} {x : LinkId} {P : Place} {p p' : Pen} {k : HolderId} {holder : Holder}
variable {next : Holder × Network} {n : Network} {t : ThreadId} {W : Work} {W' : Option Work}

/-- Nothing is said, and no pen comes about but for what is new. -/
structure Silent (E E' : Estate) : Prop where
  said : E'.network.said = E.network.said
  shut : E'.network.isShut = E.network.isShut
  has : ∀ {P x p'}, E'.Has P x p' → (∃ P₀ p, E.Has P₀ x p ∧ p.Implies p') ∨
    p' = .fresh ∧ E.network.said x = [] ∧ E.network.isShut x = false

/-- The place that has the pen for a connection uses it. -/
structure Speaks (E : Estate) (P : Place) (x : LinkId) (p : Pen) (part : Bytes) (shuts : Bool)
    (next : Option Pen) (E' : Estate) : Prop where
  pen : E.Has P x p
  utters : p.Utters part shuts next
  said : ∀ y, E'.network.said y =
    if y = x then E.network.said y ++ part else E.network.said y
  shut : ∀ y, E'.network.isShut y = (E.network.isShut y || (decide (y = x) && shuts))
  has : ∀ {P' y p'}, E'.Has P' y p' →
    E.Has P' y p' ∧ ¬ (P' = P ∧ y = x) ∨ P' = P ∧ y = x ∧ next = some p'

theorem has_network (hwaiting : ∀ x, n.waiting x ≤ E.network.waiting x)
    (hp : Has { E with network := n } P x p) : E.Has P x p := by
  cases hp
  case waiting hx => exact .waiting (Nat.lt_of_lt_of_le hx (hwaiting x))
  case holder hh hp => exact .holder hh hp
  case work hW hp => exact .work hW hp

theorem has_setHolder (hh : E.holders[k]? = some holder) (hp : (E.setHolder k next).Has P x p) :
    P = .queue ∧ p = .fresh ∧ 0 < next.2.waiting x ∨ (∃ j, P = .holder k j ∧ next.1.Has j x p) ∨
      (P ≠ .queue ∧ ∀ j, P ≠ .holder k j) ∧ E.Has P x p := by
  cases hp
  case waiting hx => exact .inl ⟨rfl, rfl, hx⟩
  case holder h holder' j hh' hp =>
    rw [getElem?_setHolder hh] at hh'
    by_cases hhk : h = k
    · rw [if_pos hhk] at hh'
      cases hh'
      exact .inr (.inl ⟨j, by rw [hhk], hp⟩)
    · rw [if_neg hhk] at hh'
      refine .inr (.inr ⟨⟨by simp, fun j heq => ?_⟩, .holder hh' hp⟩)
      cases heq
      exact hhk rfl
  case work hW hp => exact .inr (.inr ⟨⟨by simp, fun j => by simp⟩, .work hW hp⟩)

/-- Whoever has a pen has it whatever the order of a registry. -/
theorem has_shuffled {registry : Registry} (hh : E.holders[k]? = some holder)
    (hperm : registry.Perm holder.registry)
    (hp : (E.setHolder k ({ holder with registry }, E.network)).Has P x p) : E.Has P x p := by
  rcases has_setHolder hh hp with ⟨rfl, rfl, hx⟩ | ⟨j, rfl, hmine⟩ | ⟨-, hold⟩
  · exact .waiting hx
  · refine .holder hh ?_
    cases hmine
    case attendant hj hpen => exact .attendant hj hpen
    case filed hx => exact .filed ((Registry.links_perm hperm).mem_iff.mp hx)
  · exact hold

theorem has_setWork (hp : (E.setWork t W').Has P x p) :
    (P = .work t ∧ ∃ W, W' = some W ∧ (x, p) ∈ W.stage.pens) ∨ P ≠ .work t ∧ E.Has P x p := by
  cases hp
  case waiting hx => exact .inr ⟨by simp, .waiting hx⟩
  case holder hh hp => exact .inr ⟨by simp, .holder hh hp⟩
  case work t' W hW' hp =>
    have hW' : (E.works.set t W')[t']? = some (some W) := hW'
    rcases getElem?_set_cases hW' with ⟨rfl, heq⟩ | ⟨hne, hold⟩
    · exact .inl ⟨rfl, W, heq.symm, hp⟩
    · exact .inr ⟨fun heq => hne (by cases heq; rfl), .work hold hp⟩

/-- A work that writes nothing passes its pens on. -/
theorem Silent.setWork (h : E.Silent E')
    (hpens : ∀ W x p', W' = some W → (x, p') ∈ W.stage.pens →
      ∃ P₀ p, E.Has P₀ x p ∧ p.Implies p') : E.Silent (E'.setWork t W') where
  said := h.said
  shut := h.shut
  has hp := by
    rcases has_setWork hp with ⟨-, W, hnew, hp⟩ | ⟨-, hp⟩
    · exact .inl (hpens W _ _ hnew hp)
    · exact h.has hp

theorem Silent.refl (E : Estate) : E.Silent E := ⟨rfl, rfl, fun hp => .inl ⟨_, _, hp, .refl _⟩⟩

theorem Silent.setHolder (hh : E.holders[k]? = some holder)
    (hsaid : next.2.said = E.network.said) (hshut : next.2.isShut = E.network.isShut)
    (hwaiting : ∀ x, next.2.waiting x ≤ E.network.waiting x)
    (hhas : ∀ {j x p'}, next.1.Has j x p' → ∃ P₀ p, E.Has P₀ x p ∧ p.Implies p') :
    E.Silent (E.setHolder k next) where
  said := hsaid
  shut := hshut
  has hp := by
    rcases has_setHolder hh hp with ⟨-, rfl, hx⟩ | ⟨j, -, hp⟩ | ⟨-, hp⟩
    · exact .inl ⟨_, _, .waiting (Nat.lt_of_lt_of_le hx (hwaiting _)), .refl _⟩
    · exact .inl (hhas hp)
    · exact .inl ⟨_, _, hp, .refl _⟩

end Estate

end LoopbackLock
