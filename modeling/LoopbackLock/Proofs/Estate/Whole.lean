import LoopbackLock.Proofs.Estate.Answered

/-!
# Answers that are whole

As long as no attendant gives up an answer of which a part was written, every connection carries
no answer, a whole one, or one that an attendant is at (`Whole`).
-/

namespace LoopbackLock

namespace Estate

variable {E E' : Estate} {stored : HolderId → Prop} {e : Event} {h : HolderId} {k : Nat}
variable {x : LinkId} {rest : Bytes} {P : Place} {holder holder' : Holder} {a : Attendant}

/-- An attendant has `rest` of the answer yet to write on a connection. -/
def Answers (E : Estate) (h : HolderId) (k : Nat) (x : LinkId) (rest : Bytes) : Prop :=
  ∃ holder a, E.holders[h]? = some holder ∧ holder.attendants[k]? = some a ∧ a.link = x ∧
    a.stage = .answering rest

/-- Each connection carries no answer, a whole one, or one that an attendant is at. -/
def Whole (E : Estate) : Prop :=
  ∀ x, E.network.said x = [] ∨ Attendance.answer <+: E.network.said x ∨
    ∃ h k rest, E.Answers h k x rest

theorem Whole.blank (terrain : Terrain) : (World.blank terrain).estate.Whole := fun _ => .inl rfl

theorem Answers.has (hans : E.Answers h k x rest) :
    E.Has (.holder h (some k)) x (.answering rest) := by
  obtain ⟨holder, a, hh, hk, rfl, hs⟩ := hans
  exact .holder hh (.attendant hk (by rw [hs]; rfl))

theorem Has.answering (hp : E.Has P x (.answering rest)) : ∃ h k, E.Answers h k x rest := by
  cases hp
  case holder h holder j hh hp =>
    rcases hp with @⟨i, a, p, hi, hq⟩
    refine ⟨h, i, holder, a, hh, hi, rfl, ?_⟩
    cases hs : a.stage <;> rw [hs] at hq <;> cases hq
    rfl
  case work W hW hp =>
    rcases Dismantling.pen_cases hp with ⟨_, _, -, heq⟩ | heq | heq | heq <;> cases heq

/-- Where no attendant is at an answer, what is said on top of a whole one leaves it whole. -/
theorem Answered.whole (ha : E.Answered) (hacc : E.Accounted) (hm : E.Moves stored e E')
    (hx : E.network.said x = [] ∨ Attendance.answer <+: E.network.said x)
    (hnone : ∀ h k rest, ¬ E.Answers h k x rest) :
    E'.network.said x = [] ∨ Attendance.answer <+: E'.network.said x := by
  rcases hm.speech hacc with hs | ⟨P, x₀, p, part, shuts, next, hs⟩
  · rwa [hs.said]
  rw [hs.said]
  split
  · next heq =>
    subst heq
    have hpen := hs.pen
    have hnot : ∀ rest, p ≠ .answering rest := by
      rintro rest rfl
      obtain ⟨h, k, hans⟩ := hpen.answering
      exact hnone h k rest hans
    have htold : ∀ rest, p = .announcing rest →
        Attendance.answer <+: E.network.said x ++ part := by
      rintro rest rfl
      exact (ha hpen).1.1.trans (List.prefix_append ..)
    cases hs.utters
    case announcing => exact .inr (htold _ rfl)
    case announced => exact .inr (htold _ rfl)
    case cut => exact .inr (htold _ rfl)
    case shut => rwa [List.append_nil]
    all_goals exact absurd rfl (hnot _)
  · exact hx

/-- Only its own step moves an attendant. -/
theorem Turns.attendant_stays (ht : E.Turns h holder e E' holder')
    (hk : holder.attendants[k]? = some a) (hne : ∀ chance, e ≠ .step (.attendant h k) chance) :
    holder'.attendants[k]? = some a := by
  cases ht
  case left => rwa [Holder.settle_attendants]
  case polled hp =>
    cases hp
    case stopped => rwa [Holder.settle_attendants]
    case turned => exact hk
    case attached =>
      show (holder.attendants ++ [_])[k]? = some a
      rw [List.getElem?_append_left (List.getElem?_eq_some_iff.mp hk).1]
      exact hk
  case attended j chance a' n he hj ha =>
    have hjk : j ≠ k := by
      rintro rfl
      exact hne chance he
    have hmove : ∀ {holder₁ : Holder} {s : Attendance}, holder₁.attendants = holder.attendants →
        (holder₁.move j s).attendants[k]? = some a := by
      intro holder₁ s hsame
      show (holder₁.attendants.modify j _)[k]? = some a
      rw [hsame, List.getElem?_modify, hk]
      simp [hjk]
    cases ha
    case parted => rw [Holder.settle_attendants]; exact hmove rfl
    all_goals exact hmove rfl
  all_goals exact hk

end Estate

end LoopbackLock
