import LoopbackLock.Text.Blank
import Mathlib.Data.List.Forall2

/-!
# Words up to the case of their letters

Two texts are the same word if they are as long as each other and differ at most in the case of
ASCII letters (`SameWord`). Of the texts that are the same word as a given one, putting it into
lower case finds the one without capitals (`lowerAscii_eq_iff`).
-/

namespace LoopbackLock.Text

variable {c d : Char} {s word : String}

/-- An ASCII letter in upper case. -/
def IsCapital (c : Char) : Prop := 'A' ≤ c ∧ c ≤ 'Z'

instance (c : Char) : Decidable (IsCapital c) := inferInstanceAs (Decidable (_ ∧ _))

/-- The characters are the same, or one ASCII letter in its two cases. -/
def SameLetter (c d : Char) : Prop :=
  c = d ∨ IsCapital c ∧ d.toNat = c.toNat + 32 ∨ IsCapital d ∧ c.toNat = d.toNat + 32

instance (c d : Char) : Decidable (SameLetter c d) := inferInstanceAs (Decidable (_ ∨ _))

/-- The texts are the same but for the case of ASCII letters. -/
def SameWord (s t : String) : Prop := List.Forall₂ SameLetter s.toList t.toList

instance (s t : String) : Decidable (SameWord s t) :=
  inferInstanceAs (Decidable (List.Forall₂ SameLetter _ _))

theorem SameWord.refl (s : String) : SameWord s s := List.forall₂_same.mpr fun _ _ => .inl rfl

theorem toNat_toLower (c : Char) :
    c.toLower.toNat = if IsCapital c then c.toNat + 32 else c.toNat := by
  by_cases h : IsCapital c
  · have hlower : c.toLower = ⟨c.val + ('a'.val - 'A'.val), _⟩ := dif_pos h
    have hZ : c.toNat ≤ 90 := h.2
    have hsum : (c.val + ('a'.val - 'A'.val)).toNat = (c.toNat + 32) % 2 ^ 32 := UInt32.toNat_add ..
    rw [if_pos h, hlower]
    show (c.val + ('a'.val - 'A'.val)).toNat = _
    omega
  · have hsame : c.toLower = c := dif_neg h
    rw [if_neg h, hsame]

theorem toLower_eq_iff : c.toLower = d ↔ SameLetter c d ∧ ¬IsCapital d := by
  have hle (a b : Char) : a ≤ b ↔ a.toNat ≤ b.toNat := Iff.rfl
  have hA : 'A'.toNat = 65 := rfl
  have hZ : 'Z'.toNat = 90 := rfl
  rw [← Char.toNat_inj, toNat_toLower, SameLetter, ← Char.toNat_inj]
  simp only [IsCapital, hle, hA, hZ]
  split <;> omega

/-- A text in lower case is the same word, and has no capitals. -/
theorem lowerAscii_eq_iff :
    lowerAscii s = word ↔ SameWord s word ∧ ∀ d ∈ word.toList, ¬IsCapital d := by
  have hflip : List.Forall₂ (fun c d => SameLetter c d ∧ ¬IsCapital d) s.toList word.toList ↔
      List.Forall₂ (fun d c => ¬IsCapital d ∧ SameLetter c d) word.toList s.toList :=
    ⟨fun h => (h.imp fun _ _ => And.symm).flip, fun h => (h.imp fun _ _ => And.symm).flip⟩
  rw [← String.toList_inj, lowerAscii, String.toList_map, ← List.forall₂_eq_eq_eq,
    List.forall₂_map_left_iff]
  simp only [toLower_eq_iff]
  rw [hflip, List.forall₂_and_left, and_comm]
  exact and_congr_left fun _ => ⟨List.Forall₂.flip, List.Forall₂.flip⟩

example : SameWord "AsSume" "assume" ∧ ¬SameWord "assumé" "ASSUMÉ" := by decide

end LoopbackLock.Text
