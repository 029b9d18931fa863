import LoopbackLock.Text.Numeral
import Mathlib.Algebra.Group.Nat.Defs

/-!
# Written numbers

What the digits of a number look like to a reader: there is at least one, each belongs to the
radix, a number below a power of the radix has no more digits than the power says, and the first
digit is a zero only if the number is zero. So a reader that takes digits as long as they come
takes exactly those that were written, if no digit stands behind them.
-/

namespace LoopbackLock.Text

variable {radix n : Nat}

theorem digits_of_lt (h : n < radix) : digits radix n = [digitChar n] := by
  rw [digits, dif_pos (.inr h)]

theorem digits_of_le (h2 : 2 ≤ radix) (h : radix ≤ n) :
    digits radix n = digits radix (n / radix) ++ [digitChar (n % radix)] := by
  rw [digits, dif_neg (by omega)]

/-- To show something of the digits of every number, show it of a single digit, and of the digits
of a number with one more digit behind them. -/
theorem digits_induction {motive : Nat → List Char → Prop} (h2 : 2 ≤ radix)
    (one : ∀ n, n < radix → motive n [digitChar n])
    (more : ∀ n, radix ≤ n → motive (n / radix) (digits radix (n / radix)) →
      motive n (digits radix (n / radix) ++ [digitChar (n % radix)])) (n : Nat) :
    motive n (digits radix n) := by
  induction n using Nat.strongRecOn with
  | _ n ih =>
    by_cases h : n < radix
    · rw [digits_of_lt h]
      exact one n h
    · have hr : radix ≤ n := by omega
      rw [digits_of_le h2 hr]
      apply more n hr
      exact ih _ (Nat.div_lt_self (by omega) (by omega))

theorem digits_ne_nil (radix n : Nat) : digits radix n ≠ [] := by
  rw [digits]
  split <;> simp

theorem isSome_digitOf?_of_mem_digits (h2 : 2 ≤ radix) (h16 : radix ≤ 16) {c : Char}
    (hc : c ∈ digits radix n) : (digitOf? radix c).isSome := by
  refine digits_induction (motive := fun _ cs => ∀ c ∈ cs, (digitOf? radix c).isSome) h2 ?_ ?_ n c hc
  · intro n hn c hc
    obtain rfl : c = digitChar n := by simpa using hc
    simp [digitOf?_digitChar h16 hn]
  · intro n hn ih c hc
    obtain hc | hc := List.mem_append.mp hc
    · exact ih c hc
    · obtain rfl : c = digitChar (n % radix) := by simpa using hc
      simp [digitOf?_digitChar h16 (Nat.mod_lt n (by omega))]

theorem length_digits_le (h2 : 2 ≤ radix) {k : Nat} (hn : n < radix ^ (k + 1)) :
    (digits radix n).length ≤ k + 1 := by
  induction k generalizing n with
  | zero =>
    rw [digits_of_lt (by simpa using hn)]
    simp
  | succ k ih =>
    by_cases h : n < radix
    · simp [digits_of_lt h]
    · rw [digits_of_le h2 (by omega)]
      have : n / radix < radix ^ (k + 1) := by
        apply Nat.div_lt_of_lt_mul
        rwa [← Nat.pow_succ']
      simpa using ih this

/-- A number that is not zero does not start with a zero. -/
theorem head?_digits_ne_zero (h2 : 2 ≤ radix) (h16 : radix ≤ 16) (hn : 0 < n) :
    (digits radix n).head? ≠ some '0' := by
  refine digits_induction (motive := fun n cs => 0 < n → cs.head? ≠ some '0') h2 ?_ ?_ n hn
  · intro n hr hn
    have h : ∀ d : Fin 16, 0 < d.val → digitChar d.val ≠ '0' := by decide
    simpa using h ⟨n, by omega⟩ hn
  · intro n hr ih _
    obtain ⟨d, ds, hd⟩ := List.exists_cons_of_ne_nil (digits_ne_nil radix (n / radix))
    have hpos := ih (Nat.div_pos hr (by omega))
    rw [hd] at hpos ⊢
    simpa using hpos

/-- The digits of every radix lie among the decimal digits and the first six letters. -/
theorem toNat_of_isSome_digitOf? {c : Char} (h : (digitOf? radix c).isSome) :
    48 ≤ c.toNat ∧ c.toNat ≤ 57 ∨ 65 ≤ c.toNat ∧ c.toNat ≤ 70 ∨ 97 ≤ c.toNat ∧ c.toNat ≤ 102 := by
  have hsome : (digitValue? c).isSome := Option.isSome_of_isSome_filter _ _ h
  unfold digitValue? at hsome
  dsimp only at hsome
  split at hsome
  · left
    assumption
  · split at hsome
    · right; right
      assumption
    · split at hsome
      · right; left
        assumption
      · cases hsome

/-- The decimal digits are the digits of radix ten. -/
theorem digitOf?_ten_eq_some_iff {c : Char} {d : Nat} :
    digitOf? 10 c = some d ↔ isDigit c = true ∧ d = c.toNat - 48 := by
  unfold isDigit digitOf? digitValue?
  dsimp only
  split
  · rename_i h
    have hlt : c.toNat - 48 < 10 := by omega
    simp [Option.filter, h.1, h.2, hlt, eq_comm]
  · rename_i h
    split
    · simp [Option.filter]
      omega
    · split
      · simp [Option.filter]
        omega
      · simp
        omega

theorem isDigit_of_mem_digits {c : Char} (h : c ∈ digits 10 n) : isDigit c = true := by
  obtain ⟨d, hd⟩ := Option.isSome_iff_exists.mp
    (isSome_digitOf?_of_mem_digits (by omega) (by omega) h)
  exact (digitOf?_ten_eq_some_iff.mp hd).1

/-- No digit of the radix comes next. -/
def Stops (radix : Nat) (cs : List Char) : Prop := ∀ c ∈ cs.head?, digitOf? radix c = none

theorem stops_nil : Stops radix [] := by
  intro c hc
  cases hc

theorem stops_cons {c : Char} {cs : List Char} (h : digitOf? radix c = none) :
    Stops radix (c :: cs) := by
  intro d hd
  obtain rfl : c = d := by simpa using hd
  exact h

/-- Characters of a class with none behind them are taken as they are. -/
theorem takeWhile_append_of_all {p : Char → Bool} {cs rest : List Char} (hcs : ∀ c ∈ cs, p c = true)
    (hrest : ∀ c ∈ rest.head?, p c = false) : (cs ++ rest).takeWhile p = cs := by
  rw [List.takeWhile_append_of_pos hcs]
  cases rest with
  | nil => simp
  | cons c rest => simp [hrest c (by simp)]

theorem dropWhile_append_of_all {p : Char → Bool} {cs rest : List Char} (hcs : ∀ c ∈ cs, p c = true)
    (hrest : ∀ c ∈ rest.head?, p c = false) : (cs ++ rest).dropWhile p = rest := by
  rw [List.dropWhile_append_of_pos hcs]
  cases rest with
  | nil => simp
  | cons c rest => simp [hrest c (by simp)]

/-- The digits that come next are those that were written. -/
theorem takeWhile_digits (h2 : 2 ≤ radix) (h16 : radix ≤ 16) {rest : List Char}
    (h : Stops radix rest) :
    (digits radix n ++ rest).takeWhile (fun c => (digitOf? radix c).isSome) = digits radix n := by
  apply takeWhile_append_of_all
  · intro c hc
    exact isSome_digitOf?_of_mem_digits h2 h16 hc
  · intro c hc
    simp [h c hc]

end LoopbackLock.Text
