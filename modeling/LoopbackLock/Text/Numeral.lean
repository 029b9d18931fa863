/-!
# Numerals

Natural numbers written in a radix up to sixteen, with lower-case letters for the digits above
nine, and read back. `ofDigits_digits` says that what is written reads back; `readNat` is the
reading of a bounded decimal number that tells a foreign character from a value too large.
-/

namespace LoopbackLock.Text

/-- The character of a digit below sixteen. -/
def digitChar (d : Nat) : Char :=
  if d < 10 then Char.ofNat (48 + d) else Char.ofNat (87 + d)

/-- The value of a digit, letters in either case. -/
def digitValue? (c : Char) : Option Nat :=
  let n := c.toNat
  if 48 ≤ n ∧ n ≤ 57 then some (n - 48)
  else if 97 ≤ n ∧ n ≤ 102 then some (n - 87)
  else if 65 ≤ n ∧ n ≤ 70 then some (n - 55)
  else none

/-- The value of a digit of a radix. -/
def digitOf? (radix : Nat) (c : Char) : Option Nat := (digitValue? c).filter (· < radix)

/-- A decimal digit. -/
def isDigit (c : Char) : Bool := 48 ≤ c.toNat && c.toNat ≤ 57

/-- The digits of a number, the most significant first, without a leading zero. -/
def digits (radix n : Nat) : List Char :=
  if _h : radix < 2 ∨ n < radix then [digitChar n]
  else digits radix (n / radix) ++ [digitChar (n % radix)]
termination_by n
decreasing_by exact Nat.div_lt_self (by omega) (by omega)

/-- A number in decimal. -/
def decimal (n : Nat) : String := String.ofList (digits 10 n)

/-- An integer in decimal, with a minus sign if it is negative. -/
def signedDecimal : Int → String
  | .ofNat n => decimal n
  | .negSucc n => "-" ++ decimal (n + 1)

/-- The value of a run of digits; nothing if a character is none. -/
def ofDigits? (radix : Nat) (cs : List Char) : Option Nat :=
  cs.foldlM (fun v c => (digitOf? radix c).map (v * radix + ·)) 0

theorem digitOf?_digitChar {radix d : Nat} (hr : radix ≤ 16) (hd : d < radix) :
    digitOf? radix (digitChar d) = some d := by
  have h : ∀ d : Fin 16, digitValue? (digitChar d) = some d.val := by decide
  simp [digitOf?, h ⟨d, by omega⟩, Option.filter, hd]

/-- What is written reads back. -/
theorem ofDigits_digits {radix : Nat} (h2 : 2 ≤ radix) (h16 : radix ≤ 16) (n : Nat) :
    ofDigits? radix (digits radix n) = some n := by
  induction n using Nat.strongRecOn with
  | _ n ih =>
    rw [digits]
    split
    · rename_i h
      simp [ofDigits?, digitOf?_digitChar h16 (by omega : n < radix)]
    · rename_i h
      have hlt : n / radix < n := Nat.div_lt_self (by omega) (by omega)
      have hd := digitOf?_digitChar h16 (Nat.mod_lt n (by omega : 0 < radix))
      have := ih _ hlt
      simp only [ofDigits?] at this ⊢
      rw [List.foldlM_append, this]
      simp [hd, Nat.mul_comm, Nat.div_add_mod]

/-- Why a text is no number of the wanted range. -/
inductive NumberError
  /-- There is no digit at all. -/
  | empty
  /-- A character is not a digit. -/
  | invalidDigit
  /-- The value is beyond the range. -/
  | tooLarge
  deriving DecidableEq, Repr

namespace NumberError

/-- The wording of a number error. -/
def message : NumberError → String
  | empty => "cannot parse integer from empty string"
  | invalidDigit => "invalid digit found in string"
  | tooLarge => "number too large to fit in target type"

end NumberError

/-- Reads decimal digits onto a value; the first digit that leads beyond the limit is reported
before any character behind it is looked at. -/
def readDigits (limit : Nat) : Nat → List Char → Except NumberError Nat
  | v, [] => .ok v
  | v, c :: cs =>
    match digitOf? 10 c with
    | none => .error .invalidDigit
    | some d => if v * 10 + d ≤ limit then readDigits limit (v * 10 + d) cs else .error .tooLarge

/-- Reads a number up to a limit: decimal digits after an optional plus sign. -/
def readNat (limit : Nat) (s : String) : Except NumberError Nat :=
  match s.toList with
  | [] => .error .empty
  | '+' :: c :: cs => readDigits limit 0 (c :: cs)
  | cs => readDigits limit 0 cs

end LoopbackLock.Text
