import LoopbackLock.Text.Numeral
import LoopbackLock.Toml.Item

/-!
# Numbers, truth values and moments

The values that are written without quotes or brackets. A number may have single underscores
between its digits, and no zero before its other digits. Integers have sixty-four bits with a sign;
a decimal beyond the greatest floating point number is refused, one below the least is infinite.
-/

namespace LoopbackLock.Toml

/-- A digit of a radix. -/
def isDigitOf (radix : Nat) (c : Char) : Bool := (Text.digitOf? radix c).isSome

namespace Cursor

/-- Digits with single underscores between them, which are dropped; `due` tells that the next
character has to be a digit. -/
def digitRun (radix : Nat) (due : Bool) (offset : Nat) :
    List Char → Option (List Char × Cursor)
  | [] => if due then none else some ([], ⟨offset, []⟩)
  | c :: cs =>
    if isDigitOf radix c then (digitRun radix false (offset + 1) cs).map fun (ds, s) => (c :: ds, s)
    else if due then none
    else if c == '_' then digitRun radix true (offset + 1) cs
    else some ([], ⟨offset, c :: cs⟩)

/-- One digit or more. -/
def someDigits (radix : Nat) (s : Cursor) : Option (List Char × Cursor) :=
  digitRun radix true s.offset s.rest

/-- An optional sign: whether it is a minus. -/
def sign (s : Cursor) : Bool × Cursor :=
  match s.rest with
  | '-' :: cs => (true, ⟨s.offset + 1, cs⟩)
  | '+' :: cs => (false, ⟨s.offset + 1, cs⟩)
  | _ => (false, s)

/-- The digits of a decimal integer: a zero alone, or digits that do not start with one. -/
def decimalDigits (s : Cursor) : Option (List Char × Cursor) :=
  match s.expect '0' with
  | some s => some (['0'], s)
  | none => s.someDigits 10

end Cursor

/-- The value of decimal digits. -/
def decimalValue (ds : List Char) : Nat := (Text.ofDigits? 10 ds).getD 0

/-- An integer that sixty-four bits with a sign can hold. -/
def signed? (negative : Bool) (n : Nat) : Option Int :=
  if negative then (if n ≤ Nat.pow 2 63 then some (-(n : Int)) else none)
  else if n < Nat.pow 2 63 then some n else none

namespace Cursor

/-- An integer in the radix that its first two characters tell. -/
def integer (s : Cursor) : Option (Int × Cursor) :=
  let radix? : Option Nat :=
    match s.rest with
    | '0' :: 'x' :: _ => some 16
    | '0' :: 'o' :: _ => some 8
    | '0' :: 'b' :: _ => some 2
    | _ => none
  match radix? with
  | some radix => do
    let (ds, s) ← someDigits radix ⟨s.offset + 2, s.rest.drop 2⟩
    return (← signed? false (← Text.ofDigits? radix ds), s)
  | none => do
    let (negative, s) := s.sign
    let (ds, s) ← s.decimalDigits
    return (← signed? negative (decimalValue ds), s)

/-- The fraction of a number, if there is one: its digits. -/
def fraction (s : Cursor) : Option (List Char × Cursor) :=
  (s.expect '.').bind (someDigits 10)

/-- The power of ten of a number. -/
def power (s : Cursor) : Option (Int × Cursor) := do
  let (_, s) ← s.take fun c => c == 'e' || c == 'E'
  let (negative, s) := s.sign
  let (ds, s) ← s.someDigits 10
  let n : Int := decimalValue ds
  return (if negative then -n else n, s)

/-- A number with a fraction, a power of ten or both. -/
def decimal (s : Cursor) : Option (Binary64 × Cursor) := do
  let (negative, s) := s.sign
  let (whole, s) ← s.decimalDigits
  let (places, e, s) ←
    match s.fraction with
    | some (places, s) =>
      match s.power with
      | some (e, s) => some (places, e, s)
      | none => some (places, 0, s)
    | none => (s.power).map fun (e, s) => ([], e, s)
  let x := Binary64.ofDecimal negative (decimalValue (whole ++ places)) (e - places.length)
  if x = .infinite false then none else return (x, s)

/-- A number that is written as a word. -/
def wordNumber (s : Cursor) : Option (Binary64 × Cursor) :=
  let (negative, s) := s.sign
  match s.expectAll ['i', 'n', 'f'] with
  | some s => some (.infinite negative, s)
  | none => (s.expectAll ['n', 'a', 'n']).map (.nan, ·)

/-- A floating point number. -/
def float (s : Cursor) : Option (Binary64 × Cursor) := s.decimal.orElse fun _ => s.wordNumber

/-- A truth value. -/
def boolean (s : Cursor) : Option (Bool × Cursor) :=
  match s.expectAll ['t', 'r', 'u', 'e'] with
  | some s => some (true, s)
  | none => (s.expectAll ['f', 'a', 'l', 's', 'e']).map (false, ·)

/-! ## Dates and times -/

/-- A number of exactly so many digits between two bounds. -/
def bounded (width low high : Nat) (s : Cursor) : Option (Nat × Cursor) := do
  let (ds, s) ← s.takeExactly Text.isDigit width
  let n := decimalValue ds
  if low ≤ n ∧ n ≤ high then return (n, s) else none

/-- The days of a month. -/
def daysOf (year month : Nat) : Nat :=
  if month = 2 then
    if year % 4 = 0 ∧ (year % 100 ≠ 0 ∨ year % 400 = 0) then 29 else 28
  else if month = 4 ∨ month = 6 ∨ month = 9 ∨ month = 11 then 30
  else 31

/-- A day of the calendar. -/
def date (s : Cursor) : Option Cursor := do
  let (year, s) ← s.bounded 4 0 9999
  let s ← s.expect '-'
  let (month, s) ← s.bounded 2 1 12
  let s ← s.expect '-'
  let (_, s) ← s.bounded 2 1 (daysOf year month)
  return s

/-- A time of day, to any fraction of a second; a leap second is allowed. -/
def time (s : Cursor) : Option Cursor := do
  let (_, s) ← s.bounded 2 0 23
  let s ← s.expect ':'
  let (_, s) ← s.bounded 2 0 59
  let s ← s.expect ':'
  let (_, s) ← s.bounded 2 0 60
  match s.expect '.' with
  | none => return s
  | some t =>
    let (ds, t) := t.takeWhile Text.isDigit
    return if ds.isEmpty then s else t

/-- A distance from universal time. -/
def zone (s : Cursor) : Option Cursor := do
  let (c, s) ← s.take fun c => c == 'Z' || c == 'z' || c == '+' || c == '-'
  if c == 'Z' || c == 'z' then return s
  let (_, s) ← s.bounded 2 0 23
  let s ← s.expect ':'
  let (_, s) ← s.bounded 2 0 59
  return s

/-- A date, a time, or both with or without a zone. -/
def moment (s : Cursor) : Option Cursor :=
  match s.date with
  | none => s.time
  | some s =>
    match (s.take fun c => c == 'T' || c == 't' || c == ' ').bind (time ·.2) with
    | none => some s
    | some t => some (t.zone.getD t)

/-- A value that starts with a digit or a sign. -/
def numeric (s : Cursor) : Option (Scalar × Cursor) :=
  match s.moment with
  | some s => some (.datetime, s)
  | none =>
    match s.float with
    | some (x, s) => some (.float x, s)
    | none => s.integer.map fun (n, s) => (.integer n, s)

end Cursor

end LoopbackLock.Toml
