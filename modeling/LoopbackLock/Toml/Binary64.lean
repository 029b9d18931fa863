import LoopbackLock.Text.Numeral

/-!
# Floating point numbers

Numbers of sixty-four bits: a mantissa below 2^53 times a power of two, or infinite, or not a
number. A decimal number becomes the nearest of them, the one with the even mantissa if two are
equally near. A number is written with the fewest digits that lead back to it, nearest to it and the
greater if two are equally near, without an exponent.
-/

namespace LoopbackLock.Toml

/-- A floating point number; a finite one is the mantissa times two to the exponent. -/
inductive Binary64
  | nan
  | infinite (negative : Bool)
  | finite (negative : Bool) (mantissa : Nat) (exponent : Int)
  deriving DecidableEq, Repr

namespace Binary64

/-- The least exponent. -/
def leastExponent : Int := -1074

/-- The greatest exponent of a mantissa of 53 bits. -/
def greatestExponent : Int := 971

/-- A quotient multiplied by a power of a base. -/
def scale (base : Nat) (e : Int) (num den : Nat) : Nat × Nat :=
  if 0 ≤ e then (num * base.pow e.toNat, den) else (num, den * base.pow (-e).toNat)

/-- The whole number nearest to a quotient, the even one if two are equally near. -/
def roundQuotient (num den : Nat) : Nat :=
  let q := num / den
  let r := 2 * (num % den)
  if r < den || (r == den && q % 2 == 0) then q else q + 1

/-- The whole number nearest to a quotient, the greater one if two are equally near. -/
def roundQuotientUp (num den : Nat) : Nat := (2 * num + den) / (2 * den)

/-- The number nearest to a quotient. -/
def nearest (negative : Bool) (num den : Nat) : Binary64 :=
  if num = 0 then finite negative 0 0
  else
    let guess : Int := (Nat.log2 num : Int) - Nat.log2 den - 53
    let fits (e : Int) : Bool :=
      let (n, d) := scale 2 (-e) num den
      n / d < Nat.pow 2 53
    let e := max leastExponent (if fits guess then guess else guess + 1)
    let (n, d) := scale 2 (-e) num den
    let m := roundQuotient n d
    let (m, e) := if m = Nat.pow 2 53 then (Nat.pow 2 52, e + 1) else (m, e)
    if greatestExponent < e then infinite negative else finite negative m e

/-- The number nearest to a decimal: a whole number times a power of ten. Decimals far outside the
range need no power computed. -/
def ofDecimal (negative : Bool) (digits : Nat) (e : Int) : Binary64 :=
  let magnitude := e + (Text.digits 10 digits).length
  if digits = 0 then finite negative 0 0
  else if 400 < magnitude then infinite negative
  else if magnitude < -400 then finite negative 0 0
  else
    let (num, den) := scale 10 e digits 1
    nearest negative num den

/-- The least exponent of ten whose power is above a quotient, looked for from a guess upward. -/
def decimalExponent (num den : Nat) : Nat → Int → Int
  | 0, k => k
  | fuel + 1, k =>
    let (n, d) := scale 10 (-k) num den
    if n < d then k else decimalExponent num den fuel (k + 1)

/-- Whether the nearest number to the decimal `n` times ten to the `p` is the given one. -/
def reads (m : Nat) (e : Int) (n : Nat) (p : Int) : Bool :=
  ofDecimal false n p == finite false m e

/-- The fewest digits that lead back to a number, nearest to it and the greater of two that are
equally near: digits and the exponent of ten. Each grid of decimals is tried in turn, at the two
points next to the number. -/
def shortest (m : Nat) (e : Int) : Nat × Int :=
  let (num, den) := scale 2 e m 1
  let guess : Int := ((Nat.log2 m : Int) + e) * 30103 / 100000 - 1
  let top := decimalExponent num den 8 guess
  let rec go : Nat → Int → Nat × Int
    | 0, p =>
      let (n, d) := scale 10 (-p) num den
      (roundQuotientUp n d, p)
    | fuel + 1, p =>
      let (n, d) := scale 10 (-p) num den
      let below := n / d
      let near := roundQuotientUp n d
      let far := if near = below then below + 1 else below
      if 0 < near && reads m e near p then (near, p)
      else if 0 < far && reads m e far p then (far, p)
      else go fuel (p - 1)
  go 16 (top - 1)

/-- Digits and an exponent of ten as a number without exponent, with a digit on each side of the
point. -/
def positional (n : Nat) (p : Int) : List Char :=
  let ds := Text.digits 10 n
  if 0 ≤ p then ds ++ List.replicate p.toNat '0' ++ ['.', '0']
  else
    let places := (-p).toNat
    let padded := List.replicate (places + 1 - ds.length) '0' ++ ds
    let whole := padded.length - places
    let fraction := (padded.drop whole).reverse.dropWhile (· == '0') |>.reverse
    padded.take whole ++ '.' :: (if fraction.isEmpty then ['0'] else fraction)

/-- A number as text. -/
def text : Binary64 → String
  | nan => "NaN"
  | infinite false => "inf"
  | infinite true => "-inf"
  | finite negative m e =>
    let magnitude :=
      if m = 0 then ['0', '.', '0']
      else
        let (n, p) := shortest m e
        positional n p
    String.ofList (if negative then '-' :: magnitude else magnitude)

end Binary64

end LoopbackLock.Toml
