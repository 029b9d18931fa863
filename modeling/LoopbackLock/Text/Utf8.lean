/-!
# Decoding UTF-8

A byte string is cut into items: well-formed characters, and maximal ill-formed pieces, which are
the longest beginnings of a character's encoding that the bytes hold (at least one byte). The
strict reading needs every item to be a character; the lossy reading puts U+FFFD for each
ill-formed piece.
-/

namespace LoopbackLock

/-- A byte string. -/
abbrev Bytes := List UInt8

namespace Text

/-- A multi-byte encoding by its lead byte: the bits the lead brings, the least and the greatest
second byte, and how many bytes follow the second. -/
structure Form where
  bits : Nat
  least : Nat
  greatest : Nat
  more : Nat

/-- The form a lead byte opens; nothing for a byte that opens none. The bounds on the second byte
keep out overlong encodings, surrogates and values above U+10FFFF. -/
def form? (lead : Nat) : Option Form :=
  if lead < 0xC2 then none
  else if lead ≤ 0xDF then some ⟨lead - 0xC0, 0x80, 0xBF, 0⟩
  else if lead = 0xE0 then some ⟨0, 0xA0, 0xBF, 1⟩
  else if lead = 0xED then some ⟨0xD, 0x80, 0x9F, 1⟩
  else if lead ≤ 0xEF then some ⟨lead - 0xE0, 0x80, 0xBF, 1⟩
  else if lead = 0xF0 then some ⟨0, 0x90, 0xBF, 2⟩
  else if lead ≤ 0xF3 then some ⟨lead - 0xF0, 0x80, 0xBF, 2⟩
  else if lead = 0xF4 then some ⟨4, 0x80, 0x8F, 2⟩
  else none

/-- Takes `n` continuation bytes into a value, as far as they go. -/
def continuation : Nat → Nat → Bytes → Option Nat × Bytes
  | 0, value, bs => (some value, bs)
  | _ + 1, _, [] => (none, [])
  | n + 1, value, b :: bs =>
    if 0x80 ≤ b.toNat ∧ b.toNat ≤ 0xBF then continuation n (value * 64 + b.toNat % 64) bs
    else (none, b :: bs)

/-- The item that starts with the byte `b`, and the bytes after it. -/
def item (b : UInt8) (bs : Bytes) : Option Char × Bytes :=
  if b.toNat < 0x80 then (some (Char.ofNat b.toNat), bs)
  else
    match form? b.toNat, bs with
    | some f, c :: cs =>
      if f.least ≤ c.toNat ∧ c.toNat ≤ f.greatest then
        let (value, rest) := continuation f.more (f.bits * 64 + c.toNat % 64) cs
        (value.map Char.ofNat, rest)
      else (none, c :: cs)
    | _, _ => (none, bs)

theorem continuation_length (n value : Nat) (bs : Bytes) :
    (continuation n value bs).2.length ≤ bs.length := by
  induction n generalizing value bs with
  | zero => simp [continuation]
  | succ n ih =>
    cases bs with
    | nil => simp [continuation]
    | cons b bs =>
      simp only [continuation]
      split
      · exact Nat.le_trans (ih _ bs) (by simp)
      · simp

/-- An item takes at least its first byte. -/
theorem item_length (b : UInt8) (bs : Bytes) : (item b bs).2.length ≤ bs.length := by
  unfold item
  split
  · simp
  · split
    · split
      · exact Nat.le_trans (continuation_length ..) (by simp)
      · simp
    · simp

/-- The items of a byte string, in order. -/
def items : Bytes → List (Option Char)
  | [] => []
  | b :: bs =>
    have := item_length b bs
    (item b bs).1 :: items (item b bs).2
termination_by bs => bs.length

/-- The characters of a byte string, U+FFFD for each maximal ill-formed piece. -/
def decodeLossy (bs : Bytes) : List Char := (items bs).map (·.getD '\uFFFD')

/-- The characters of a well-formed byte string. -/
def decode? (bs : Bytes) : Option (List Char) := (items bs).mapM id

/-- The encoding of a text. -/
def encode (s : String) : Bytes := s.toUTF8.data.toList

/-- A byte below 128 is a character of its own, whatever follows it. -/
theorem items_cons_ascii {b : UInt8} (h : b.toNat < 0x80) (bs : Bytes) :
    items (b :: bs) = some (Char.ofNat b.toNat) :: items bs := by
  rw [items]; simp [item, h]

end Text

end LoopbackLock
