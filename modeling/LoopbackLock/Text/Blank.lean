/-!
# Blank characters

The characters of the Unicode property `White_Space`, and the trimming of a text by them.
Trimming drops blanks at an end and nothing else; a text is blank when nothing is left.
-/

namespace LoopbackLock.Text

/-- The property `White_Space`: 25 characters, six of them ASCII. -/
def isBlank (c : Char) : Bool :=
  let n := c.toNat
  (9 ≤ n && n ≤ 13) || n == 0x20 || n == 0x85 || n == 0xA0 || n == 0x1680 ||
    (0x2000 ≤ n && n ≤ 0x200A) || n == 0x2028 || n == 0x2029 || n == 0x202F ||
    n == 0x205F || n == 0x3000

/-- The numbers of the characters that have the property, in the order of the standard's table. -/
def whiteSpace : List Nat :=
  [0x09, 0x0A, 0x0B, 0x0C, 0x0D, 0x20, 0x85, 0xA0, 0x1680,
    0x2000, 0x2001, 0x2002, 0x2003, 0x2004, 0x2005, 0x2006, 0x2007, 0x2008, 0x2009, 0x200A,
    0x2028, 0x2029, 0x202F, 0x205F, 0x3000]

/-- A character is blank if and only if its number is in the table. -/
theorem isBlank_iff {c : Char} : isBlank c = true ↔ c.toNat ∈ whiteSpace := by
  simp only [isBlank, whiteSpace, Bool.or_eq_true, Bool.and_eq_true, beq_iff_eq, decide_eq_true_eq,
    List.mem_cons, List.not_mem_nil, or_false]
  omega

/-- Drops the characters of a class at the end of a list. -/
def dropEndWhile (p : Char → Bool) (cs : List Char) : List Char :=
  (cs.reverse.dropWhile p).reverse

/-- The text without the blanks at its end. -/
def trimEnd (s : String) : String := String.ofList (dropEndWhile isBlank s.toList)

/-- The text without the blanks at both ends. -/
def trim (s : String) : String :=
  String.ofList (dropEndWhile isBlank (s.toList.dropWhile isBlank))

/-- A text of blanks only, the empty text among them. -/
def isBlankText (s : String) : Bool := s.toList.all isBlank

/-- An ASCII letter in lower case; every other character as it is. -/
def lowerAscii (s : String) : String := s.map Char.toLower

end LoopbackLock.Text
