/-!
# Cursors

A cursor is a place in a document: how many bytes lie before it, and the characters after it. The
readers of this folder take a cursor and give back what they read with the cursor behind it, or
nothing if the document does not go on as they need.
-/

namespace LoopbackLock.Toml

/-- A place in a document. -/
structure Cursor where
  offset : Nat
  rest : List Char
  deriving DecidableEq, Repr

/-- A stretch of a document, in bytes. -/
structure Span where
  start : Nat
  stop : Nat
  deriving DecidableEq, Repr

namespace Cursor

/-- The beginning of a document. -/
def ofString (s : String) : Cursor := ⟨0, s.toList⟩

/-- The bytes that a list of characters takes in UTF-8. -/
def sizeOf (cs : List Char) : Nat := cs.foldl (fun n c => n + c.utf8Size) 0

/-- Drops the next character if it is the given one. -/
def expect (c : Char) (s : Cursor) : Option Cursor :=
  match s.rest with
  | [] => none
  | d :: cs => if c = d then some ⟨s.offset + d.utf8Size, cs⟩ else none

/-- Drops the given characters if they come next. -/
def expectAll : List Char → Cursor → Option Cursor
  | [], s => some s
  | c :: cs, s => (s.expect c).bind (expectAll cs)

/-- Takes the next character if it is in a class. -/
def take (p : Char → Bool) (s : Cursor) : Option (Char × Cursor) :=
  match s.rest with
  | [] => none
  | d :: cs => if p d then some (d, ⟨s.offset + d.utf8Size, cs⟩) else none

/-- Takes characters as long as they are in a class. -/
def takeWhile (p : Char → Bool) (s : Cursor) : List Char × Cursor :=
  let taken := s.rest.takeWhile p
  (taken, ⟨s.offset + sizeOf taken, s.rest.dropWhile p⟩)

/-- Takes exactly `n` characters of a class. -/
def takeExactly (p : Char → Bool) : Nat → Cursor → Option (List Char × Cursor)
  | 0, s => some ([], s)
  | n + 1, s => do
    let (c, s) ← s.take p
    let (cs, s) ← takeExactly p n s
    return (c :: cs, s)

/-- The stretch between two cursors. -/
def spanTo (s t : Cursor) : Span := ⟨s.offset, t.offset⟩

/-- How much fuel a loop over the rest needs that reads a character or more in each round. -/
def fuel (s : Cursor) : Nat := s.rest.length + 1

end Cursor

/-! ## Blanks, line ends and comments -/

/-- A space or a tab. -/
def isSpace (c : Char) : Bool := c == ' ' || c == '\t'

/-- A character a comment or a literal string may hold: a tab, or anything but a control
character. -/
def isPlain (c : Char) : Bool := c == '\t' || (0x20 ≤ c.toNat && c.toNat != 0x7F)

namespace Cursor

/-- Skips spaces and tabs. -/
def skipSpace (s : Cursor) : Cursor := (s.takeWhile isSpace).2

/-- A line feed, or a carriage return with one. -/
def newline (s : Cursor) : Option Cursor :=
  match s.rest with
  | '\n' :: cs => some ⟨s.offset + 1, cs⟩
  | '\r' :: '\n' :: cs => some ⟨s.offset + 2, cs⟩
  | _ => none

/-- Skips a comment, if there is one, up to the end of its line. -/
def skipComment (s : Cursor) : Cursor :=
  match s.rest with
  | '#' :: _ => (s.takeWhile isPlain).2
  | _ => s

/-- The end of a statement: spaces, a comment, and then a line end or the end of the document. -/
def lineEnd (s : Cursor) : Option Cursor :=
  let s := s.skipSpace.skipComment
  if s.rest.isEmpty then some s else s.newline

/-- Skips what may stand between the elements of an array: spaces, line ends and comments. -/
def skipGap (s : Cursor) : Cursor := go false s.offset s.rest
where
  /-- Goes on inside a comment or outside. -/
  go (comment : Bool) (offset : Nat) : List Char → Cursor
    | [] => ⟨offset, []⟩
    | c :: cs =>
      if comment && isPlain c then go true (offset + c.utf8Size) cs
      else if isSpace c || c == '\n' then go false (offset + 1) cs
      else if c == '\r' && cs.head? == some '\n' then go false (offset + 1) cs
      else if c == '#' then go true (offset + 1) cs
      else ⟨offset, c :: cs⟩

end Cursor

end LoopbackLock.Toml
