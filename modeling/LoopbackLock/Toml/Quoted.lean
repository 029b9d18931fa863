import LoopbackLock.Text.Numeral
import LoopbackLock.Toml.Cursor

/-!
# Quoted strings

A string stands between single or double quotes, on one line, or between triple quotes, on any
number of lines. Backslashes have a meaning between double quotes only. In a string of several lines
a line end at the very beginning is dropped, every other one is a line feed, and one or two quotes
may stand anywhere, right before the closing ones too.
-/

namespace LoopbackLock.Toml.Cursor

/-- A character between double quotes that stands for itself. -/
def isBasic (c : Char) : Bool := isPlain c && c != '"' && c != '\\'

/-- A character between single quotes. -/
def isLiteral (c : Char) : Bool := isPlain c && c != '\''

/-- The character of a code point. -/
def scalarValue? (n : Nat) : Option Char := if n.isValidChar then some (Char.ofNat n) else none

/-- What a backslash and the characters behind it stand for; the backslash is read already. -/
def escaped (s : Cursor) : Option (Char × Cursor) :=
  match s.take fun _ => true with
  | none => none
  | some (c, s) =>
    let numbered (width : Nat) : Option (Char × Cursor) := do
      let (ds, s) ← s.takeExactly (fun c => (Text.digitOf? 16 c).isSome) width
      return (← scalarValue? (← Text.ofDigits? 16 ds), s)
    match c with
    | 'b' => some ('\x08', s)
    | 't' => some ('\t', s)
    | 'n' => some ('\n', s)
    | 'f' => some ('\x0c', s)
    | 'r' => some ('\r', s)
    | '"' => some ('"', s)
    | '\\' => some ('\\', s)
    | 'u' => numbered 4
    | 'U' => numbered 8
    | _ => none

/-- The characters of a string between double quotes, and the closing quote. -/
def basicBody : Nat → Cursor → Option (List Char × Cursor)
  | 0, _ => none
  | fuel + 1, s =>
    let (cs, s) := s.takeWhile isBasic
    match s.expect '"' with
    | some s => some (cs, s)
    | none => do
      let (c, s) ← (← s.expect '\\').escaped
      let (more, s) ← basicBody fuel s
      return (cs ++ c :: more, s)

/-- The characters of a string between single quotes, and the closing quote. -/
def literalBody (s : Cursor) : Option (List Char × Cursor) :=
  let (cs, s) := s.takeWhile isLiteral
  (s.expect '\'').map (cs, ·)

/-- The end of a string of several lines: three quotes, behind at most two that belong to it. -/
def closing (quote : Char) (s : Cursor) : Option (List Char × Cursor) :=
  let (quotes, after) := s.takeWhile (· == quote)
  let n := quotes.length
  if 3 ≤ n ∧ n ≤ 5 then some (List.replicate (n - 3) quote, after) else none

/-- Skips the blanks and line ends behind a backslash that ends its line. -/
def foldedLines : Nat → Cursor → Cursor
  | 0, s => s
  | fuel + 1, s =>
    match s.skipSpace.newline with
    | some s => foldedLines fuel s
    | none => s.skipSpace

/-- The characters of a string of several lines and its closing quotes. -/
def longBody (quote : Char) : Nat → Cursor → Option (List Char × Cursor)
  | 0, _ => none
  | fuel + 1, s =>
    let (cs, s) := s.takeWhile (if quote == '"' then isBasic else isLiteral)
    let goOn (piece : List Char) (s : Cursor) : Option (List Char × Cursor) :=
      (longBody quote fuel s).map fun (more, s) => (cs ++ piece ++ more, s)
    match s.newline with
    | some s => goOn ['\n'] s
    | none =>
      match s.closing quote with
      | some (quotes, s) => some (cs ++ quotes, s)
      | none =>
        match s.expect quote with
        | some t => if (s.takeWhile (· == quote)).1.length < 3 then goOn [quote] t else none
        | none => do
          let s ← s.expect '\\'
          match s.skipSpace.newline with
          | some s => goOn [] (foldedLines s.fuel s)
          | none =>
            let (c, s) ← s.escaped
            goOn [c] s

/-- A string on one line. -/
def shortString (s : Cursor) : Option (String × Cursor) :=
  let body? : Option (List Char × Cursor) :=
    match s.expect '"' with
    | some s => s.basicBody s.fuel
    | none => (s.expect '\'').bind literalBody
  body?.map fun (cs, s) => (String.ofList cs, s)

/-- A string of several lines. -/
def longString (quote : Char) (s : Cursor) : Option (String × Cursor) := do
  let s ← s.expectAll [quote, quote, quote]
  let s := s.newline.getD s
  let (cs, s) ← s.longBody quote s.fuel
  return (String.ofList cs, s)

/-- Any string. -/
def string (s : Cursor) : Option (String × Cursor) :=
  match s.rest with
  | '"' :: '"' :: '"' :: _ => s.longString '"'
  | '\'' :: '\'' :: '\'' :: _ => s.longString '\''
  | _ => s.shortString

end LoopbackLock.Toml.Cursor
