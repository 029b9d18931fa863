import LoopbackLock.Text.Numeral
import LoopbackLock.Text.Unprintable
import LoopbackLock.Toml.Item

/-!
# Diagnostics

A document may be well-formed and still not say what is wanted of it. A complaint names what is
wrong; a diagnostic shows it under the line of the document where it starts.
-/

namespace LoopbackLock.Toml

/-- What is wrong with an item. -/
inductive Complaint
  /-- The item is of another kind than the wanted one. -/
  | wrongType (found : String) (wanted : String)
  /-- The value is of the right kind and out of range. -/
  | outOfRange (n : Int) (wanted : String)
  /-- A word is none of those that are allowed. -/
  | unknownWord (word : String) (allowed : List String)
  /-- A table has another number of entries than one. -/
  | notOneEntry (none : Bool)
  /-- An item that should hold nothing is of a kind that cannot be empty. -/
  | notEmptiable (found : String)
  /-- A table, or an array that stands for one, should be empty. -/
  | notEmptyTable
  /-- A repeated table should not be there. -/
  | notEmptyArray
  /-- Neither a word nor a table. -/
  | notWordOrTable
  /-- The text is not of the form it should have. -/
  | badText (why : String)
  deriving DecidableEq, Repr

/-- A complaint with the place it is about, if that is known. -/
structure Problem where
  complaint : Complaint
  span : Option Span
  deriving DecidableEq, Repr

/-- An item as a complaint about its kind names it. -/
def Item.description : Item → String
  | .scalar (.string s) _ => "string " ++ Text.quoted s
  | .scalar (.integer n) _ => "integer `" ++ Text.signedDecimal n ++ "`"
  | .scalar (.float x) _ => "floating point `" ++ x.text ++ "`"
  | .scalar (.boolean b) _ => "boolean `" ++ (if b then "true" else "false") ++ "`"
  | .scalar .datetime _ => "map"
  | .array .. | .tables _ => "sequence"
  | .inlineTable _ | .table _ => "map"

/-- Words in back quotes: two are joined by "or", more are listed. -/
def wordList : List String → String
  | [a, b] => "`" ++ a ++ "` or `" ++ b ++ "`"
  | [a] => "`" ++ a ++ "`"
  | words => "one of " ++ String.intercalate ", " (words.map fun w => "`" ++ w ++ "`")

/-- The wording of a complaint. -/
def Complaint.message : Complaint → String
  | wrongType found wanted => "invalid type: " ++ found ++ ", expected " ++ wanted
  | outOfRange n wanted =>
    "invalid value: integer `" ++ Text.signedDecimal n ++ "`, expected " ++ wanted
  | unknownWord word allowed =>
    "unknown variant `" ++ word ++ "`, expected " ++ wordList allowed
  | notOneEntry true => "wanted exactly 1 element, found 0 elements"
  | notOneEntry false => "wanted exactly 1 element, more than 1 element"
  | notEmptiable found => "expected table, found " ++ found
  | notEmptyTable => "expected empty table"
  | notEmptyArray => "expected empty array"
  | notWordOrTable => "wanted string or table"
  | badText why => why

/-- A place as a reader counts: the line before it, and the characters before it in its line. -/
structure Position where
  line : Nat
  column : Nat
  deriving DecidableEq, Repr

/-- The place of an offset, and the text of its line without the line feed. -/
def locate (text : List Char) (offset : Nat) : Position × List Char :=
  go 0 0 [] 0 text
where
  /-- Goes on with `before` characters of the current line, in reverse. -/
  go (line column : Nat) (before : List Char) (passed : Nat) : List Char → Position × List Char
    | [] => (⟨line, column⟩, before.reverse)
    | c :: cs =>
      if offset ≤ passed then (⟨line, column⟩, before.reverse ++ (c :: cs).takeWhile (· != '\n'))
      else if c = '\n' then go (line + 1) 0 [] (passed + 1) cs
      else go line (column + 1) (c :: before) (passed + c.utf8Size) cs

/-- The diagnostic of a problem: where it is, the line with a mark under the item, as far as it is
on that line, and the complaint. -/
def Problem.render (text : String) (p : Problem) : String :=
  let shown :=
    match p.span with
    | none => ""
    | some span =>
      let (place, content) := locate text.toList span.start
      let number := Text.decimal (place.line + 1)
      let gutter := "".pushn ' ' (number.length + 1) ++ "|"
      let width := min (span.stop - span.start) (Cursor.sizeOf content - place.column)
      "TOML parse error at line " ++ number ++ ", column " ++ Text.decimal (place.column + 1) ++
        "\n" ++ gutter ++ "\n" ++ number ++ " | " ++ String.ofList content ++ "\n" ++ gutter ++
        "".pushn ' ' (place.column + 1) ++ "".pushn '^' (max 1 width) ++ "\n"
  shown ++ p.complaint.message ++ "\n"

end LoopbackLock.Toml
