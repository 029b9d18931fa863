import LoopbackLock.Toml.Number
import LoopbackLock.Toml.Quoted

/-!
# Keys and values

A key path is one key or more with points between them. Arrays may spread over lines and end in a
comma; tables in braces may do neither. Arrays and such tables may nest at most `maxDepth - 1` deep,
and a key path is shorter than `maxDepth`.
-/

namespace LoopbackLock.Toml

/-- The depth that a document may not reach. -/
def maxDepth : Nat := 80

/-- A character of a key without quotes. -/
def isBare (c : Char) : Bool :=
  Text.isDigit c || ('a' ≤ c && c ≤ 'z') || ('A' ≤ c && c ≤ 'Z') || c == '_' || c == '-'

namespace Table

/-- Walks down a path of keys and changes the table at its end; a missing table on the way is
made. Only a table that another path has brought about can be walked through. -/
def descendInline (change : Table Item → Option (Table Item)) :
    List Key → Table Item → Option (Table Item)
  | [], t => change t
  | key :: path, t =>
    t.alter key fun
      | none => (descendInline change path { implicit := true, dotted := true }).map .inlineTable
      | some (.inlineTable child) =>
        if child.implicit then (descendInline change path child).map .inlineTable else none
      | some _ => none

/-- Puts an item under a name that is free; a table made by dotted keys takes only items that come
by a path, and every other table only items that come without one. -/
def insertNew (byPath : Bool) (key : Key) (x : Item) (t : Table Item) : Option (Table Item) :=
  if t.dotted != byPath then none
  else if (t.find? key.name).isSome then none
  else some (t.append key x)

/-- Puts an item at the end of a path into a table in braces. -/
def insertInline (t : Table Item) (path : List Key) (key : Key) (x : Item) :
    Option (Table Item) :=
  t.descendInline (insertNew (!path.isEmpty) key x) path

end Table

namespace Cursor

/-- One key, bare or quoted. -/
def key (s : Cursor) : Option (Key × Cursor) :=
  let (cs, t) := s.takeWhile isBare
  if !cs.isEmpty then some (⟨String.ofList cs, s.spanTo t⟩, t)
  else s.shortString.map fun (name, t) => (⟨name, s.spanTo t⟩, t)

/-- Keys with points between them, spaces around each aside. -/
def keys : Nat → Cursor → Option (List Key × Cursor)
  | 0, _ => none
  | fuel + 1, s => do
    let (k, s) ← s.skipSpace.key
    let s := s.skipSpace
    match s.expect '.' with
    | none => return ([k], s)
    | some s =>
      let (ks, s) ← keys fuel s
      return (k :: ks, s)

/-- A key path: the keys before the last, and the last. -/
def path (s : Cursor) : Option (List Key × Key × Cursor) := do
  let (ks, s) ← s.keys s.fuel
  if maxDepth ≤ ks.length then none
  else return (ks.dropLast, ← ks.getLast?, s)

/-- The elements of an array and the closing bracket. -/
def elements (value : Cursor → Option (Item × Cursor)) : Nat → Cursor →
    Option (List Item × Cursor)
  | 0, _ => none
  | fuel + 1, s =>
    let s := s.skipGap
    match s.expect ']' with
    | some s => some ([], s)
    | none => do
      let (x, s) ← value s
      let s := s.skipGap
      match s.expect ',' with
      | none => return ([x], ← s.expect ']')
      | some s =>
        let (xs, s) ← elements value fuel s
        return (x :: xs, s)

/-- A key path, an equals sign and a value. -/
def pair (value : Cursor → Option (Item × Cursor)) (s : Cursor) :
    Option ((List Key × Key × Item) × Cursor) := do
  let (path, key, s) ← s.path
  let (x, s) ← value (← s.expect '=').skipSpace
  return ((path, key, x), s)

/-- The pairs of a table in braces and the closing brace, put into the table. -/
def pairs (value : Cursor → Option (Item × Cursor)) : Nat → Table Item → Cursor →
    Option (Table Item × Cursor)
  | 0, _, _ => none
  | fuel + 1, t, s => do
    let ((path, key, x), s) ← s.pair value
    let t ← t.insertInline path key x
    let s := s.skipSpace
    match s.expect ',' with
    | none => return (t, ← s.expect '\x7d')
    | some s => pairs value fuel t s

/-- A value, in which arrays and tables may nest `room` deep. -/
def value : Nat → Cursor → Option (Item × Cursor)
  | room, s =>
    match s.rest with
    | '[' :: cs =>
      match room with
      | 0 => none
      | room + 1 => do
        let (xs, t) ← elements (value room) s.fuel ⟨s.offset + 1, cs⟩
        return (.array xs (s.spanTo t), t)
    | '\x7b' :: cs =>
      match room with
      | 0 => none
      | room + 1 => do
        let inner := (Cursor.mk (s.offset + 1) cs).skipSpace
        let (table, t) ←
          match inner.expect '\x7d' with
          | some t => some ({}, t)
          | none => pairs (value room) s.fuel {} inner
        return (.inlineTable { table with span := some (s.spanTo t) }, t)
    | c :: _ => do
      let (x, t) ←
        if c == '"' || c == '\'' then s.string.map fun (x, t) => (Scalar.string x, t)
        else if c == 't' || c == 'f' then s.boolean.map fun (b, t) => (.boolean b, t)
        else if c == 'i' || c == 'n' then s.wordNumber.map fun (x, t) => (.float x, t)
        else s.numeric
      return (.scalar x (s.spanTo t), t)
    | [] => none

end Cursor

end LoopbackLock.Toml
