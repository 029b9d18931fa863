import LoopbackLock.Toml.Binary64
import LoopbackLock.Toml.Cursor

/-!
# Documents as trees

What a document says: tables of keyed items, in the order in which the keys came. Every item knows
where it stands; a table that only the keys of others have brought about stands nowhere.
-/

namespace LoopbackLock.Toml

/-- A key where it is written. -/
structure Key where
  name : String
  span : Span
  deriving DecidableEq, Repr

/-- A value that is neither an array nor a table. -/
inductive Scalar
  | string (s : String)
  | integer (n : Int)
  | float (x : Binary64)
  | boolean (b : Bool)
  /-- A date, a time or both. -/
  | datetime
  deriving DecidableEq, Repr

/-- A table. An implicit table was brought about by a longer key or header; a dotted one by a
dotted key. -/
structure Table (α : Type) where
  entries : List (Key × α) := []
  implicit : Bool := false
  dotted : Bool := false
  span : Option Span := none

/-- What a key may stand for. -/
inductive Item
  | scalar (value : Scalar) (span : Span)
  /-- An array written with brackets. -/
  | array (elements : List Item) (span : Span)
  /-- A table written with braces, or a part of one. -/
  | inlineTable (table : Table Item)
  /-- A table of headers and dotted keys. -/
  | table (table : Table Item)
  /-- The tables of one repeated header. -/
  | tables (elements : List (Table Item))

namespace Table

variable {α : Type}

/-- The item of a name. -/
def find? (t : Table α) (name : String) : Option α :=
  (t.entries.find? fun (k, _) => k.name = name).map Prod.snd

/-- Puts an item behind the others. -/
def append (t : Table α) (key : Key) (x : α) : Table α :=
  { t with entries := t.entries ++ [(key, x)] }

/-- Replaces the item of a name where it stands. -/
def replace (t : Table α) (name : String) (x : α) : Table α :=
  { t with entries := t.entries.map fun (k, y) => if k.name = name then (k, x) else (k, y) }

/-- Takes the item of a name away. -/
def erase (t : Table α) (name : String) : Table α :=
  { t with entries := t.entries.filter fun (k, _) => k.name ≠ name }

/-- Changes the item of a name, or puts a new one behind the others. -/
def alter (t : Table α) (key : Key) (change : Option α → Option α) : Option (Table α) :=
  match t.find? key.name with
  | some x => (change (some x)).map (t.replace key.name)
  | none => (change none).map (t.append key)

end Table

/-- The stretch from the first of several stretches to the last. -/
def Span.cover? (first last : Option Span) : Option Span :=
  first.bind fun f => last.map fun l => ⟨f.start, l.stop⟩

namespace Item

/-- Where an item stands. -/
def span? : Item → Option Span
  | scalar _ span | array _ span => some span
  | inlineTable t | table t => t.span
  | tables ts => Span.cover? (ts.head?.bind Table.span) (ts.getLast?.bind Table.span)

/-- The kind of an item in messages. -/
def typeName : Item → String
  | scalar (.string _) _ => "string"
  | scalar (.integer _) _ => "integer"
  | scalar (.float _) _ => "float"
  | scalar (.boolean _) _ => "boolean"
  | scalar .datetime _ => "datetime"
  | array .. => "array"
  | inlineTable _ => "inline table"
  | table _ => "table"
  | tables _ => "array of tables"

end Item

end LoopbackLock.Toml
