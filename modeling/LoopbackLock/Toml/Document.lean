import LoopbackLock.Toml.Value

/-!
# Documents

A document is a run of statements: pairs, which go into the table of the last header, and headers,
which open a table or add a table to an array. A table is opened at most once, a key is given at
most once, and dotted keys go only through tables that dotted keys or longer headers have made.
-/

namespace LoopbackLock.Toml

/-- A statement of a document. -/
inductive Statement
  /-- An item at the end of a path. -/
  | pair (path : List Key) (key : Key) (item : Item)
  /-- The header of a table. -/
  | header (path : List Key) (key : Key) (span : Span)
  /-- The header of one more table of an array. -/
  | element (path : List Key) (key : Key) (span : Span)

namespace Table

/-- Walks down a path of keys and changes the table at its end. A missing table on the way is made,
an array of tables stands for its last one. A dotted path goes only through implicit tables. -/
def descend (dotted : Bool) (change : Table Item → Option (Table Item)) :
    List Key → Table Item → Option (Table Item)
  | [], t => change t
  | key :: path, t =>
    t.alter key fun
      | none => (descend dotted change path { implicit := true, dotted }).map .table
      | some (.table child) =>
        if dotted && !child.implicit then none else (descend dotted change path child).map .table
      | some (.tables ts) =>
        match ts.getLast? with
        | none => none
        | some last =>
          (descend dotted change path last).map fun last => .tables (ts.dropLast ++ [last])
      | some _ => none

end Table

/-- A document under way: all tables closed so far, and the table of the last header with the path
to it; the path is empty before the first header. -/
structure Draft where
  root : Table Item := {}
  current : Table Item := {}
  path : List Key := []
  /-- The current table is one more of an array. -/
  repeated : Bool := false

namespace Draft

/-- Puts a closed table where its header says. -/
def place (repeated : Bool) (t : Table Item) (key : Key) (parent : Table Item) :
    Option (Table Item) :=
  parent.alter key fun
    | none => some (if repeated then .tables [t] else .table t)
    | some (.tables ts) => if repeated then some (.tables (ts ++ [t])) else none
    | some (.table old) => if !repeated && old.implicit then some (.table t) else none
    | some _ => none

/-- Closes the current table. -/
def close (d : Draft) : Option (Table Item) :=
  match d.path.getLast? with
  | none => some d.current
  | some key => d.root.descend false (place d.repeated d.current key) d.path.dropLast

/-- Adds an item to the current table, whose stretch then reaches to the end of the item. -/
def addPair (d : Draft) (path : List Key) (key : Key) (x : Item) : Option Draft := do
  let t := { d.current with span := (Span.cover? d.current.span x.span?).or d.current.span }
  return { d with current := ← t.descend true (Table.insertNew (!path.isEmpty) key x) path }

/-- The table at the end of a path, if there is one. -/
def lookup (t : Table Item) : List Key → Option (Table Item)
  | [] => some t
  | key :: path =>
    match t.find? key.name with
    | some (.table child) => lookup child path
    | some (.tables ts) => ts.getLast?.bind (lookup · path)
    | _ => none

/-- Opens the table of a header. What longer headers have put into it stays in it; the table itself
moves behind its neighbours. -/
def openTable (d : Draft) (path : List Key) (key : Key) (span : Span) : Option Draft := do
  let root ← d.close
  let held ←
    match (lookup root path).bind (·.find? key.name) with
    | none => some {}
    | some (.table t) => if t.implicit && !t.dotted then some t else none
    | some _ => none
  let root ← root.descend false (fun parent => some (parent.erase key.name)) path
  return {
    root, path := path ++ [key]
    current := { held with implicit := false, dotted := false, span := some span } }

/-- Opens one more table of an array. -/
def openElement (d : Draft) (path : List Key) (key : Key) (span : Span) : Option Draft := do
  let root ← d.close
  let root ← root.descend false (fun parent => parent.alter key fun
    | none => some (.tables [])
    | some (.tables ts) => some (.tables ts)
    | some _ => none) path
  return { root, path := path ++ [key], current := { span := some span }, repeated := true }

/-- Takes a statement in. -/
def add (d : Draft) : Statement → Option Draft
  | .pair path key x => d.addPair path key x
  | .header path key span => d.openTable path key span
  | .element path key span => d.openElement path key span

end Draft

namespace Cursor

/-- A header, single or double. -/
def header (s : Cursor) : Option (Statement × Cursor) := do
  let t ← s.expect '['
  match t.expect '[' with
  | some t =>
    let (path, key, t) ← t.path
    let t ← t.expectAll [']', ']']
    return (.element path key (s.spanTo t), t)
  | none =>
    let (path, key, t) ← t.path
    let t ← t.expect ']'
    return (.header path key (s.spanTo t), t)

/-- A statement, if the line has one, and the end of the line. -/
def statement (s : Cursor) : Option (Option Statement × Cursor) :=
  match s.rest with
  | [] | '#' :: _ | '\n' :: _ | '\r' :: _ => s.lineEnd.map (none, ·)
  | '[' :: _ => do
    let (h, s) ← s.header
    return (some h, ← s.lineEnd)
  | _ => do
    let ((path, key, x), s) ← s.pair (value (maxDepth - 1))
    return (some (.pair path key x), ← s.lineEnd)

/-- The statements up to the end of the document, taken in one by one. -/
def statements : Nat → Draft → Cursor → Option Draft
  | 0, _, _ => none
  | fuel + 1, d, s =>
    let s := s.skipSpace
    if s.rest.isEmpty then some d
    else do
      let (stmt?, s) ← s.statement
      let d ←
        match stmt? with
        | none => some d
        | some stmt => d.add stmt
      statements fuel d s

end Cursor

/-- The table that a document says; nothing if it is not well-formed. A byte order mark at the
beginning is skipped. -/
def document? (text : String) : Option (Table Item) := do
  let s := Cursor.ofString text
  let s := (s.expect '\uFEFF').getD s
  let d ← s.statements s.fuel {}
  d.close

end LoopbackLock.Toml
