import LoopbackLock.Proofs.Toml.Pairs
import Mathlib.Data.List.Forall2
import Mathlib.Data.List.Nodup

/-!
# Documents of lines

A line is a text that reads as one statement whatever stands behind it: a pair of a key and an item,
or nothing at all. A document of lines whose keys differ says the pairs of its lines in their order
(`document?_lines`), and every line adds its own entry to the table (`statements_lines`). A row is a
line laid out with blanks and a comment; the last row of a document has no line end behind it, and
the document says the pairs of its rows (`document?_sheet`).
-/

namespace LoopbackLock.Toml

/-- One line: its characters, and the name and the item it gives, if it gives one; of the item
some property is known. -/
structure Line where
  chars : List Char
  said : Option (String × (Item → Prop))

namespace Line

/-- The statement is the one that the line is known to say. -/
def Means (l : Line) (stmt : Option Statement) : Prop :=
  match l.said, stmt with
  | none, none => True
  | some (name, is), some (.pair [] key x) => key.name = name ∧ is x
  | _, _ => False

/-- The line reads as what it is known to say in front of what stands behind it. -/
def ReadsBefore (l : Line) (rest : List Char) : Prop :=
  ∀ off, ∃ off' stmt, l.Means stmt ∧
    (Cursor.mk off (l.chars ++ rest)).skipSpace.rest ≠ [] ∧
    (Cursor.mk off (l.chars ++ rest)).skipSpace.statement = some (stmt, ⟨off', rest⟩)

/-- The line reads as what it is known to say, whatever stands behind it. -/
def Reads (l : Line) : Prop := ∀ rest, l.ReadsBefore rest

/-- The line may be the last of a document: it reads as what it is known to say at the end, or it
says nothing and has nothing but blanks. -/
def Closes (l : Line) : Prop := l.ReadsBefore [] ∨ l.said = none ∧ IsGap l.chars

/-- An entry is the one that a name and a property tell. -/
def Gives (e : Key × Item) (said : String × (Item → Prop)) : Prop := e.1.name = said.1 ∧ said.2 e.2

end Line

open Cursor

/-! ## Rows -/

/-- A key and a value as they are written. -/
structure Pair where
  name : String
  key : List Char
  value : List Char
  isKey : IsKey key name
  isValue : ReadsValue value fun _ => True

/-- A line without its end: the pair that it says, if it says one, with blanks around its parts and
a comment in the end. -/
structure Row where
  indent : List Char := []
  pair? : Option Pair := none
  before : List Char := []
  behind : List Char := []
  trail : List Char := []
  comment : List Char := []
  isGap : ∀ gap ∈ [indent, before, behind, trail], IsGap gap := by simp [IsGap]
  isComment : IsComment comment := by exact .inl rfl

namespace Row

/-- What stands between the indent of a row and the blanks behind it. -/
def body (r : Row) : List Char :=
  match r.pair? with
  | none => []
  | some p => p.key ++ (r.before ++ '=' :: (r.behind ++ p.value))

def chars (r : Row) : List Char := r.indent ++ (r.body ++ (r.trail ++ r.comment))

/-- The row with its line end. -/
def line (r : Row) (stop : List Char) : Line where
  chars := r.chars ++ stop
  said := r.pair?.map fun p => (p.name, ReadsAs p.value)

/-- A row without a pair is read up to its end, if it has one or a comment. -/
theorem readsBefore_blank {r : Row} (hpair : r.pair? = none) {stop rest : List Char}
    (hend : EndsLine (stop ++ rest) rest) (hsome : r.comment ++ (stop ++ rest) ≠ []) :
    (r.line stop).ReadsBefore rest := by
  intro off
  have hchars : (r.line stop).chars ++ rest =
      (r.indent ++ r.trail) ++ (r.comment ++ (stop ++ rest)) := by
    simp [line, chars, body, hpair]
  have hgap : IsGap (r.indent ++ r.trail) := by
    intro c hc
    exact (List.mem_append.mp hc).elim (r.isGap r.indent (by simp) c) (r.isGap r.trail (by simp) c)
  have hmark : ∃ c cs, r.comment ++ (stop ++ rest) = c :: cs ∧
      (c = '#' ∨ c = '\n' ∨ c = '\r') := by
    obtain hnil | ⟨ds, hds, -⟩ := r.isComment
    · obtain h | h | ⟨h, -⟩ := hend
      · exact ⟨'\n', rest, by rw [hnil, h]; rfl, by simp⟩
      · exact ⟨'\r', '\n' :: rest, by rw [hnil, h]; rfl, by simp⟩
      · exact absurd (by rw [hnil, h]; rfl) hsome
    · exact ⟨'#', ds ++ (stop ++ rest), by rw [hds]; rfl, by simp⟩
  obtain ⟨c, cs, hfirst, hc⟩ := hmark
  have hstart : ∀ d ∈ (r.comment ++ (stop ++ rest)).head?, isSpace d = false := by
    obtain rfl | rfl | rfl := hc <;> simp [hfirst, isSpace]
  obtain ⟨mid, hskip⟩ := skipSpace_gap hgap _ hstart off
  have hnone : IsGap [] := by simp [IsGap]
  obtain ⟨off', hline⟩ := lineEnd_mk hnone r.isComment hend mid
  rw [List.nil_append] at hline
  refine ⟨off', none, by simp [line, hpair, Line.Means], ?_, ?_⟩
  · rw [hchars, hskip, hfirst]
    simp
  · rw [hchars, hskip]
    rw [hfirst] at hline ⊢
    unfold statement
    obtain rfl | rfl | rfl := hc <;> simp [hline]

/-- A row with a pair is read up to its end. -/
theorem readsBefore_pair {r : Row} {p : Pair} (hpair : r.pair? = some p) {stop rest : List Char}
    (hend : EndsLine (stop ++ rest) rest) : (r.line stop).ReadsBefore rest := by
  intro off
  have hchars : (r.line stop).chars ++ rest = r.indent ++ (p.key ++ (r.before ++ '=' ::
      (r.behind ++ (p.value ++ (r.trail ++ (r.comment ++ (stop ++ rest))))))) := by
    simp [line, chars, body, hpair]
  obtain ⟨c, cs, hkey, hc⟩ := p.isKey.head
  have hspace : isSpace c = false := by
    obtain hc | rfl | rfl := hc
    · exact not_isSpace_of_isBare hc
    all_goals decide
  obtain ⟨mid, hskip⟩ := skipSpace_gap (r.isGap r.indent (by simp)) (p.key ++ (r.before ++ '=' ::
      (r.behind ++ (p.value ++ (r.trail ++ (r.comment ++ (stop ++ rest)))))))
    (by simpa [hkey] using hspace) off
  obtain ⟨off', span, x, hx, hstmt⟩ := statement_mk p.isKey p.isValue.readsAs
    (r.isGap r.before (by simp)) (r.isGap r.behind (by simp)) (r.isGap r.trail (by simp))
    r.isComment hend mid
  refine ⟨off', _, ?_, ?_, by rw [hchars, hskip]; exact hstmt⟩
  · simpa [line, hpair, Line.Means] using hx
  · rw [hchars, hskip, hkey]
    simp

/-- A row that has something before its end is read up to the end. -/
theorem readsBefore_line (r : Row) {stop rest : List Char} (hend : EndsLine (stop ++ rest) rest)
    (hsome : r.pair? = none → r.comment ++ (stop ++ rest) ≠ []) :
    (r.line stop).ReadsBefore rest := by
  cases hpair : r.pair? with
  | none => exact readsBefore_blank hpair hend (hsome hpair)
  | some p => exact readsBefore_pair hpair hend

end Row

/-! ## The whole document -/

/-- A new entry goes behind the others if its name is free. -/
theorem Draft.addPair_of_free {d : Draft} {key : Key} (hdotted : d.current.dotted = false)
    (hfree : key.name ∉ d.current.entries.map (·.1.name)) (x : Item) :
    ∃ d', d.addPair [] key x = some d' ∧ d'.path = d.path ∧ d'.current.dotted = false ∧
      d'.current.entries = d.current.entries ++ [(key, x)] := by
  have hfind : d.current.entries.find? (fun e => decide (e.1.name = key.name)) = none := by
    simpa using hfree
  let span := (Span.cover? d.current.span x.span?).or d.current.span
  let current := { d.current with entries := d.current.entries ++ [(key, x)], span }
  refine ⟨{ d with current }, ?_, rfl, hdotted, rfl⟩
  simp [addPair, Table.descend, Table.insertNew, hdotted, Table.find?, hfind, Table.append, current,
    span]

/-- The names are free in the current table, and differ. -/
def Draft.Free (d : Draft) (said : List (String × (Item → Prop))) : Prop :=
  (d.current.entries.map (·.1.name) ++ said.map Prod.fst).Nodup

/-- The current table has got the entries that are told, behind the others. -/
structure Draft.Grows (d d' : Draft) (said : List (String × (Item → Prop))) : Prop where
  path : d'.path = d.path
  dotted : d'.current.dotted = false
  entries : ∃ more, d'.current.entries = d.current.entries ++ more ∧
    List.Forall₂ Line.Gives more said

namespace Draft.Grows

variable {d d' d'' : Draft} {said said' : List (String × (Item → Prop))}

theorem refl (hdotted : d.current.dotted = false) : d.Grows d [] :=
  ⟨rfl, hdotted, [], by simp, .nil⟩

theorem trans (h : d.Grows d' said) (h' : d'.Grows d'' said') : d.Grows d'' (said ++ said') := by
  obtain ⟨more, hmore, hgives⟩ := h.entries
  obtain ⟨more', hmore', hgives'⟩ := h'.entries
  exact ⟨h'.path.trans h.path, h'.dotted, more ++ more', by simp [hmore', hmore],
    List.rel_append hgives hgives'⟩

/-- The names that come later are still free. -/
theorem free (h : d.Grows d' said) (hfree : d.Free (said ++ said')) : d'.Free said' := by
  obtain ⟨more, hmore, hgives⟩ := h.entries
  have hnames : more.map (·.1.name) = said.map Prod.fst :=
    List.forall₂_eq_eq_eq ▸ List.forall₂_map_left_iff.mpr
      (List.forall₂_map_right_iff.mpr (hgives.imp fun _ _ h => h.1))
  simpa [Draft.Free, hmore, hnames] using hfree

end Draft.Grows

/-- A line is taken in by one round. -/
theorem statements_line {l : Line} {rest : List Char} (h : l.ReadsBefore rest) {d : Draft}
    (hdotted : d.current.dotted = false) (hfree : d.Free l.said.toList) (fuel off : Nat) :
    ∃ d' off', (Cursor.mk off (l.chars ++ rest)).statements (fuel + 1) d =
        (Cursor.mk off' rest).statements fuel d' ∧ d.Grows d' l.said.toList := by
  obtain ⟨off', stmt, hmeans, hrest, hstmt⟩ := h off
  have hround (d' : Draft) (hd : stmt.elim (some d) d.add = some d') :
      (Cursor.mk off (l.chars ++ rest)).statements (fuel + 1) d =
        (Cursor.mk off' rest).statements fuel d' := by
    simp only [statements, List.isEmpty_iff, hrest, if_false, hstmt, Option.bind_eq_bind,
      Option.bind_some]
    cases stmt <;> simp_all
  cases hsaid : l.said with
  | none =>
    have hnone : stmt = none := by
      simp only [Line.Means, hsaid] at hmeans
      cases stmt <;> simp_all
    exact ⟨d, off', hround d (by rw [hnone]; rfl), .refl hdotted⟩
  | some said =>
    obtain ⟨name, is⟩ := said
    obtain ⟨key, x, rfl, hname, hx⟩ :
        ∃ key x, stmt = some (.pair [] key x) ∧ key.name = name ∧ is x := by
      simp only [Line.Means, hsaid] at hmeans
      split at hmeans
      · simp_all
      · rename_i key x heq
        obtain ⟨rfl, rfl⟩ := Prod.mk.inj (Option.some.inj heq)
        exact ⟨key, x, rfl, hmeans⟩
      · exact hmeans.elim
    have hnew : key.name ∉ d.current.entries.map (·.1.name) := by
      rw [hname]
      intro hmem
      exact List.disjoint_of_nodup_append hfree hmem (by simp [hsaid])
    obtain ⟨d', hadd, hpath, hdotted', hentries⟩ := Draft.addPair_of_free hdotted hnew x
    exact ⟨d', off', hround d' hadd, hpath, hdotted', [(key, x)], hentries, .cons ⟨hname, hx⟩ .nil⟩

/-- Lines whose names are free and differ put their entries behind those that are there. -/
theorem statements_lines {lines : List Line} (hreads : ∀ l ∈ lines, l.Reads) {d : Draft}
    (hdotted : d.current.dotted = false) (hfree : d.Free (lines.filterMap Line.said))
    (rest : List Char) (fuel off : Nat) :
    ∃ d' off', (Cursor.mk off (lines.flatMap Line.chars ++ rest)).statements
        (lines.length + fuel) d = (Cursor.mk off' rest).statements fuel d' ∧
      d.Grows d' (lines.filterMap Line.said) := by
  induction lines generalizing d off with
  | nil => exact ⟨d, off, by simp, .refl hdotted⟩
  | cons l lines ih =>
    have hsaid : (l :: lines).filterMap Line.said = l.said.toList ++ lines.filterMap Line.said := by
      cases h : l.said <;> simp [h]
    rw [hsaid] at hfree ⊢
    have hfirst : d.Free l.said.toList := by
      refine hfree.sublist (List.Sublist.append_left ?_ _)
      simp
    have hread := hreads l (by simp) (lines.flatMap Line.chars ++ rest)
    obtain ⟨d', mid, hround, hgrows⟩ :=
      statements_line hread hdotted hfirst (lines.length + fuel) off
    obtain ⟨d'', off', hrun, hgrows'⟩ := ih (fun l hl => hreads l (List.mem_cons_of_mem _ hl))
      hgrows.dotted (hgrows.free hfree) mid
    refine ⟨d'', off', ?_, hgrows.trans hgrows'⟩
    rw [← hrun, ← hround, List.flatMap_cons, List.append_assoc, List.length_cons,
      Nat.add_right_comm]

theorem Line.chars_ne_nil {l : Line} (h : l.Reads) : l.chars ≠ [] := by
  intro hnil
  obtain ⟨-, -, -, hrest, -⟩ := h [] 0
  simp [hnil, skipSpace, Cursor.takeWhile] at hrest

/-- The last line ends the document, with or without an entry of its own. -/
theorem statements_last {l : Line} (h : l.Closes) {d : Draft} (hdotted : d.current.dotted = false)
    (hfree : d.Free l.said.toList) {fuel : Nat} (hfuel : l.chars.length < fuel) (off : Nat) :
    ∃ d', (Cursor.mk off l.chars).statements fuel d = some d' ∧ d.Grows d' l.said.toList := by
  have hend (fuel off : Nat) (d : Draft) :
      (Cursor.mk off []).statements (fuel + 1) d = some d := by
    simp [statements, skipSpace_mk [] (by simp) off]
  obtain hreads | ⟨hsaid, hgap⟩ := h
  · have hsome : l.chars ≠ [] := by
      intro hnil
      obtain ⟨-, -, -, hrest, -⟩ := hreads 0
      simp [hnil, skipSpace, Cursor.takeWhile] at hrest
    have hlen := List.length_pos_iff.mpr hsome
    obtain ⟨fuel, rfl⟩ := Nat.exists_eq_add_of_le' (show 2 ≤ fuel by omega)
    obtain ⟨d', off', hround, hgrows⟩ := statements_line hreads hdotted hfree (fuel + 1) off
    rw [List.append_nil, hend] at hround
    exact ⟨d', hround, hgrows⟩
  · obtain ⟨fuel, rfl⟩ := Nat.exists_eq_add_of_le' (show 1 ≤ fuel by omega)
    obtain ⟨off', hskip⟩ := skipSpace_gap hgap [] (by simp) off
    rw [List.append_nil] at hskip
    refine ⟨d, by simp [statements, hskip], ?_⟩
    rw [hsaid]
    exact .refl hdotted

theorem length_le_flatMap_chars {lines : List Line} (h : ∀ l ∈ lines, l.Reads) :
    lines.length ≤ (lines.flatMap Line.chars).length := by
  induction lines with
  | nil => simp
  | cons l lines ih =>
    have hl := List.length_pos_iff.mpr (Line.chars_ne_nil (h l (by simp)))
    have := ih fun l hl => h l (List.mem_cons_of_mem _ hl)
    simp only [List.flatMap_cons, List.length_append, List.length_cons]
    omega

/-- A line that can be read does not begin with a byte order mark. -/
theorem Line.ReadsBefore.head?_ne {l : Line} {rest : List Char} (h : l.ReadsBefore rest) :
    (l.chars ++ rest).head? ≠ some '\uFEFF' := by
  intro hhead
  obtain ⟨cs, hcs⟩ := List.head?_eq_some_iff.mp hhead
  obtain ⟨off', stmt, -, -, hstmt⟩ := h 0
  have hskip := skipSpace_mk ('\uFEFF' :: cs) (by simp [isSpace]) 0
  have hkeys (fuel : Nat) : (Cursor.mk 0 ('\uFEFF' :: cs)).keys fuel = none := by
    cases fuel with
    | zero => rfl
    | succ fuel =>
      simp [keys, hskip, Cursor.key, Cursor.takeWhile, isBare, Text.isDigit, shortString,
        expect_mk_of_ne]
  have hstatement : (Cursor.mk 0 ('\uFEFF' :: cs)).statement = none := by
    simp [statement, Cursor.pair, path, hkeys]
  rw [hcs, hskip, hstatement] at hstmt
  cases hstmt

/-- No byte order mark is skipped before lines that can be read. -/
theorem expect_mark_lines {lines : List Line} {last : Line} (hreads : ∀ l ∈ lines, l.Reads)
    (hlast : last.Closes) :
    (Cursor.mk 0 (lines.flatMap Line.chars ++ last.chars)).expect '\uFEFF' = none := by
  have hmark : (lines.flatMap Line.chars ++ last.chars).head? ≠ some '\uFEFF' := by
    cases lines with
    | nil =>
      obtain hread | ⟨-, hgap⟩ := hlast
      · simpa using hread.head?_ne
      · intro hhead
        exact absurd (hgap _ (List.mem_of_mem_head? hhead)) (by decide)
    | cons l lines =>
      have hread := hreads l (by simp) (lines.flatMap Line.chars ++ last.chars)
      simpa using hread.head?_ne
  cases hcs : lines.flatMap Line.chars ++ last.chars with
  | nil => rfl
  | cons c cs =>
    apply expect_mk_of_ne
    rintro rfl
    simp [hcs] at hmark

/-- A document of lines with different names says what its lines say, in their order. -/
theorem document?_lines {lines : List Line} {last : Line} (hreads : ∀ l ∈ lines, l.Reads)
    (hlast : last.Closes)
    (hnodup : (((lines ++ [last]).filterMap Line.said).map Prod.fst).Nodup) :
    ∃ t, document? (String.ofList ((lines ++ [last]).flatMap Line.chars)) = some t ∧
      List.Forall₂ Line.Gives t.entries ((lines ++ [last]).filterMap Line.said) := by
  have hsaid : (lines ++ [last]).filterMap Line.said =
      lines.filterMap Line.said ++ last.said.toList := by
    cases h : last.said <;> simp [h]
  have hchars : (lines ++ [last]).flatMap Line.chars =
      lines.flatMap Line.chars ++ last.chars := by simp
  rw [hsaid] at hnodup ⊢
  rw [hchars]
  have hstart := expect_mark_lines hreads hlast
  have hlen := length_le_flatMap_chars hreads
  obtain ⟨more, hmore⟩ : ∃ more, (lines.flatMap Line.chars ++ last.chars).length + 1 =
      lines.length + more ∧ last.chars.length < more :=
    ⟨(lines.flatMap Line.chars).length - lines.length + last.chars.length + 1, by
      rw [List.length_append]; omega, by omega⟩
  have hfree : Draft.Free {} (lines.filterMap Line.said ++ last.said.toList) := by
    simpa [Draft.Free] using hnodup
  obtain ⟨d, mid, hrun, hgrows⟩ := statements_lines hreads (d := {}) rfl
    (hfree.sublist (List.Sublist.append_left (by simp) _)) last.chars more 0
  obtain ⟨d', hdone, hgrows'⟩ := statements_last hlast hgrows.dotted (hgrows.free hfree) hmore.2 mid
  obtain ⟨all, hall, hgives⟩ := (hgrows.trans hgrows').entries
  refine ⟨d'.current, ?_, ?_⟩
  · simp only [document?, Cursor.ofString, String.toList_ofList, hstart, Option.getD_none, fuel,
      hmore.1, hrun, hdone, Option.bind_eq_bind, Option.bind_some, Draft.close,
      (hgrows.trans hgrows').path]
    rfl
  · simpa [hall] using hgives

/-! ## Documents of rows -/

/-- The end of a line. -/
inductive LineBreak
  | feed
  | returnFeed

def LineBreak.chars : LineBreak → List Char
  | feed => ['\n']
  | returnFeed => ['\r', '\n']

/-- Rows with their line ends, and the row behind the last line end. -/
structure Sheet where
  rows : List (Row × LineBreak)
  last : Row := {}

namespace Sheet

/-- The pairs that the rows say, from the first to the last. -/
def pairs (sheet : Sheet) : List Pair :=
  (sheet.rows.map Prod.fst ++ [sheet.last]).filterMap Row.pair?

def text (sheet : Sheet) : String :=
  String.ofList (sheet.rows.flatMap (fun r => r.1.chars ++ r.2.chars) ++ sheet.last.chars)

end Sheet

theorem Row.reads_line (r : Row) (stop : LineBreak) : (r.line stop.chars).Reads := by
  intro rest
  cases stop with
  | feed => exact r.readsBefore_line (.inl rfl) (by simp [LineBreak.chars])
  | returnFeed => exact r.readsBefore_line (.inr (.inl rfl)) (by simp [LineBreak.chars])

theorem Row.closes_line (r : Row) : (r.line []).Closes := by
  by_cases hblank : r.pair? = none ∧ r.comment = []
  · obtain ⟨hpair, hcomment⟩ := hblank
    refine .inr ⟨by simp [Row.line, hpair], fun c hc => ?_⟩
    obtain hc | hc : c ∈ r.indent ∨ c ∈ r.trail := by
      simpa [Row.line, Row.chars, Row.body, hpair, hcomment] using hc
    · exact r.isGap r.indent (by simp) c hc
    · exact r.isGap r.trail (by simp) c hc
  · refine .inl (r.readsBefore_line (.inr (.inr ⟨rfl, rfl⟩)) fun hpair => ?_)
    simpa using fun hcomment => hblank ⟨hpair, hcomment⟩

/-- A document of rows with different names says the pairs of its rows, in their order. -/
theorem document?_sheet (sheet : Sheet) (hnodup : (sheet.pairs.map Pair.name).Nodup) :
    ∃ t, document? sheet.text = some t ∧
      List.Forall₂ (fun e p => e.1.name = p.name ∧ ReadsAs p.value e.2) t.entries sheet.pairs := by
  let lines := sheet.rows.map fun r => r.1.line r.2.chars
  let last := sheet.last.line []
  have hreads : ∀ l ∈ lines, l.Reads := by
    intro l hl
    obtain ⟨r, -, rfl⟩ := List.mem_map.mp hl
    exact r.1.reads_line r.2
  have hsaid : (lines ++ [last]).filterMap Line.said =
      sheet.pairs.map fun p => (p.name, ReadsAs p.value) := by
    simp only [lines, last, Sheet.pairs, List.filterMap_append, List.filterMap_map, List.map_append,
      List.map_filterMap]
    rfl
  have htext : String.ofList ((lines ++ [last]).flatMap Line.chars) = sheet.text := by
    simp [lines, last, Sheet.text, Row.line, List.flatMap_map]
  have hnodup' : (((lines ++ [last]).filterMap Line.said).map Prod.fst).Nodup := by
    rw [hsaid, List.map_map]
    exact hnodup
  obtain ⟨t, hdoc, hgives⟩ := document?_lines hreads sheet.last.closes_line hnodup'
  rw [hsaid] at hgives
  exact ⟨t, htext ▸ hdoc, List.forall₂_map_right_iff.mp hgives⟩

end LoopbackLock.Toml
