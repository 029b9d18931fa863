import LoopbackLock.Proofs.Toml.Moments
import LoopbackLock.Proofs.Toml.Pairs

/-!
# Values that may be written

The texts of values by their grammar: strings between single or double quotes, truth values,
integers, floating point numbers, dates and times, and arrays and tables in braces of such texts, to
any depth (`Written`). Every text of the grammar is read as a value, unless it nests deeper than the
reader goes (`Written.readsValue`). Strings with escapes or on several lines, numbers with
underscores or in another radix, and dotted keys are not in the grammar.
-/

namespace LoopbackLock.Toml

open Text Cursor

/-! ## The grammar -/

/-- A value that is neither an array nor a table. -/
inductive IsScalar : List Char → Prop
  | string {cs : List Char} : (∀ c ∈ cs, isBasic c = true) → IsScalar ('"' :: (cs ++ ['"']))
  | literal {cs : List Char} : (∀ c ∈ cs, isLiteral c = true) → IsScalar ('\'' :: (cs ++ ['\'']))
  | boolean (b : Bool) : IsScalar (if b then "true" else "false").toList
  | integer {sg : List Char} {n : Nat} : IsSign sg → n < Nat.pow 2 63 →
      IsScalar (sg ++ digits 10 n)
  /-- The number nearest to what is written is not too great. -/
  | float {sg cs ds : List Char} {n : Nat} {e : Int} : IsSign sg → IsScale cs ds e →
      Binary64.ofDecimal (sg == ['-']) (decimalValue (digits 10 n ++ ds)) (e - ds.length) ≠
        .infinite false → IsScalar (sg ++ (digits 10 n ++ cs))
  | word {sg word : List Char} : IsSign sg → word = ['i', 'n', 'f'] ∨ word = ['n', 'a', 'n'] →
      IsScalar (sg ++ word)
  | moment {cs : List Char} : IsMoment cs → IsScalar cs

/-- A line end. -/
def IsBreak (cs : List Char) : Prop := cs = ['\n'] ∨ cs = ['\r', '\n']

/-- Blanks, line ends and comments. -/
inductive IsWide : List Char → Prop
  | nil : IsWide []
  | blank {c : Char} {cs : List Char} : isSpace c = true → IsWide cs → IsWide (c :: cs)
  | lineEnd {stop cs : List Char} : IsBreak stop → IsWide cs → IsWide (stop ++ cs)
  | comment {ds stop cs : List Char} : (∀ c ∈ ds, isPlain c = true) → IsBreak stop → IsWide cs →
      IsWide ('#' :: (ds ++ (stop ++ cs)))

/-- The elements of an array up to the closing bracket, a comma behind each but perhaps the last. -/
inductive IsElements (V : List Char → Prop) : List Char → Prop
  | close {gap : List Char} : IsWide gap → IsElements V (gap ++ [']'])
  | last {before value behind : List Char} : IsWide before → V value → IsWide behind →
      IsElements V (before ++ (value ++ (behind ++ [']'])))
  | more {before value behind cs : List Char} : IsWide before → V value → IsWide behind →
      IsElements V cs → IsElements V (before ++ (value ++ (behind ++ ',' :: cs)))

/-- A key and a value with an equals sign between them and blanks around it and behind the value. -/
inductive IsPair (V : List Char → Prop) (name : String) : List Char → Prop
  | mk {key before after value behind : List Char} : IsKey key name → IsGap before → IsGap after →
      V value → IsGap behind →
      IsPair V name (key ++ (before ++ '=' :: (after ++ (value ++ behind))))

/-- The pairs of a table in braces up to the closing brace, a comma between each two of them. Their
names differ. -/
inductive IsPairs (V : List Char → Prop) : List String → List Char → Prop
  | last {name : String} {pair : List Char} : IsPair V name pair →
      IsPairs V [name] (pair ++ ['\x7d'])
  | more {name : String} {names : List String} {pair indent cs : List Char} : IsPair V name pair →
      name ∉ names → IsGap indent → IsPairs V names cs →
      IsPairs V (name :: names) (pair ++ ',' :: (indent ++ cs))

/-- The text of a value in which arrays and tables nest at most so deep. -/
def Written : Nat → List Char → Prop
  | 0, cs => IsScalar cs
  | depth + 1, cs =>
    IsScalar cs ∨ (∃ body, cs = '[' :: body ∧ IsElements (Written depth) body) ∨
      (∃ gap, cs = '\x7b' :: (gap ++ ['\x7d']) ∧ IsGap gap) ∨
      ∃ gap names body, cs = '\x7b' :: (gap ++ body) ∧ IsGap gap ∧
        IsPairs (Written depth) names body

/-! ## Its readings -/

/-- The text is read as a value in which arrays and tables may nest `room` deep, where a value may
end; and it does not begin with what may stand behind a value. -/
structure Reads (room : Nat) (cs : List Char) : Prop where
  head : ∃ c ds, cs = c :: ds ∧ isBound c = false
  read : ∀ {tail : List Char}, MayEnd tail → ∀ off, ∃ off' x,
    (Cursor.mk off (cs ++ tail)).value room = some (x, ⟨off', tail⟩)

theorem not_isBound_of_isDigit {c : Char} (h : Text.isDigit c = true ∨ c = '+' ∨ c = '-') :
    isBound c = false := by
  obtain h | rfl | rfl := h
  · have := not_isPause_of_isDigit h
    simp only [isPause, Bool.or_eq_false_iff] at this
    exact this.1.1.1
  · decide
  · decide

theorem IsScalar.reads {cs : List Char} (h : IsScalar cs) (room : Nat) : Reads room cs := by
  cases h with
  | string hcs =>
    refine ⟨⟨_, _, rfl, by decide⟩, fun {tail} htail off => ?_⟩
    obtain ⟨off', hread⟩ := value_string hcs htail room off
    exact ⟨off', _, by simpa using hread⟩
  | literal hcs =>
    refine ⟨⟨_, _, rfl, by decide⟩, fun {tail} htail off => ?_⟩
    obtain ⟨off', hread⟩ := value_literal hcs htail room off
    exact ⟨off', _, by simpa using hread⟩
  | boolean b =>
    refine ⟨by cases b <;> exact ⟨_, _, rfl, by decide⟩, fun {tail} _ off => ?_⟩
    obtain ⟨off', hread⟩ := value_boolean b tail room off
    exact ⟨off', _, hread⟩
  | @integer sg n hsign hn =>
    obtain ⟨c, ds, hcs, hc⟩ := head_signed hsign n []
    rw [List.append_nil] at hcs
    refine ⟨⟨c, ds, hcs, not_isBound_of_isDigit hc⟩, fun {tail} htail off => ?_⟩
    obtain ⟨off', hread⟩ := value_integer hsign hn htail room off
    exact ⟨off', _, by simpa using hread⟩
  | @float sg cs ds n e hsign hscale hfits =>
    obtain ⟨c, ds, hcs, hc⟩ := head_signed hsign n cs
    refine ⟨⟨c, ds, hcs, not_isBound_of_isDigit hc⟩, fun {tail} htail off => ?_⟩
    obtain ⟨off', hread⟩ := value_float hsign hscale htail rfl hfits room off
    exact ⟨off', _, by simpa using hread⟩
  | @word sg word hsign hword =>
    refine ⟨?_, fun {tail} _ off => ?_⟩
    · obtain rfl | rfl | rfl := hsign <;> obtain rfl | rfl := hword <;>
        exact ⟨_, _, rfl, by decide⟩
    · obtain ⟨off', x, hread⟩ := value_word hsign hword tail room off
      exact ⟨off', _, by simpa using hread⟩
  | moment h =>
    obtain ⟨c, ds, hcs, hc⟩ := h.head
    refine ⟨⟨c, ds, hcs, not_isBound_of_isDigit hc⟩, fun {tail} htail off => ?_⟩
    obtain ⟨off', hread⟩ := value_moment h htail room off
    exact ⟨off', _, hread⟩

/-! ### Arrays -/

/-- A character that is no part of what may stand between the elements of an array. -/
def EndsWide (cs : List Char) : Prop :=
  ∀ c ∈ cs.head?, isSpace c = false ∧ c ≠ '\n' ∧ c ≠ '\r' ∧ c ≠ '#'

theorem endsWide_of_not_isBound {c : Char} {cs : List Char} (h : isBound c = false) :
    EndsWide (c :: cs) := by
  intro d hd
  obtain rfl : c = d := by simpa using hd
  simp only [isBound, isStop, Bool.or_eq_false_iff, beq_eq_false_iff_ne] at h
  exact ⟨h.1, h.2.1.1.1.1.2, h.2.1.1.1.2, h.2.1.1.1.1.1⟩

theorem skipGap_break {stop : List Char} (h : IsBreak stop) (inside : Bool) (cs : List Char)
    (off : Nat) : ∃ off', skipGap.go inside off (stop ++ cs) = skipGap.go false off' cs := by
  obtain rfl | rfl := h
  · exact ⟨off + 1, by simp [skipGap.go, isPlain]⟩
  · exact ⟨off + 1 + 1, by simp [skipGap.go, isPlain, isSpace]⟩

theorem skipGap_plain {ds : List Char} (h : ∀ c ∈ ds, isPlain c = true) (cs : List Char)
    (off : Nat) : ∃ off', skipGap.go true off (ds ++ cs) = skipGap.go true off' cs := by
  induction ds generalizing off with
  | nil => exact ⟨off, rfl⟩
  | cons d ds ih =>
    obtain ⟨off', hmore⟩ := ih (fun c hc => h c (List.mem_cons_of_mem d hc)) (off + d.utf8Size)
    exact ⟨off', by simp [skipGap.go, h d (by simp), hmore]⟩

/-- What may stand between the elements of an array is skipped. -/
theorem skipGap_mk {gap rest : List Char} (h : IsWide gap) (hrest : EndsWide rest) (off : Nat) :
    ∃ off', (Cursor.mk off (gap ++ rest)).skipGap = ⟨off', rest⟩ := by
  show ∃ off', skipGap.go false off (gap ++ rest) = _
  induction h generalizing off with
  | nil =>
    refine ⟨off, ?_⟩
    cases rest with
    | nil => rfl
    | cons c cs =>
      obtain ⟨hspace, hfeed, hreturn, hmark⟩ := hrest c (by simp)
      simp [skipGap.go, hspace, hfeed, hreturn, hmark]
  | @blank c cs hc _ ih =>
    obtain ⟨off', hmore⟩ := ih (off + 1)
    exact ⟨off', by simp [skipGap.go, hc, hmore]⟩
  | @lineEnd stop cs hstop _ ih =>
    obtain ⟨mid, hbreak⟩ := skipGap_break hstop false (cs ++ rest) off
    obtain ⟨off', hmore⟩ := ih mid
    exact ⟨off', by rw [List.append_assoc, hbreak, hmore]⟩
  | @comment ds stop cs hds hstop _ ih =>
    obtain ⟨mid, hplain⟩ := skipGap_plain hds (stop ++ (cs ++ rest)) (off + 1)
    obtain ⟨mid', hbreak⟩ := skipGap_break hstop true (cs ++ rest) mid
    obtain ⟨off', hmore⟩ := ih mid'
    refine ⟨off', ?_⟩
    simp only [List.cons_append, List.append_assoc]
    rw [← hmore, ← hbreak, ← hplain]
    simp [skipGap.go, isSpace]

/-- A value may end before what may stand between elements. -/
theorem IsWide.mayEnd {gap tail : List Char} (h : IsWide gap) (htail : MayEnd tail) :
    MayEnd (gap ++ tail) := by
  induction h with
  | nil => exact htail
  | blank hc _ ih => exact .blank hc ih
  | lineEnd hstop _ _ => obtain rfl | rfl := hstop <;> exact .stop (by decide)
  | comment _ _ _ _ => exact .stop (by decide)

variable {V : List Char → Prop} {room : Nat}

/-- An element is read up to the comma or the bracket behind it. -/
theorem element_mk {before value behind : List Char} (hbefore : IsWide before)
    (hvalue : Reads room value) (hbehind : IsWide behind) {mark : Char}
    (hmark : mark = ',' ∨ mark = ']') (rest : List Char) (off : Nat) :
    ∃ first mid last x,
      (Cursor.mk off (before ++ (value ++ (behind ++ mark :: rest)))).skipGap =
        ⟨first, value ++ (behind ++ mark :: rest)⟩ ∧
      (Cursor.mk first (value ++ (behind ++ mark :: rest))).expect ']' = none ∧
      (Cursor.mk first (value ++ (behind ++ mark :: rest))).value room =
        some (x, ⟨mid, behind ++ mark :: rest⟩) ∧
      (Cursor.mk mid (behind ++ mark :: rest)).skipGap = ⟨last, mark :: rest⟩ := by
  obtain ⟨c, ds, hchars, hc⟩ := hvalue.head
  have hends : EndsWide (mark :: rest) := by obtain rfl | rfl := hmark <;> simp [EndsWide, isSpace]
  have hstop : MayEnd (mark :: rest) := .stop (by obtain rfl | rfl := hmark <;> decide)
  have hstart : EndsWide (value ++ (behind ++ mark :: rest)) := by
    rw [hchars]
    exact endsWide_of_not_isBound hc
  obtain ⟨first, hskip⟩ := skipGap_mk hbefore hstart off
  obtain ⟨mid, x, hread⟩ := hvalue.read (hbehind.mayEnd hstop) first
  obtain ⟨last, hskip'⟩ := skipGap_mk hbehind hends mid
  refine ⟨first, mid, last, x, hskip, ?_, hread, hskip'⟩
  rw [hchars]
  apply expect_mk_of_ne
  rintro rfl
  exact absurd hc (by decide)

theorem elements_mk (hV : ∀ cs, V cs → Reads room cs) {cs : List Char} (h : IsElements V cs)
    {fuel : Nat} (hfuel : cs.length < fuel) (rest : List Char) (off : Nat) :
    ∃ off' xs, elements (Cursor.value room) fuel ⟨off, cs ++ rest⟩ = some (xs, ⟨off', rest⟩) := by
  induction h generalizing fuel off with
  | @close gap hgap =>
    obtain ⟨fuel, rfl⟩ := Nat.exists_eq_succ_of_ne_zero (Nat.ne_zero_of_lt hfuel)
    have hends : EndsWide (']' :: rest) := by simp [EndsWide, isSpace]
    obtain ⟨mid, hskip⟩ := skipGap_mk hgap hends off
    exact ⟨mid + ']'.utf8Size, [], by simp [elements, hskip]⟩
  | @last before value behind hbefore hvalue hbehind =>
    obtain ⟨fuel, rfl⟩ := Nat.exists_eq_succ_of_ne_zero (Nat.ne_zero_of_lt hfuel)
    obtain ⟨first, mid, last, x, hskip, hopen, hread, hskip'⟩ :=
      element_mk hbefore (hV value hvalue) hbehind (.inr rfl) rest off
    have hcomma : (Cursor.mk last (']' :: rest)).expect ',' = none :=
      expect_mk_of_ne (by decide) _ _
    exact ⟨last + ']'.utf8Size, [x], by simp [elements, hskip, hopen, hread, hskip', hcomma]⟩
  | @more before value behind cs hbefore hvalue hbehind _ ih =>
    obtain ⟨fuel, rfl⟩ := Nat.exists_eq_succ_of_ne_zero (Nat.ne_zero_of_lt hfuel)
    obtain ⟨first, mid, last, x, hskip, hopen, hread, hskip'⟩ :=
      element_mk hbefore (hV value hvalue) hbehind (.inl rfl) (cs ++ rest) off
    have hless : cs.length < fuel := by
      simp only [List.length_append, List.length_cons] at hfuel
      omega
    obtain ⟨off', xs, hmore⟩ := ih hless (last + ','.utf8Size)
    exact ⟨off', x :: xs, by simp [elements, hskip, hopen, hread, hskip', hmore]⟩

theorem reads_array (hV : ∀ cs, V cs → Reads room cs) {body : List Char}
    (h : IsElements V body) : Reads (room + 1) ('[' :: body) := by
  refine ⟨⟨_, _, rfl, by decide⟩, fun {tail} _ off => ?_⟩
  obtain ⟨off', xs, hread⟩ := elements_mk hV h
    (show body.length < body.length + tail.length + 1 + 1 by omega) tail (off + 1)
  refine ⟨off', .array xs ⟨off, off'⟩, ?_⟩
  unfold Cursor.value
  simp [fuel, hread, spanTo]

/-! ### Tables in braces -/

theorem IsPair.head {name : String} {pair : List Char} (h : IsPair V name pair) :
    ∃ c cs, pair = c :: cs ∧ isSpace c = false ∧ c ≠ '\x7d' := by
  obtain ⟨hkey, -, -, -, -⟩ := h
  obtain ⟨c, cs, rfl, hc | rfl | rfl⟩ := hkey.head
  · refine ⟨c, _, rfl, not_isSpace_of_isBare hc, ?_⟩
    rintro rfl
    exact absurd hc (by decide)
  · exact ⟨_, _, rfl, by decide, by decide⟩
  · exact ⟨_, _, rfl, by decide, by decide⟩

theorem IsPairs.head {names : List String} {cs : List Char} (h : IsPairs V names cs) :
    ∃ c ds, cs = c :: ds ∧ isSpace c = false ∧ c ≠ '\x7d' := by
  cases h with
  | last hpair =>
    obtain ⟨c, ds, rfl, hc⟩ := hpair.head
    exact ⟨c, _, rfl, hc⟩
  | more hpair _ _ _ =>
    obtain ⟨c, ds, rfl, hc⟩ := hpair.head
    exact ⟨c, _, rfl, hc⟩

/-- A pair is read up to the comma or the brace behind it. -/
theorem pair_inline (hV : ∀ cs, V cs → Reads room cs) {name : String} {indent pair : List Char}
    (hindent : IsGap indent) (h : IsPair V name pair) {mark : Char}
    (hmark : mark = ',' ∨ mark = '\x7d') (rest : List Char) (off : Nat) :
    ∃ mid last span x behind,
      (Cursor.mk off (indent ++ (pair ++ mark :: rest))).pair (Cursor.value room) =
        some (([], ⟨name, span⟩, x), ⟨mid, behind ++ mark :: rest⟩) ∧
      (Cursor.mk mid (behind ++ mark :: rest)).skipSpace = ⟨last, mark :: rest⟩ := by
  obtain @⟨key, before, after, value, behind, hkey, hbefore, hafter, hvalue, hbehind⟩ := h
  obtain ⟨c, ds, hchars, hc⟩ := (hV value hvalue).head
  have hmay : MayEnd (behind ++ mark :: rest) :=
    .gap hbehind (.stop (by obtain rfl | rfl := hmark <;> decide))
  have hstart : ∀ d ∈ value.head?, isSpace d = false := by
    intro d hd
    obtain rfl : c = d := by simpa [hchars] using hd
    exact (Bool.or_eq_false_iff.mp hc).1
  have hread : ∀ off, ∃ off' x, True ∧ (Cursor.mk off (value ++ (behind ++ mark :: rest))).value room =
      some (x, ⟨off', behind ++ mark :: rest⟩) := by
    intro off
    obtain ⟨off', x, hread⟩ := (hV value hvalue).read hmay off
    exact ⟨off', x, trivial, hread⟩
  obtain ⟨mid, span, x, -, hpair⟩ :=
    pair_mk hkey hindent hbefore hafter hstart (by simp [hchars]) hread off
  obtain ⟨last, hskip⟩ := skipSpace_gap hbehind (mark :: rest)
    (by obtain rfl | rfl := hmark <;> simp [isSpace]) mid
  exact ⟨mid, last, span, x, behind, by simpa using hpair, hskip⟩

theorem insertInline_of_free {t : Table Item} (key : Key) (hdotted : t.dotted = false)
    (hfree : key.name ∉ t.entries.map (·.1.name)) (x : Item) :
    t.insertInline [] key x = some (t.append key x) := by
  have hfind : t.entries.find? (fun e => decide (e.1.name = key.name)) = none := by
    simpa using hfree
  simp [Table.insertInline, Table.descendInline, Table.insertNew, hdotted, Table.find?, hfind]

/-- Pairs whose names are free and differ are taken in. -/
theorem pairs_mk (hV : ∀ cs, V cs → Reads room cs) {names : List String} {cs : List Char}
    (h : IsPairs V names cs) {t : Table Item} (hdotted : t.dotted = false)
    (hfree : ∀ name ∈ names, name ∉ t.entries.map (·.1.name)) {indent : List Char}
    (hindent : IsGap indent) {fuel : Nat} (hfuel : cs.length < fuel) (rest : List Char)
    (off : Nat) :
    ∃ off' t', pairs (Cursor.value room) fuel t ⟨off, indent ++ (cs ++ rest)⟩ =
      some (t', ⟨off', rest⟩) := by
  induction h generalizing t indent fuel off with
  | @last name pair hpair =>
    obtain ⟨fuel, rfl⟩ := Nat.exists_eq_succ_of_ne_zero (Nat.ne_zero_of_lt hfuel)
    obtain ⟨mid, last, span, x, behind, hread, hskip⟩ :=
      pair_inline hV hindent hpair (.inr rfl) rest off
    have hinsert := insertInline_of_free ⟨name, span⟩ hdotted (hfree name (by simp)) x
    have hcomma : (Cursor.mk last ('\x7d' :: rest)).expect ',' = none :=
      expect_mk_of_ne (by decide) _ _
    exact ⟨last + '\x7d'.utf8Size, t.append ⟨name, span⟩ x, by
      simp [pairs, hread, hinsert, hskip, hcomma]⟩
  | @more name names pair indent' cs hpair hnew hindent' _ ih =>
    obtain ⟨fuel, rfl⟩ := Nat.exists_eq_succ_of_ne_zero (Nat.ne_zero_of_lt hfuel)
    obtain ⟨mid, last, span, x, behind, hread, hskip⟩ :=
      pair_inline hV hindent hpair (.inl rfl) (indent' ++ (cs ++ rest)) off
    have hinsert := insertInline_of_free ⟨name, span⟩ hdotted (hfree name (by simp)) x
    have hless : cs.length < fuel := by
      simp only [List.length_append, List.length_cons] at hfuel
      omega
    have hfree' : ∀ other ∈ names, other ∉ (t.append ⟨name, span⟩ x).entries.map (·.1.name) := by
      intro other hother
      have hne : other ≠ name := fun heq => hnew (heq ▸ hother)
      simpa [Table.append, hne] using hfree other (List.mem_cons_of_mem name hother)
    obtain ⟨off', t', hmore⟩ :=
      ih (t := t.append ⟨name, span⟩ x) hdotted hfree' hindent' hless (last + ','.utf8Size)
    exact ⟨off', t', by simp [pairs, hread, hinsert, hskip, hmore]⟩

theorem reads_braces {gap : List Char} (hgap : IsGap gap) :
    Reads (room + 1) ('\x7b' :: (gap ++ ['\x7d'])) := by
  refine ⟨⟨_, _, rfl, by decide⟩, fun {tail} _ off => ?_⟩
  obtain ⟨mid, hskip⟩ := skipSpace_gap hgap ('\x7d' :: tail) (by simp [isSpace]) (off + 1)
  let t : Table Item := { span := some ⟨off, mid + '\x7d'.utf8Size⟩ }
  refine ⟨mid + '\x7d'.utf8Size, .inlineTable t, ?_⟩
  unfold Cursor.value
  simp [hskip, spanTo, t]

theorem reads_table (hV : ∀ cs, V cs → Reads room cs) {gap body : List Char} {names : List String}
    (hgap : IsGap gap) (h : IsPairs V names body) :
    Reads (room + 1) ('\x7b' :: (gap ++ body)) := by
  refine ⟨⟨_, _, rfl, by decide⟩, fun {tail} _ off => ?_⟩
  obtain ⟨c, ds, hchars, hc, hbrace⟩ := h.head
  obtain ⟨mid, hskip⟩ := skipSpace_gap hgap (body ++ tail) (by simp [hchars, hc]) (off + 1)
  have hopen : (Cursor.mk mid (body ++ tail)).expect '\x7d' = none := by
    rw [hchars]
    exact expect_mk_of_ne hbrace.symm _ _
  have hnone : IsGap [] := by simp [IsGap]
  obtain ⟨off', t, hread⟩ := pairs_mk hV h (t := {}) rfl (by simp) hnone
    (show body.length < gap.length + (body.length + tail.length) + 1 + 1 by omega) tail mid
  rw [List.nil_append] at hread
  refine ⟨off', .inlineTable { t with span := some ⟨off, off'⟩ }, ?_⟩
  unfold Cursor.value
  simp [fuel, hskip, hopen, hread, spanTo]

/-! ### Any value -/

/-- Every text of the grammar is read, if the reader goes as deep as it nests. -/
theorem Written.reads {depth : Nat} {cs : List Char} (h : Written depth cs)
    (hroom : depth ≤ room) : Reads room cs := by
  induction depth generalizing room cs with
  | zero => exact IsScalar.reads h room
  | succ depth ih =>
    obtain ⟨room, rfl⟩ := Nat.exists_eq_succ_of_ne_zero (Nat.ne_zero_of_lt hroom)
    have hV : ∀ cs, Written depth cs → Reads room cs :=
      fun cs h => ih h (Nat.le_of_succ_le_succ hroom)
    obtain h | ⟨body, rfl, hbody⟩ | ⟨gap, rfl, hgap⟩ | ⟨gap, names, body, rfl, hgap, hbody⟩ := h
    · exact h.reads (room + 1)
    · exact reads_array hV hbody
    · exact reads_braces hgap
    · exact reads_table hV hgap hbody

/-- Every text of the grammar is a value, unless it nests too deep. -/
theorem Written.readsValue {depth : Nat} {cs : List Char} (h : Written depth cs)
    (hdepth : depth < maxDepth) : ReadsValue cs fun _ => True := by
  have hreads := h.reads (show depth ≤ maxDepth - 1 by omega)
  obtain ⟨c, ds, hchars, hc⟩ := hreads.head
  refine ⟨?_, by simp [hchars], fun off tail htail => ?_⟩
  · simpa [hchars] using (Bool.or_eq_false_iff.mp hc).1
  · obtain ⟨off', x, hread⟩ := hreads.read htail.mayEnd off
    exact ⟨off', x, trivial, hread⟩

end LoopbackLock.Toml
