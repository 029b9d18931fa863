import LoopbackLock.Proofs.Toml.Values
import LoopbackLock.Toml.Document

/-!
# The text of a pair

Blanks may stand around the equals sign of a pair and behind its value, and a comment before the end
of its line. A text is a key if it reads as one in front of a blank or an equals sign, and it is a
value if it reads as one wherever the line may end behind it. Then a key and a value are read as
their pair however they are set apart (`statement_mk`).
-/

namespace LoopbackLock.Toml

open Cursor

/-- A comment up to the end of its line, or nothing. -/
def IsComment (cs : List Char) : Prop := cs = [] ∨ ∃ ds, cs = '#' :: ds ∧ ∀ c ∈ ds, isPlain c = true

/-- A line ends at the beginning of `text`, and `rest` stands behind it. -/
def EndsLine (text rest : List Char) : Prop :=
  text = '\n' :: rest ∨ text = '\r' :: '\n' :: rest ∨ text = [] ∧ rest = []

/-- The text reads as a key of a name, in front of a blank or an equals sign. -/
def IsKey (key : List Char) (name : String) : Prop :=
  ∀ off c rest, isSpace c = true ∨ c = '=' → ∃ off' span,
    (Cursor.mk off (key ++ c :: rest)).key = some (⟨name, span⟩, ⟨off', c :: rest⟩)

/-- The item is what the text of a value reads as at some place. -/
def ReadsAs (value : List Char) (x : Item) : Prop :=
  ∃ off off' tail, LineTail tail ∧
    (Cursor.mk off (value ++ tail)).value (maxDepth - 1) = some (x, ⟨off', tail⟩)

/-- The text of a value reads as an item with a property, wherever the line may end behind it. -/
def ReadsValue (value : List Char) (is : Item → Prop) : Prop :=
  (∀ c ∈ value.head?, isSpace c = false) ∧ value ≠ [] ∧
    ∀ off tail, LineTail tail → ∃ off' x, is x ∧
      (Cursor.mk off (value ++ tail)).value (maxDepth - 1) = some (x, ⟨off', tail⟩)

/-! ## What stands around a pair -/

theorem lineEnd_mk {gap comment text rest : List Char} (hgap : IsGap gap)
    (hcomment : IsComment comment) (hend : EndsLine text rest) (off : Nat) :
    ∃ off', (Cursor.mk off (gap ++ (comment ++ text))).lineEnd = some ⟨off', rest⟩ := by
  have hstart : ∀ c ∈ text.head?, isSpace c = false ∧ isPlain c = false ∧ c ≠ '#' := by
    obtain rfl | rfl | ⟨rfl, -⟩ := hend
    · simp [isSpace, isPlain]
    · simp [isSpace, isPlain]
    · simp
  have hskip : ∃ mid, (Cursor.mk off (gap ++ (comment ++ text))).skipSpace.skipComment =
      ⟨mid, text⟩ := by
    obtain rfl | ⟨ds, rfl, hds⟩ := hcomment
    · obtain ⟨mid, hmid⟩ := skipSpace_gap hgap _ (fun c hc => (hstart c hc).1) off
      refine ⟨mid, ?_⟩
      rw [List.nil_append, hmid, skipComment]
      split
      · rename_i heq
        exact absurd rfl (hstart '#' (by simp [show text = _ from heq])).2.2
      · rfl
    · obtain ⟨mid, hmid⟩ := skipSpace_gap hgap ('#' :: ds ++ text) (by simp [isSpace]) off
      have hplain : ∀ c ∈ '#' :: ds, isPlain c = true := by
        intro c hc
        obtain rfl | hc := List.mem_cons.mp hc
        · decide
        · exact hds c hc
      have htake := takeWhile_mk ('#' :: ds) text hplain (fun c hc => (hstart c hc).2.1) mid
      exact ⟨_, by rw [hmid]; exact congrArg Prod.snd htake⟩
  obtain ⟨mid, hmid⟩ := hskip
  obtain rfl | rfl | ⟨rfl, rfl⟩ := hend
  · exact ⟨mid + 1, by simp [lineEnd, hmid, newline]⟩
  · exact ⟨mid + 2, by simp [lineEnd, hmid, newline]⟩
  · exact ⟨mid, by rw [lineEnd, hmid]; rfl⟩

theorem lineTail_mk {gap comment text rest : List Char} (hgap : IsGap gap)
    (hcomment : IsComment comment) (hend : EndsLine text rest) :
    LineTail (gap ++ (comment ++ text)) := by
  intro off
  obtain ⟨off', h⟩ := lineEnd_mk hgap hcomment hend off
  exact ⟨_, h⟩

/-! ## The texts of keys and values -/

/-- A key begins with a character that may stand bare, or with a quote. -/
theorem IsKey.head {key : List Char} {name : String} (h : IsKey key name) :
    ∃ c cs, key = c :: cs ∧ (isBare c = true ∨ c = '"' ∨ c = '\'') := by
  obtain ⟨off', span, hread⟩ := h 0 '=' [] (.inr rfl)
  cases key with
  | nil =>
    simp [Cursor.key, Cursor.takeWhile, isBare, Text.isDigit, shortString, expect_mk_of_ne] at hread
  | cons c cs =>
    refine ⟨c, cs, rfl, Decidable.byContradiction fun hno => ?_⟩
    simp only [not_or, Bool.not_eq_true] at hno
    obtain ⟨hbare, hquote, hsingle⟩ := hno
    simp [Cursor.key, Cursor.takeWhile, hbare, shortString, expect_mk_of_ne (Ne.symm hquote),
      expect_mk_of_ne (Ne.symm hsingle)] at hread

theorem isKey_bare {key : List Char} (hne : key ≠ []) (hbare : ∀ c ∈ key, isBare c = true) :
    IsKey key (String.ofList key) := by
  intro off c rest hc
  have hstop : isBare c = false := by
    obtain hc | rfl := hc
    · obtain rfl | rfl : c = ' ' ∨ c = '\t' := by simpa [isSpace] using hc
      all_goals decide
    · decide
  have htake := takeWhile_mk key (c :: rest) hbare (by simpa using hstop) off
  exact ⟨off + Cursor.sizeOf key, ⟨off, off + Cursor.sizeOf key⟩, by
    simp [Cursor.key, htake, hne, spanTo]⟩

theorem isKey_quoted {cs : List Char} (hbasic : ∀ c ∈ cs, isBasic c = true) :
    IsKey ('"' :: (cs ++ ['"'])) (String.ofList cs) := by
  intro off c rest hc
  obtain ⟨off', hshort⟩ := shortString_mk hbasic (c :: rest) off
  refine ⟨off', ⟨off, off'⟩, ?_⟩
  simp [Cursor.key, Cursor.takeWhile, isBare, Text.isDigit, hshort, spanTo]

theorem ReadsValue.mono {value : List Char} {is is' : Item → Prop} (h : ReadsValue value is)
    (himp : ∀ x, is x → is' x) : ReadsValue value is' := by
  refine ⟨h.1, h.2.1, fun off tail htail => ?_⟩
  obtain ⟨off', x, hx, hread⟩ := h.2.2 off tail htail
  exact ⟨off', x, himp x hx, hread⟩

/-- Whatever is known of what a text reads as holds of each of its readings. -/
theorem ReadsValue.of_readsAs {value : List Char} {is : Item → Prop} (h : ReadsValue value is)
    {x : Item} (hx : ReadsAs value x) : is x := by
  obtain ⟨off, off', tail, htail, hread⟩ := hx
  obtain ⟨off'', y, hy, hread'⟩ := h.2.2 off tail htail
  obtain ⟨rfl, -⟩ := Prod.mk.inj (Option.some.inj (hread.symm.trans hread'))
  exact hy

theorem ReadsValue.readsAs {value : List Char} {is : Item → Prop} (h : ReadsValue value is) :
    ReadsValue value (ReadsAs value) := by
  refine ⟨h.1, h.2.1, fun off tail htail => ?_⟩
  obtain ⟨off', x, -, hread⟩ := h.2.2 off tail htail
  exact ⟨off', x, ⟨off, off', tail, htail, hread⟩, hread⟩

/-! ## One pair -/

theorem not_isSpace_of_isBare {c : Char} (h : isBare c = true) : isSpace c = false := by
  cases hc : isSpace c with
  | false => rfl
  | true =>
    obtain rfl | rfl : c = ' ' ∨ c = '\t' := by simpa [isSpace] using hc
    · exact absurd h (by decide)
    · exact absurd h (by decide)

section Pair

variable {key value indent before behind : List Char} {name : String} {is : Item → Prop}

/-- A path of one key, up to the equals sign. -/
theorem path_mk (hkey : IsKey key name) (hindent : IsGap indent) (hbefore : IsGap before)
    (rest : List Char) (off : Nat) :
    ∃ off' span, (Cursor.mk off (indent ++ (key ++ (before ++ '=' :: rest)))).path =
      some ([], ⟨name, span⟩, ⟨off', '=' :: rest⟩) := by
  obtain ⟨c, cs, hchars, hc⟩ := hkey.head
  have hstart : ∀ d ∈ (key ++ (before ++ '=' :: rest)).head?, isSpace d = false := by
    obtain hc | rfl | rfl := hc
    · simpa [hchars] using not_isSpace_of_isBare hc
    all_goals simp [hchars, isSpace]
  obtain ⟨start, hskip⟩ := skipSpace_gap hindent _ hstart off
  obtain ⟨mid, span, hread⟩ : ∃ mid span,
      (Cursor.mk start (key ++ (before ++ '=' :: rest))).key =
        some (⟨name, span⟩, ⟨mid, before ++ '=' :: rest⟩) := by
    cases before with
    | nil => exact hkey start '=' rest (.inr rfl)
    | cons d ds => exact hkey start d (ds ++ '=' :: rest) (.inl (hbefore d (by simp)))
  obtain ⟨off', hgap⟩ := skipSpace_gap hbefore ('=' :: rest) (by simp [isSpace]) mid
  have hpoint : (Cursor.mk off' ('=' :: rest)).expect '.' = none := expect_mk_of_ne (by decide) _ _
  have hkeys (fuel : Nat) :
      (Cursor.mk off (indent ++ (key ++ (before ++ '=' :: rest)))).keys (fuel + 1) =
        some ([⟨name, span⟩], ⟨off', '=' :: rest⟩) := by
    simp [keys, hskip, hread, hgap, hpoint]
  exact ⟨off', span, by simp [path, fuel, hkeys, maxDepth]⟩

/-- A key and a value that a reader takes are read as their pair. -/
theorem pair_mk {read : Cursor → Option (Item × Cursor)} (hkey : IsKey key name)
    (hindent : IsGap indent) (hbefore : IsGap before) (hbehind : IsGap behind)
    (hstart : ∀ c ∈ value.head?, isSpace c = false) (hsome : value ≠ []) {tail : List Char}
    (hread : ∀ off, ∃ off' x, is x ∧ read ⟨off, value ++ tail⟩ = some (x, ⟨off', tail⟩))
    (off : Nat) :
    ∃ off' span x, is x ∧
      (Cursor.mk off
        (indent ++ (key ++ (before ++ '=' :: (behind ++ (value ++ tail)))))).pair read =
      some (([], ⟨name, span⟩, x), ⟨off', tail⟩) := by
  obtain ⟨mid, span, hpath⟩ := path_mk hkey hindent hbefore (behind ++ (value ++ tail)) off
  have hfirst : ∀ c ∈ (value ++ tail).head?, isSpace c = false := by
    obtain ⟨c, cs, rfl⟩ := List.exists_cons_of_ne_nil hsome
    simpa using hstart
  obtain ⟨mid', hgap⟩ := skipSpace_gap hbehind _ hfirst (mid + '='.utf8Size)
  obtain ⟨off', x, hx, hitem⟩ := hread mid'
  exact ⟨off', span, x, hx, by simp [Cursor.pair, hpath, hgap, hitem]⟩

/-- A pair at the beginning of a statement is the statement, up to the end of its line. -/
theorem statement_mk (hkey : IsKey key name) (hvalue : ReadsValue value is) (hbefore : IsGap before)
    (hbehind : IsGap behind) {gap comment text rest : List Char} (hgap : IsGap gap)
    (hcomment : IsComment comment) (hend : EndsLine text rest) (off : Nat) :
    ∃ off' span x, is x ∧
      (Cursor.mk off
        (key ++ (before ++ '=' :: (behind ++ (value ++ (gap ++ (comment ++ text))))))).statement =
      some (some (.pair [] ⟨name, span⟩ x), ⟨off', rest⟩) := by
  obtain ⟨hstart, hsome, hread⟩ := hvalue
  have hnone : IsGap [] := by simp [IsGap]
  obtain ⟨mid, span, x, hx, hpair⟩ := pair_mk hkey hnone hbefore hbehind hstart hsome
    (fun off => hread off _ (lineTail_mk hgap hcomment hend)) off
  obtain ⟨off', hline⟩ := lineEnd_mk hgap hcomment hend mid
  refine ⟨off', span, x, hx, ?_⟩
  obtain ⟨c, cs, hchars, hc⟩ := hkey.head
  have hmark (d : Char) (hd : isBare d = false ∧ d ≠ '"' ∧ d ≠ '\'') : c ≠ d := by
    rintro rfl
    simp [hd] at hc
  rw [hchars] at hpair ⊢
  simp only [List.nil_append, List.cons_append] at hpair ⊢
  unfold statement
  simp [hpair, hline, hmark '#' (by decide), hmark '\n' (by decide), hmark '\r' (by decide),
    hmark '[' (by decide)]

end Pair

end LoopbackLock.Toml
