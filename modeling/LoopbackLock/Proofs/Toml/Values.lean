import LoopbackLock.Proofs.Text.Numeral
import LoopbackLock.Toml.Value

/-!
# Strings and truth values

A run of plain characters between quotes is read as a string, and a word as a truth value. What may
stand behind a value (`MayEnd`) is told by its characters: blanks, and then a line end, a comment or
what separates and closes the parts of arrays and of tables in braces. Where only blanks and a
comment are left of a line (`LineTail`), a value may end.
-/

namespace LoopbackLock.Toml

open Text

theorem isDigitOf_ten {c : Char} (h : Text.isDigit c = true) : isDigitOf 10 c = true := by
  rw [isDigitOf, digitOf?_ten_eq_some_iff.mpr ⟨h, rfl⟩]
  rfl

/-- Blanks, perhaps none. -/
def IsGap (cs : List Char) : Prop := ∀ c ∈ cs, isSpace c = true

namespace Cursor

/-! ## One character -/

@[simp] theorem expect_mk_cons (c : Char) (off : Nat) (cs : List Char) :
    (Cursor.mk off (c :: cs)).expect c = some ⟨off + c.utf8Size, cs⟩ := by
  simp [expect]

theorem expect_mk_of_ne {c d : Char} (h : c ≠ d) (off : Nat) (cs : List Char) :
    (Cursor.mk off (d :: cs)).expect c = none := by
  simp [expect, h]

/-- A run of a class is taken as a whole. -/
theorem takeWhile_mk {p : Char → Bool} (cs rest : List Char) (hcs : ∀ c ∈ cs, p c = true)
    (hrest : ∀ c ∈ rest.head?, p c = false) (off : Nat) :
    (Cursor.mk off (cs ++ rest)).takeWhile p = (cs, ⟨off + sizeOf cs, rest⟩) := by
  simp [Cursor.takeWhile, takeWhile_append_of_all hcs hrest, dropWhile_append_of_all hcs hrest]

theorem skipSpace_mk (cs : List Char) (h : ∀ c ∈ cs.head?, isSpace c = false) (off : Nat) :
    (Cursor.mk off cs).skipSpace = ⟨off, cs⟩ := by
  have := takeWhile_mk [] cs (by simp) h off
  simpa [skipSpace, sizeOf] using congrArg Prod.snd this

theorem skipSpace_gap {gap : List Char} (hgap : IsGap gap) (rest : List Char)
    (hrest : ∀ c ∈ rest.head?, isSpace c = false) (off : Nat) :
    ∃ off', (Cursor.mk off (gap ++ rest)).skipSpace = ⟨off', rest⟩ :=
  ⟨_, congrArg Prod.snd (takeWhile_mk gap rest hgap hrest off)⟩

/-! ## What may stand behind a value -/

/-- The line may end here: only blanks and a comment are left of it. -/
def LineTail (cs : List Char) : Prop := ∀ off, ∃ t, (Cursor.mk off cs).lineEnd = some t

/-- A character that ends a value, unless it is a blank: it begins a comment or a line end, or it
separates or closes the parts of an array or a table. -/
def isStop (c : Char) : Bool :=
  c == '#' || c == '\n' || c == '\r' || c == ',' || c == ']' || c == '\x7d'

/-- A character that may stand right behind a value. -/
def isBound (c : Char) : Bool := isSpace c || isStop c

/-- A value may end here. -/
inductive MayEnd : List Char → Prop
  | nil : MayEnd []
  | stop {c : Char} {cs : List Char} : isStop c = true → MayEnd (c :: cs)
  | blank {c : Char} {cs : List Char} : isSpace c = true → MayEnd cs → MayEnd (c :: cs)

theorem MayEnd.gap {gap cs : List Char} (hgap : IsGap gap) (h : MayEnd cs) :
    MayEnd (gap ++ cs) := by
  induction gap with
  | nil => exact h
  | cons c gap ih =>
    exact .blank (hgap c (by simp)) (ih fun d hd => hgap d (List.mem_cons_of_mem c hd))

theorem MayEnd.isBound {cs : List Char} (h : MayEnd cs) : ∀ c ∈ cs.head?, isBound c = true := by
  cases h with
  | nil => simp
  | stop hc => simp [Cursor.isBound, hc]
  | blank hc _ => simp [Cursor.isBound, hc]

/-- What is left of a line begins, blanks aside, with a comment or a line end. -/
theorem LineTail.mayEnd {cs : List Char} (h : LineTail cs) : MayEnd cs := by
  rw [← List.takeWhile_append_dropWhile (p := isSpace) (l := cs)]
  refine .gap (List.all_eq_true.mp List.all_takeWhile) ?_
  obtain ⟨t, ht⟩ := h 0
  have hskip : (Cursor.mk 0 cs).skipSpace.rest = cs.dropWhile isSpace := rfl
  cases hrest : cs.dropWhile isSpace with
  | nil => exact .nil
  | cons c rest =>
    refine .stop (Decidable.byContradiction fun hc => ?_)
    simp only [isStop, Bool.or_eq_true, beq_iff_eq, not_or] at hc
    obtain ⟨⟨⟨⟨⟨hmark, hfeed⟩, hreturn⟩, -⟩, -⟩, -⟩ := hc
    rw [hrest] at hskip
    simp [lineEnd, skipComment, newline, hskip, hmark, hfeed, hreturn] at ht

variable {tail : List Char}

/-- A character that cannot stand behind a value does not come next. -/
theorem MayEnd.expect (h : MayEnd tail) {c : Char} (hc : Cursor.isBound c = false) (off : Nat) :
    (Cursor.mk off tail).expect c = none := by
  cases tail with
  | nil => rfl
  | cons d ds =>
    apply expect_mk_of_ne
    rintro rfl
    simp [h.isBound c (by simp)] at hc

theorem MayEnd.take (h : MayEnd tail) {p : Char → Bool}
    (hp : ∀ c, p c = true → Cursor.isBound c = false) (off : Nat) :
    (Cursor.mk off tail).take p = none := by
  cases tail with
  | nil => rfl
  | cons c cs =>
    have hbound := h.isBound c (by simp)
    have hc : ¬ p c = true := fun hpc => by
      rw [hp c hpc] at hbound
      cases hbound
    simp [Cursor.take, hc]

/-! ## Strings -/

theorem shortString_mk {cs : List Char} (hcs : ∀ c ∈ cs, isBasic c = true) (rest : List Char)
    (off : Nat) :
    ∃ off', (Cursor.mk off ('"' :: (cs ++ '"' :: rest))).shortString =
      some (String.ofList cs, ⟨off', rest⟩) := by
  have htake := takeWhile_mk cs ('"' :: rest) hcs (by simp [isBasic]) (off + '"'.utf8Size)
  refine ⟨off + '"'.utf8Size + sizeOf cs + '"'.utf8Size, ?_⟩
  simp [shortString, fuel, basicBody, htake]

theorem shortString_literal {cs : List Char} (hcs : ∀ c ∈ cs, isLiteral c = true)
    (rest : List Char) (off : Nat) :
    ∃ off', (Cursor.mk off ('\'' :: (cs ++ '\'' :: rest))).shortString =
      some (String.ofList cs, ⟨off', rest⟩) := by
  have htake := takeWhile_mk cs ('\'' :: rest) hcs (by simp [isLiteral]) (off + '\''.utf8Size)
  refine ⟨off + '\''.utf8Size + sizeOf cs + '\''.utf8Size, ?_⟩
  simp [shortString, literalBody, expect_mk_of_ne, htake]

/-- A quote is the first of three only if two more stand behind it; those around a string on one
line are not, unless the string is empty and one more stands behind it. -/
theorem string_of_shortString {q : Char} (hq : q = '"' ∨ q = '\'') {cs rest : List Char}
    (hcs : q ∉ cs) (hempty : cs = [] → rest.head? ≠ some q) {r : String × Cursor} {off : Nat}
    (hshort : (Cursor.mk off (q :: (cs ++ q :: rest))).shortString = some r) :
    (Cursor.mk off (q :: (cs ++ q :: rest))).string = some r := by
  rw [← hshort]
  cases cs with
  | nil =>
    cases rest with
    | nil => obtain rfl | rfl := hq <;> rfl
    | cons c rest =>
      have hc : c ≠ q := by simpa using hempty rfl
      obtain rfl | rfl := hq <;> (unfold string; split <;> simp_all)
  | cons c cs =>
    have hc : c ≠ q := by
      rintro rfl
      simp at hcs
    obtain rfl | rfl := hq <;> (unfold string; split <;> simp_all)

/-- A run of plain characters between double quotes. -/
theorem value_string {cs rest : List Char} (hcs : ∀ c ∈ cs, isBasic c = true) (hrest : MayEnd rest)
    (room off : Nat) :
    ∃ off', (Cursor.mk off ('"' :: (cs ++ '"' :: rest))).value room =
      some (.scalar (.string (String.ofList cs)) ⟨off, off'⟩, ⟨off', rest⟩) := by
  obtain ⟨off', hshort⟩ := shortString_mk hcs rest off
  have hquote : '"' ∉ cs := fun hmem => absurd (hcs _ hmem) (by decide)
  have hbehind : rest.head? ≠ some '"' := fun hhead =>
    absurd (hrest.isBound _ hhead) (by decide)
  have hstring := string_of_shortString (.inl rfl) hquote (fun _ => hbehind) hshort
  refine ⟨off', ?_⟩
  unfold value
  simp [hstring, spanTo]

/-- A run of plain characters between single quotes. -/
theorem value_literal {cs rest : List Char} (hcs : ∀ c ∈ cs, isLiteral c = true)
    (hrest : MayEnd rest) (room off : Nat) :
    ∃ off', (Cursor.mk off ('\'' :: (cs ++ '\'' :: rest))).value room =
      some (.scalar (.string (String.ofList cs)) ⟨off, off'⟩, ⟨off', rest⟩) := by
  obtain ⟨off', hshort⟩ := shortString_literal hcs rest off
  have hquote : '\'' ∉ cs := fun hmem => absurd (hcs _ hmem) (by decide)
  have hbehind : rest.head? ≠ some '\'' := fun hhead =>
    absurd (hrest.isBound _ hhead) (by decide)
  have hstring := string_of_shortString (.inr rfl) hquote (fun _ => hbehind) hshort
  refine ⟨off', ?_⟩
  unfold value
  simp [hstring, spanTo]

/-! ## Truth values -/

/-- A word for a truth value, whatever stands behind it. -/
theorem value_boolean (b : Bool) (rest : List Char) (room off : Nat) :
    ∃ off', (Cursor.mk off ((if b then "true" else "false").toList ++ rest)).value room =
      some (.scalar (.boolean b) ⟨off, off'⟩, ⟨off', rest⟩) := by
  cases b with
  | true =>
    have htext : (if true then "true" else "false").toList = ['t', 'r', 'u', 'e'] := by decide
    refine ⟨off + 't'.utf8Size + 'r'.utf8Size + 'u'.utf8Size + 'e'.utf8Size, ?_⟩
    rw [htext]
    unfold value
    simp [boolean, expectAll, spanTo]
  | false =>
    have htext : (if false then "true" else "false").toList = ['f', 'a', 'l', 's', 'e'] := by
      decide
    refine ⟨off + 'f'.utf8Size + 'a'.utf8Size + 'l'.utf8Size + 's'.utf8Size + 'e'.utf8Size, ?_⟩
    rw [htext]
    unfold value
    simp [boolean, expectAll, expect_mk_of_ne, spanTo]

end Cursor

end LoopbackLock.Toml
