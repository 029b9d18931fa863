import LoopbackLock.Proofs.Toml.Values

/-!
# Numbers

The digits of a number below 2⁶³, with a sign or without one, are read as that integer where a value
may end; with a point and digits or a power of ten behind them, they are read as a floating point
number. A number is tried as a date, as a time and as a floating point number first; a cursor that
is inside a run of digits (`InDigits`) finds none of the marks that these need, however many digits
it has passed.
-/

namespace LoopbackLock.Toml.Cursor

open Text

/-! ## Runs of digits -/

/-- A character that may stand behind the digits of a number. -/
def isPause (c : Char) : Bool := isBound c || c == '.' || c == 'e' || c == 'E'

theorem not_isPause_of_isDigit {c : Char} (h : Text.isDigit c = true) : isPause c = false := by
  refine Bool.eq_false_iff.mpr fun hc => ?_
  simp only [isPause, isBound, isSpace, isStop, Bool.or_eq_true, beq_iff_eq] at hc
  obtain (((((rfl | rfl) | (((((rfl | rfl) | rfl) | rfl) | rfl) | rfl)) | rfl) | rfl) | rfl) := hc
    <;> exact absurd h (by decide)

/-- The cursor has digits before it, perhaps none, and then what may stand behind them. -/
def InDigits (s : Cursor) : Prop :=
  ∃ ds tail, s.rest = ds ++ tail ∧ (∀ c ∈ ds, Text.isDigit c = true) ∧
    ∀ c ∈ tail.head?, isPause c = true

/-- The next character, if there is one, is a digit or may stand behind digits. -/
theorem InDigits.next {s : Cursor} (h : s.InDigits) :
    s.rest = [] ∨ ∃ c cs, s.rest = c :: cs ∧
      (Text.isDigit c = true ∧ InDigits ⟨s.offset + c.utf8Size, cs⟩ ∨ isPause c = true) := by
  obtain ⟨ds, tail, hs, hds, htail⟩ := h
  match ds, tail with
  | [], [] => exact .inl hs
  | [], c :: cs => exact .inr ⟨c, cs, hs, .inr (htail c (by simp))⟩
  | d :: ds, tail =>
    refine .inr ⟨d, ds ++ tail, hs, .inl ⟨hds d (by simp), ds, tail, rfl, ?_, htail⟩⟩
    intro c hc
    exact hds c (List.mem_cons_of_mem d hc)

theorem InDigits.expect {s : Cursor} (h : s.InDigits) {c : Char} (hc : Text.isDigit c = false)
    (hpause : isPause c = false) : s.expect c = none := by
  obtain hs | ⟨d, cs, hs, hd⟩ := h.next
  · simp [Cursor.expect, hs]
  · have : c ≠ d := by
      rintro rfl
      simp [hc, hpause] at hd
    simp [Cursor.expect, hs, this]

theorem InDigits.takeExactly {s t : Cursor} {n : Nat} {ds : List Char} (h : s.InDigits)
    (ht : s.takeExactly Text.isDigit n = some (ds, t)) : t.InDigits := by
  induction n generalizing s ds with
  | zero =>
    obtain ⟨-, rfl⟩ := Prod.mk.inj (Option.some.inj ht)
    exact h
  | succ n ih =>
    have hnone (hs : s.take Text.isDigit = none) : t.InDigits := by
      simp [Cursor.takeExactly, hs] at ht
    obtain hs | ⟨c, cs, hs, ⟨hc, hmore⟩ | hpause⟩ := h.next
    · exact hnone (by simp [Cursor.take, hs])
    · simp only [Cursor.takeExactly, Cursor.take, hs, hc, if_true, Option.bind_eq_bind,
        Option.bind_some] at ht
      obtain ⟨⟨ds', t'⟩, hn, ht⟩ := Option.bind_eq_some_iff.mp ht
      obtain ⟨-, rfl⟩ := Prod.mk.inj (Option.some.inj ht)
      exact ih hmore hn
    · have hc : Text.isDigit c = false := by
        cases hc : Text.isDigit c with
        | false => rfl
        | true => simp [not_isPause_of_isDigit hc] at hpause
      exact hnone (by simp [Cursor.take, hs, hc])

theorem InDigits.bounded {s t : Cursor} {width low high n : Nat} (h : s.InDigits)
    (ht : s.bounded width low high = some (n, t)) : t.InDigits := by
  obtain ⟨⟨ds, t'⟩, hds, ht⟩ := Option.bind_eq_some_iff.mp ht
  dsimp only at ht
  split at ht
  · obtain ⟨-, rfl⟩ := Prod.mk.inj (Option.some.inj ht)
    exact h.takeExactly hds
  · cases ht

/-- Digits alone are no moment: a date needs a hyphen, a time a colon. -/
theorem InDigits.moment {s : Cursor} (h : s.InDigits) : s.moment = none := by
  have hdate : s.date = none := by
    cases hb : s.bounded 4 0 9999 with
    | none => simp [date, hb]
    | some r => simp [date, hb, (h.bounded hb).expect (c := '-') (by decide) (by decide)]
  have htime : s.time = none := by
    cases hb : s.bounded 2 0 23 with
    | none => simp [time, hb]
    | some r => simp [time, hb, (h.bounded hb).expect (c := ':') (by decide) (by decide)]
  simp [Cursor.moment, hdate, htime]

/-- A run of digits up to what stands behind it. -/
theorem digitRun_digits {ds tail : List Char} (hds : ∀ c ∈ ds, Text.isDigit c = true)
    (htail : ∀ c ∈ tail.head?, isPause c = true) (due : Bool) (hdue : due = true → ds ≠ [])
    (off : Nat) : digitRun 10 due off (ds ++ tail) = some (ds, ⟨off + ds.length, tail⟩) := by
  induction ds generalizing due off with
  | nil =>
    have hdue : due = false := by simpa using hdue
    cases tail with
    | nil => simp [digitRun, hdue]
    | cons c cs =>
      have hpause := htail c (by simp)
      have hdigit : isDigitOf 10 c = false := by
        refine Bool.eq_false_iff.mpr fun hc => ?_
        obtain ⟨d, hd⟩ := Option.isSome_iff_exists.mp hc
        simp [not_isPause_of_isDigit (digitOf?_ten_eq_some_iff.mp hd).1] at hpause
      have hunderscore : c ≠ '_' := by
        rintro rfl
        simp [isPause, isBound, isSpace, isStop] at hpause
      simp [digitRun, hdigit, hunderscore, hdue]
  | cons d ds ih =>
    have hd : isDigitOf 10 d = true := isDigitOf_ten (hds d (by simp))
    have hmore := ih (fun c hc => hds c (List.mem_cons_of_mem d hc)) false (by simp) (off + 1)
    have hoff : off + 1 + ds.length = off + (ds.length + 1) := by omega
    simp [digitRun, hd, hmore, hoff]

variable {tail sg : List Char}

theorem InDigits.mk_digits (htail : ∀ c ∈ tail.head?, isPause c = true) (n off : Nat) :
    InDigits ⟨off, digits 10 n ++ tail⟩ :=
  ⟨digits 10 n, tail, rfl, fun _ hc => isDigit_of_mem_digits hc, htail⟩

theorem MayEnd.isPause (h : MayEnd tail) : ∀ c ∈ tail.head?, isPause c = true := by
  intro c hc
  simp [Cursor.isPause, h.isBound c hc]

/-- The digits of a number are its digits as a decimal integer has them. -/
theorem decimalDigits_digits (htail : ∀ c ∈ tail.head?, isPause c = true) (n off : Nat) :
    ∃ off', (Cursor.mk off (digits 10 n ++ tail)).decimalDigits =
      some (digits 10 n, ⟨off', tail⟩) := by
  by_cases h : n = 0
  · refine ⟨off + 1, ?_⟩
    have hzero : digits 10 0 = ['0'] := by simp [digits, digitChar]
    simp [decimalDigits, h, hzero, Char.utf8Size]
  · have hhead : (digits 10 n).head? ≠ some '0' :=
      head?_digits_ne_zero (by omega) (by omega) (Nat.pos_of_ne_zero h)
    have hds : ∀ c ∈ digits 10 n, Text.isDigit c = true := fun c hc => isDigit_of_mem_digits hc
    have hrun := digitRun_digits hds htail true (fun _ => digits_ne_nil 10 n) off
    have hexpect : (Cursor.mk off (digits 10 n ++ tail)).expect '0' = none := by
      obtain ⟨d, ds, hd⟩ := List.exists_cons_of_ne_nil (digits_ne_nil 10 n)
      rw [hd] at hhead ⊢
      apply expect_mk_of_ne
      simpa [eq_comm] using hhead
    refine ⟨off + (digits 10 n).length, ?_⟩
    simp only [decimalDigits, hexpect, someDigits, hrun]

/-! ## Signs -/

/-- A sign, or none. -/
def IsSign (cs : List Char) : Prop := cs = [] ∨ cs = ['+'] ∨ cs = ['-']

theorem IsSign.nil : IsSign [] := .inl rfl

/-- A sign is read as what it is, if none stands behind it. -/
theorem sign_mk (hsign : IsSign sg) {rest : List Char}
    (hrest : ∀ c ∈ rest.head?, c ≠ '-' ∧ c ≠ '+') (off : Nat) :
    (Cursor.mk off (sg ++ rest)).sign = (sg == ['-'], ⟨off + sg.length, rest⟩) := by
  obtain rfl | rfl | rfl := hsign
  · cases rest with
    | nil => rfl
    | cons c cs =>
      obtain ⟨hminus, hplus⟩ := hrest c (by simp)
      unfold Cursor.sign
      simp only [List.nil_append]
      split <;> simp_all
  · rfl
  · rfl

/-- The first character of a number's digits. -/
theorem exists_digits_eq_cons (n : Nat) :
    ∃ d ds, digits 10 n = d :: ds ∧ Text.isDigit d = true := by
  obtain ⟨d, ds, hd⟩ := List.exists_cons_of_ne_nil (digits_ne_nil 10 n)
  exact ⟨d, ds, hd, isDigit_of_mem_digits (n := n) (by simp [hd])⟩

theorem ne_sign_of_isDigit {c : Char} (h : Text.isDigit c = true) : c ≠ '-' ∧ c ≠ '+' := by
  constructor
  · rintro rfl
    exact absurd h (by decide)
  · rintro rfl
    exact absurd h (by decide)

theorem sign_digits (hsign : IsSign sg) (n off : Nat) :
    (Cursor.mk off (sg ++ (digits 10 n ++ tail))).sign =
      (sg == ['-'], ⟨off + sg.length, digits 10 n ++ tail⟩) := by
  apply sign_mk hsign
  obtain ⟨d, ds, hd, hdigit⟩ := exists_digits_eq_cons n
  intro c hc
  obtain rfl : d = c := by simpa [hd] using hc
  exact ne_sign_of_isDigit hdigit

/-- A number of a fixed width begins with a digit, and so does a moment. -/
theorem bounded_of_not_isDigit {s : Cursor} (h : ∀ c ∈ s.rest.head?, Text.isDigit c = false)
    (width low high : Nat) : s.bounded (width + 1) low high = none := by
  have htake : s.take Text.isDigit = none := by
    unfold Cursor.take
    split
    · rfl
    · rename_i c cs hs
      simp [h c (by simp [hs])]
  simp [Cursor.bounded, Cursor.takeExactly, htake]

theorem moment_of_not_isDigit {s : Cursor} (h : ∀ c ∈ s.rest.head?, Text.isDigit c = false) :
    s.moment = none := by
  simp [Cursor.moment, date, time, bounded_of_not_isDigit h]

theorem moment_digits (hsign : IsSign sg) (htail : ∀ c ∈ tail.head?, isPause c = true)
    (n off : Nat) : (Cursor.mk off (sg ++ (digits 10 n ++ tail))).moment = none := by
  obtain rfl | rfl | rfl := hsign
  · exact (InDigits.mk_digits htail n off).moment
  · exact moment_of_not_isDigit (by simp [Text.isDigit])
  · exact moment_of_not_isDigit (by simp [Text.isDigit])

/-- What is read as a number or a moment is a value, if it begins with a digit or a sign. -/
theorem value_numeric {cs : List Char} {x : Scalar} {off off' : Nat}
    (hhead : ∃ c ds, cs = c :: ds ∧ (Text.isDigit c = true ∨ c = '+' ∨ c = '-'))
    (hnumeric : (Cursor.mk off cs).numeric = some (x, ⟨off', tail⟩)) (room : Nat) :
    (Cursor.mk off cs).value room = some (.scalar x ⟨off, off'⟩, ⟨off', tail⟩) := by
  obtain ⟨c, ds, rfl, hc⟩ := hhead
  have hne (d : Char) (hd : Text.isDigit d = false ∧ d ≠ '+' ∧ d ≠ '-') : c ≠ d := by
    rintro rfl
    simp [hd] at hc
  unfold value
  simp [hnumeric, spanTo, hne '"' (by decide), hne '\'' (by decide), hne 't' (by decide),
    hne 'f' (by decide), hne 'i' (by decide), hne 'n' (by decide), hne '[' (by decide),
    hne '\x7b' (by decide)]

theorem head_signed (hsign : IsSign sg) (n : Nat) (tail : List Char) :
    ∃ c ds, sg ++ (digits 10 n ++ tail) = c :: ds ∧
      (Text.isDigit c = true ∨ c = '+' ∨ c = '-') := by
  obtain rfl | rfl | rfl := hsign
  · obtain ⟨d, ds, hd, hdigit⟩ := exists_digits_eq_cons n
    exact ⟨d, ds ++ tail, by simp [hd], .inl hdigit⟩
  · exact ⟨_, _, rfl, by simp⟩
  · exact ⟨_, _, rfl, by simp⟩

/-! ## Integers -/

theorem power_eq_none (htail : MayEnd tail) (off : Nat) : (Cursor.mk off tail).power = none := by
  have hno : (Cursor.mk off tail).take (fun c => c == 'e' || c == 'E') = none := by
    apply htail.take
    intro c hc
    obtain rfl | rfl : c = 'e' ∨ c = 'E' := by simpa using hc
    all_goals decide
  simp [power, hno]

/-- The digits of a number have no point and no power behind them. -/
theorem float_digits (hsign : IsSign sg) (htail : MayEnd tail) (n off : Nat) :
    (Cursor.mk off (sg ++ (digits 10 n ++ tail))).float = none := by
  have hin := InDigits.mk_digits htail.isPause n (off + sg.length)
  obtain ⟨off', hdigits⟩ := decimalDigits_digits htail.isPause n (off + sg.length)
  have hfraction : (Cursor.mk off' tail).fraction = none := by
    simp [fraction, htail.expect (c := '.') (by decide)]
  have hdecimal : (Cursor.mk off (sg ++ (digits 10 n ++ tail))).decimal = none := by
    simp [decimal, sign_digits hsign, hdigits, hfraction, power_eq_none htail]
  have hword : (Cursor.mk off (sg ++ (digits 10 n ++ tail))).wordNumber = none := by
    simp [wordNumber, sign_digits hsign, expectAll,
      hin.expect (c := 'i') (by decide) (by decide), hin.expect (c := 'n') (by decide) (by decide)]
  simp [float, hdecimal, hword]

/-- The digits of a number that sixty-three bits can hold are that integer, or its negative. -/
theorem integer_digits (hsign : IsSign sg) {n : Nat} (hn : n < Nat.pow 2 63) (htail : MayEnd tail)
    (off : Nat) :
    ∃ off', (Cursor.mk off (sg ++ (digits 10 n ++ tail))).integer =
      some (if sg = ['-'] then -(n : Int) else n, ⟨off', tail⟩) := by
  obtain ⟨off', hdigits⟩ := decimalDigits_digits htail.isPause n (off + sg.length)
  have hvalue : decimalValue (digits 10 n) = n := by
    simp [decimalValue, ofDigits_digits]
  have hsigned : signed? (sg == ['-']) n = some (if sg = ['-'] then -(n : Int) else n) := by
    by_cases hs : sg = ['-'] <;> simp [signed?, hn, Nat.le_of_lt hn, hs]
  -- The character behind a first zero is a digit or ends the number, so it marks no radix.
  have hradix (c : Char) (cs : List Char) (hc : Text.isDigit c = false)
      (hbound : isBound c = false) : sg ++ (digits 10 n ++ tail) ≠ '0' :: c :: cs := by
    intro heq
    obtain rfl | rfl | rfl := hsign
    · obtain ⟨d, ds, hd⟩ := List.exists_cons_of_ne_nil (digits_ne_nil 10 n)
      obtain ⟨-, hbehind⟩ := List.cons_eq_cons.mp (hd ▸ heq)
      obtain _ | ⟨e, es⟩ := ds
      · have hfirst : isBound c = true := htail.isBound c (by simp [show tail = _ from hbehind])
        simp [hbound] at hfirst
      · obtain ⟨rfl, -⟩ := List.cons_eq_cons.mp hbehind
        have : Text.isDigit e = true := isDigit_of_mem_digits (n := n) (by simp [hd])
        simp [hc] at this
    · exact absurd (List.cons_eq_cons.mp heq).1 (by decide)
    · exact absurd (List.cons_eq_cons.mp heq).1 (by decide)
  refine ⟨off', ?_⟩
  unfold integer
  dsimp only
  split
  · rename_i radix heq
    split at heq
    · exact absurd ‹_› (hradix 'x' _ (by decide) (by decide))
    · exact absurd ‹_› (hradix 'o' _ (by decide) (by decide))
    · exact absurd ‹_› (hradix 'b' _ (by decide) (by decide))
    · cases heq
  · simp [sign_digits hsign, hdigits, hvalue, hsigned]

/-- A number that sixty-three bits can hold, where a value may end. -/
theorem value_integer (hsign : IsSign sg) {n : Nat} (hn : n < Nat.pow 2 63) (htail : MayEnd tail)
    (room off : Nat) :
    ∃ off', (Cursor.mk off (sg ++ (digits 10 n ++ tail))).value room =
      some (.scalar (.integer (if sg = ['-'] then -(n : Int) else n)) ⟨off, off'⟩,
        ⟨off', tail⟩) := by
  obtain ⟨off', hinteger⟩ := integer_digits hsign hn htail off
  refine ⟨off', value_numeric (head_signed hsign n _) ?_ room⟩
  simp [numeric, moment_digits hsign htail.isPause, float_digits hsign htail, hinteger]

/-! ## Floating point numbers -/

/-- A power of ten: the mark, and its exponent with a sign or without one. -/
def IsPower (cs : List Char) (e : Int) : Prop :=
  ∃ mark sg ds, cs = mark :: (sg ++ ds) ∧ (mark = 'e' ∨ mark = 'E') ∧ IsSign sg ∧ ds ≠ [] ∧
    (∀ c ∈ ds, Text.isDigit c = true) ∧
    e = if sg = ['-'] then -(decimalValue ds : Int) else decimalValue ds

/-- Digits behind the point, one or more. -/
def IsPlaces (ds : List Char) : Prop := ds ≠ [] ∧ ∀ c ∈ ds, Text.isDigit c = true

/-- What stands behind the whole part of a floating point number: digits behind a point, a power of
ten, or both. -/
inductive IsScale : List Char → List Char → Int → Prop
  | places {ds : List Char} : IsPlaces ds → IsScale ('.' :: ds) ds 0
  | power {cs : List Char} {e : Int} : IsPower cs e → IsScale cs [] e
  | both {ds cs : List Char} {e : Int} : IsPlaces ds → IsPower cs e →
      IsScale ('.' :: (ds ++ cs)) ds e

variable {cs ds : List Char} {e : Int}

theorem IsPower.isPause (h : IsPower cs e) (tail : List Char) :
    ∀ c ∈ (cs ++ tail).head?, isPause c = true := by
  obtain ⟨mark, sg, ds, rfl, rfl | rfl, -⟩ := h <;> simp [Cursor.isPause]

theorem IsScale.isPause (h : IsScale cs ds e) (tail : List Char) :
    ∀ c ∈ (cs ++ tail).head?, isPause c = true := by
  cases h with
  | places hds => simp [Cursor.isPause]
  | power hp => exact hp.isPause tail
  | both hds hp => simp [Cursor.isPause]

theorem power_mk (h : IsPower cs e) (htail : MayEnd tail) (off : Nat) :
    ∃ off', (Cursor.mk off (cs ++ tail)).power = some (e, ⟨off', tail⟩) := by
  obtain ⟨mark, sg, ds, rfl, hmark, hsign, hne, hds, rfl⟩ := h
  have htake : (Cursor.mk off (mark :: (sg ++ (ds ++ tail)))).take (fun c => c == 'e' || c == 'E') =
      some (mark, ⟨off + mark.utf8Size, sg ++ (ds ++ tail)⟩) := by
    obtain rfl | rfl := hmark <;> simp [Cursor.take]
  have hfirst : ∀ c ∈ (ds ++ tail).head?, c ≠ '-' ∧ c ≠ '+' := by
    obtain ⟨d, ds, rfl⟩ := List.exists_cons_of_ne_nil hne
    intro c hc
    obtain rfl : d = c := by simpa using hc
    exact ne_sign_of_isDigit (hds d (by simp))
  have hsg := sign_mk hsign hfirst (off + mark.utf8Size)
  have hrun := digitRun_digits hds htail.isPause true (fun _ => hne)
    (off + mark.utf8Size + sg.length)
  refine ⟨off + mark.utf8Size + sg.length + ds.length, ?_⟩
  simp only [power, List.cons_append, List.append_assoc, htake, hsg, someDigits, hrun,
    Option.bind_eq_bind, Option.bind_some, beq_iff_eq]
  rfl

theorem fraction_mk (hds : IsPlaces ds) {rest : List Char}
    (hrest : ∀ c ∈ rest.head?, isPause c = true) (off : Nat) :
    ∃ off', (Cursor.mk off ('.' :: (ds ++ rest))).fraction = some (ds, ⟨off', rest⟩) := by
  have hrun := digitRun_digits hds.2 hrest true (fun _ => hds.1) (off + '.'.utf8Size)
  exact ⟨off + '.'.utf8Size + ds.length, by simp [fraction, someDigits, hrun]⟩

/-- The number nearest to what is written, unless it is too great. -/
theorem decimal_mk (hsign : IsSign sg) {n : Nat} (h : IsScale cs ds e) (htail : MayEnd tail)
    {x : Binary64} (hx : Binary64.ofDecimal (sg == ['-']) (decimalValue (digits 10 n ++ ds))
      (e - ds.length) = x) (hfits : x ≠ .infinite false) (off : Nat) :
    ∃ off', (Cursor.mk off (sg ++ (digits 10 n ++ (cs ++ tail)))).decimal =
      some (x, ⟨off', tail⟩) := by
  obtain ⟨mid, hdigits⟩ := decimalDigits_digits (h.isPause tail) n (off + sg.length)
  cases h with
  | places hds =>
    obtain ⟨off', hfraction⟩ := fraction_mk hds htail.isPause mid
    refine ⟨off', ?_⟩
    simp only [List.cons_append, Int.zero_sub] at hdigits hx ⊢
    simp [decimal, sign_digits hsign, hdigits, hfraction, power_eq_none htail, hx, hfits]
  | power hp =>
    obtain ⟨off', hpower⟩ := power_mk hp htail mid
    have hfraction : (Cursor.mk mid (cs ++ tail)).fraction = none := by
      obtain ⟨mark, sg', ds', rfl, rfl | rfl, -⟩ := hp <;>
        simp [fraction, expect_mk_of_ne]
    refine ⟨off', ?_⟩
    simp only [List.append_nil, List.length_nil, Int.natCast_zero, Int.sub_zero] at hx
    simp [decimal, sign_digits hsign, hdigits, hfraction, hpower, hx, hfits]
  | both hds hp =>
    obtain ⟨mid', hfraction⟩ := fraction_mk hds (hp.isPause tail) mid
    obtain ⟨off', hpower⟩ := power_mk hp htail mid'
    refine ⟨off', ?_⟩
    simp only [List.cons_append, List.append_assoc] at hdigits ⊢
    simp [decimal, sign_digits hsign, hdigits, hfraction, hpower, hx, hfits]

theorem value_float (hsign : IsSign sg) {n : Nat} (h : IsScale cs ds e) (htail : MayEnd tail)
    {x : Binary64} (hx : Binary64.ofDecimal (sg == ['-']) (decimalValue (digits 10 n ++ ds))
      (e - ds.length) = x) (hfits : x ≠ .infinite false) (room off : Nat) :
    ∃ off', (Cursor.mk off (sg ++ (digits 10 n ++ (cs ++ tail)))).value room =
      some (.scalar (.float x) ⟨off, off'⟩, ⟨off', tail⟩) := by
  obtain ⟨off', hdecimal⟩ := decimal_mk hsign h htail hx hfits off
  refine ⟨off', value_numeric (head_signed hsign n _) ?_ room⟩
  simp [numeric, moment_digits hsign (h.isPause tail), float, hdecimal]

/-- The words for what is no finite number. -/
theorem value_word (hsign : IsSign sg) {word : List Char}
    (hword : word = ['i', 'n', 'f'] ∨ word = ['n', 'a', 'n']) (tail : List Char) (room off : Nat) :
    ∃ off' x, (Cursor.mk off (sg ++ (word ++ tail))).value room =
      some (.scalar (.float x) ⟨off, off'⟩, ⟨off', tail⟩) := by
  have hsg (off : Nat) : (Cursor.mk off (sg ++ (word ++ tail))).sign =
      (sg == ['-'], ⟨off + sg.length, word ++ tail⟩) := by
    apply sign_mk hsign
    obtain rfl | rfl := hword <;> simp
  obtain ⟨off', x, hread⟩ : ∃ off' x, (Cursor.mk off (sg ++ (word ++ tail))).wordNumber =
      some (x, ⟨off', tail⟩) := by
    simp only [wordNumber, hsg]
    obtain rfl | rfl := hword <;> simp [expectAll, expect_mk_of_ne]
  refine ⟨off', x, ?_⟩
  have hdigits (off : Nat) : (Cursor.mk off (word ++ tail)).decimalDigits = none := by
    obtain rfl | rfl := hword <;>
      simp [decimalDigits, expect_mk_of_ne, someDigits, digitRun, isDigitOf, digitOf?, digitValue?]
  have hnumeric : sg ≠ [] → (Cursor.mk off (sg ++ (word ++ tail))).numeric =
      some (.float x, ⟨off', tail⟩) := by
    intro hne
    have hmoment : (Cursor.mk off (sg ++ (word ++ tail))).moment = none := by
      apply moment_of_not_isDigit
      obtain rfl | rfl | rfl := hsign <;> simp_all [Text.isDigit]
    simp [numeric, hmoment, float, decimal, hsg, hdigits, hread]
  obtain rfl | rfl | rfl := hsign
  · simp only [List.nil_append] at hread ⊢
    obtain rfl | rfl := hword <;> (unfold value; simp at hread; simp [hread, spanTo])
  · exact value_numeric ⟨_, _, rfl, by simp⟩ (hnumeric (by simp)) room
  · exact value_numeric ⟨_, _, rfl, by simp⟩ (hnumeric (by simp)) room

end LoopbackLock.Toml.Cursor
