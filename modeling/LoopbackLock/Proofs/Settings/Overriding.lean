import LoopbackLock.Proofs.Address.RoundTrip
import LoopbackLock.Proofs.Settings.Fields
import LoopbackLock.Proofs.Toml.Grammar
import LoopbackLock.Proofs.Toml.Lines
import LoopbackLock.Settings.Document
import LoopbackLock.Settings.Written

/-!
# Documents that override some fields

A document may give some of the fields, in any order, among lines of other names, blanks and
comments. Each pair of a field is read as the field's value and takes the field over, every other
pair is passed by (`foldlM_takeEntry`); since the names differ, the order does not matter. So the
document says the defaults with the given fields replaced, and the first field of these settings
that a lock cannot work with is the error, wherever it stands in the document (`ofDocument_sheet`).
The value of another name may be any that the reader takes, every text of the grammar of values
among them (`Written.readsValue`).
-/

namespace LoopbackLock

open Toml Text

namespace Settings

/-- What a document says in the place of a field. -/
def scalarOf (s : Settings) : Field → Scalar
  | .host => .string s.host.text
  | .port => .integer s.port.toNat
  | .challengeTimeout => .integer s.challengeTimeout.toNat
  | .waitTimeout => .integer s.waitTimeout.toNat
  | .acceptPoll => .integer s.acceptPoll.toNat
  | .onVanished => .string s.onVanished.name

/-- A document can hold the value of the field: a time must not need all the sixty-four bits. -/
def Fits (s : Settings) : Field → Prop
  | .challengeTimeout => s.challengeTimeout.toNat ≤ maxInteger
  | .waitTimeout => s.waitTimeout.toNat ≤ maxInteger
  | .acceptPoll => s.acceptPoll.toNat ≤ maxInteger
  | _ => True

/-- Where the pairs of a document give fields, they give the values that the settings have. -/
def ToldBy (s : Settings) (pairs : List Pair) : Prop :=
  ∀ p ∈ pairs, ∀ f, Field.ofName? p.name = some f → p.value = (s.valueText f).toList ∧ s.Fits f

/-- What a lock has to say against the value of one field. -/
def complaint? (s : Settings) : Field → Option InvalidValue
  | .host => if !s.host.isLoopback then some ⟨.host, .notLoopback s.host⟩ else none
  | .port => if s.port = 0 then some ⟨.port, .portZero⟩ else none
  | .challengeTimeout =>
    if s.challengeTimeout = 0 then some ⟨.challengeTimeout, .timeZero⟩ else none
  | .waitTimeout => if s.waitTimeout = 0 then some ⟨.waitTimeout, .timeZero⟩ else none
  | .acceptPoll => if s.acceptPoll = 0 then some ⟨.acceptPoll, .timeZero⟩ else none
  | .onVanished => none

/-- The first setting that a lock cannot work with is the first in the order of the fields. -/
theorem firstInvalid?_eq (s : Settings) : s.firstInvalid? = Field.all.findSome? s.complaint? := by
  have hfirst (f : Field) (fs : List Field) {c : Prop} {_ : Decidable c} {e : InvalidValue}
      (h : s.complaint? f = if c then some e else none) : (f :: fs).findSome? s.complaint? =
        if c then some e else fs.findSome? s.complaint? := by
    rw [List.findSome?_cons, h]
    split_ifs <;> rfl
  rw [Field.all, hfirst .host _ rfl, hfirst .port _ rfl, hfirst .challengeTimeout _ rfl,
    hfirst .waitTimeout _ rfl, hfirst .acceptPoll _ rfl]
  rfl

end Settings

/-- The fields that the pairs of a document give. -/
def Field.given (pairs : List Pair) : List Field :=
  pairs.filterMap fun p => Field.ofName? p.name

namespace Settings

/-! ## The characters of a value -/

theorem isBasic_of_isAddressChar {c : Char} (h : Host.isAddressChar c = true) :
    Cursor.isBasic c = true := by
  obtain (h | rfl) | rfl : ((digitOf? 16 c).isSome ∨ c = '.') ∨ c = ':' := by
    simpa [Host.isAddressChar] using h
  · have hrange := toNat_of_isSome_digitOf? h
    have hq : c ≠ '"' := by
      rintro rfl
      exact absurd hrange (by decide)
    have hb : c ≠ '\\' := by
      rintro rfl
      exact absurd hrange (by decide)
    have hlow : 0x20 ≤ c.toNat := by omega
    have hdel : c.toNat ≠ 0x7F := by omega
    simp [Cursor.isBasic, isPlain, hq, hb, hlow, hdel]
  · decide
  · decide

variable {s : Settings}

theorem readsValue_string {text : String} (hbasic : ∀ c ∈ text.toList, Cursor.isBasic c = true) :
    ReadsValue ("\"" ++ text ++ "\"").toList fun x => ∃ span, x = .scalar (.string text) span := by
  have hchars : ("\"" ++ text ++ "\"").toList = '"' :: (text.toList ++ ['"']) := by
    simp [String.toList_append]
  rw [hchars]
  refine ⟨by simp [isSpace], by simp, fun off tail htail => ?_⟩
  obtain ⟨off', hread⟩ := Cursor.value_string hbasic htail.mayEnd (maxDepth - 1) off
  rw [String.ofList_toList] at hread
  exact ⟨off', _, ⟨_, rfl⟩, by simpa using hread⟩

theorem readsValue_integer {n : Nat} (hn : n ≤ maxInteger) :
    ReadsValue (decimal n).toList fun x => ∃ span, x = .scalar (.integer n) span := by
  have hchars : (decimal n).toList = digits 10 n := String.toList_ofList
  rw [hchars]
  refine ⟨?_, digits_ne_nil 10 n, fun off tail htail => ?_⟩
  · intro c hc
    have hdigit := isDigit_of_mem_digits (n := n) (List.mem_of_mem_head? hc)
    apply not_isSpace_of_isBare
    simp [isBare, hdigit]
  · have hlt : n < Nat.pow 2 63 := by
      unfold maxInteger at hn
      have : 0 < Nat.pow 2 63 := by decide
      omega
    obtain ⟨off', hread⟩ := Cursor.value_integer .nil hlt htail.mayEnd (maxDepth - 1) off
    exact ⟨off', _, ⟨_, rfl⟩, hread⟩

/-- The text of a field reads as the field's value. -/
theorem readsValue_valueText {f : Field} (h : s.Fits f) :
    ReadsValue (s.valueText f).toList fun x => ∃ span, x = .scalar (s.scalarOf f) span := by
  cases f with
  | host =>
    apply readsValue_string
    rw [Host.text_toList]
    intro c hc
    exact isBasic_of_isAddressChar (Host.isAddressChar_of_mem_chars hc)
  | port =>
    apply readsValue_integer
    have hp := s.port.toNat_lt
    have hmax : (2 : Nat) ^ 16 ≤ maxInteger := by decide
    omega
  | challengeTimeout | waitTimeout | acceptPoll => exact readsValue_integer h
  | onVanished =>
    apply readsValue_string
    exact List.all_eq_true.mp (by cases s.onVanished <;> decide)

theorem isKey_name (f : Field) : IsKey f.name.toList f.name := by
  have hne : f.name.toList ≠ [] := by cases f <;> decide
  have hbare : ∀ c ∈ f.name.toList, isBare c = true :=
    List.all_eq_true.mp (by cases f <;> decide)
  simpa using isKey_bare hne hbare

/-! ## The entries of a document -/

theorem numberOf_integer {wanted : String} {limit n : Nat} (h : n ≤ limit) (span : Toml.Span) :
    numberOf wanted limit (.scalar (.integer n) span) = .ok n := by
  have hle : (n : Int) ≤ limit := by omega
  simp [numberOf, hle]

/-- The entry of a field's line assigns the field. -/
theorem assignItem_scalarOf (base s : Settings) (f : Field) (span : Toml.Span) :
    base.assignItem f (.scalar (s.scalarOf f) span) = .ok (base.withField s f) := by
  have htime (t : UInt64) : timeOf (.scalar (.integer t.toNat) span) = .ok t := by
    have hmax : t.toNat ≤ Nat.pow 2 64 - 1 := Nat.le_sub_one_of_lt t.toNat_lt
    rw [timeOf, numberOf_integer hmax]
    simp [Except.map]
  have hport : portOf (.scalar (.integer s.port.toNat) span) = .ok s.port := by
    have hmax : s.port.toNat ≤ 65535 := Nat.le_of_lt_succ s.port.toNat_lt
    rw [portOf, numberOf_integer hmax]
    simp [Except.map]
  have hhost : hostOf (.scalar (.string s.host.text) span) = .ok s.host := by
    delta hostOf
    dsimp only
    rw [Host.parse?_text]
  cases f with
  | host => simp [assignItem, scalarOf, hhost, withField, Except.map]
  | port => simp [assignItem, scalarOf, hport, withField, Except.map]
  | challengeTimeout => simp [assignItem, scalarOf, htime, withField, Except.map]
  | waitTimeout => simp [assignItem, scalarOf, htime, withField, Except.map]
  | acceptPoll => simp [assignItem, scalarOf, htime, withField, Except.map]
  | onVanished =>
    have hword : VanishedPolicy.ofName? s.onVanished.name = some s.onVanished := by
      cases s.onVanished <;> decide
    simp [assignItem, scalarOf, policyOf, policyOfWord, hword, withField, Except.map]

/-- The entries of pairs take over the fields that the pairs give, one after the other. -/
theorem foldlM_takeEntry {pairs : List Pair} (htold : s.ToldBy pairs) {es : List (Key × Item)}
    (h : List.Forall₂ (fun e p => e.1.name = p.name ∧ ReadsAs p.value e.2) es pairs)
    (base : Settings) :
    es.foldlM takeEntry base = .ok ((Field.given pairs).foldl (·.withField s) base) := by
  induction h generalizing base with
  | nil => rfl
  | @cons e p es pairs he _ ih =>
    obtain ⟨key, x⟩ := e
    obtain ⟨hname, hread⟩ : key.name = p.name ∧ ReadsAs p.value x := he
    have hmore : s.ToldBy pairs := fun q hq => htold q (List.mem_cons_of_mem p hq)
    rw [List.foldlM_cons]
    cases hf : Field.ofName? p.name with
    | none =>
      have hgiven : Field.given (p :: pairs) = Field.given pairs := by simp [Field.given, hf]
      have htake : base.takeEntry (key, x) = .ok base := by simp [takeEntry, hname, hf]
      rw [htake, hgiven]
      exact ih hmore base
    | some f =>
      have hgiven : Field.given (p :: pairs) = f :: Field.given pairs := by simp [Field.given, hf]
      obtain ⟨hvalue, hfits⟩ := htold p (by simp) f hf
      obtain ⟨span, rfl⟩ := (readsValue_valueText hfits).of_readsAs (hvalue ▸ hread)
      have htake : base.takeEntry (key, .scalar (s.scalarOf f) span) =
          .ok (base.withField s f) := by
        simp [takeEntry, hname, hf, assignItem_scalarOf, Except.mapError]
      rw [htake, hgiven]
      exact ih hmore _

/-- A document says the defaults with the given fields taken over. -/
theorem readDocument_sheet {sheet : Sheet} (hnodup : (sheet.pairs.map Pair.name).Nodup)
    (htold : s.ToldBy sheet.pairs) :
    readDocument sheet.text = .ok ((Field.given sheet.pairs).foldl (·.withField s) {}) := by
  obtain ⟨t, hdoc, hgives⟩ := document?_sheet sheet hnodup
  have hentries := foldlM_takeEntry htold hgives {}
  simp [readDocument, hdoc, hentries, Except.mapError]

/-- Fields that are taken over agree with the settings they come from, and the others stay. -/
theorem agree_foldl_withField (fs : List Field) (base s : Settings) (f : Field) :
    f.Agree (fs.foldl (·.withField s) base) (if f ∈ fs then s else base) := by
  induction fs generalizing base with
  | nil => exact .refl f base
  | cons g fs ih =>
    have hmore := ih (base.withField s g)
    by_cases hf : f ∈ fs
    · simpa [hf] using hmore
    · rw [if_neg hf] at hmore
      obtain rfl | hne := eq_or_ne f g
      · simpa using hmore.trans (agree_withField base s f)
      · simpa [hf, hne] using hmore.trans (agree_withField_of_ne hne base s)

/-- A document whose rows give some fields, and whose other rows have other names, gives the
defaults with exactly these fields replaced, if a lock can work with them. If not, the error is the
complaint about the first field in the order host, port, challenge, wait, poll. The order of the
rows, their blanks, comments and line ends do not matter. -/
theorem ofDocument_sheet (s : Settings) (sheet : Sheet)
    (hnodup : (sheet.pairs.map Pair.name).Nodup) (htold : s.ToldBy sheet.pairs) :
    ∃ t : Settings,
      (∀ f : Field, f.Agree t (if f ∈ Field.given sheet.pairs then s else {})) ∧
      ofDocument sheet.text =
        match Field.all.findSome? t.complaint? with
        | none => .ok t
        | some e => .error (.invalid e) := by
  refine ⟨_, agree_foldl_withField _ {} s, ?_⟩
  rw [ofDocument, readDocument_sheet hnodup htold, ← firstInvalid?_eq]
  simp only [bind, Except.bind, validate]
  split <;> simp_all [Except.mapError]

/-- A table in an array, with a date and a number. -/
theorem written_levels :
    Written 2 "[\x7bsince = 2024-02-29, rate = 0.5\x7d, true]".toList := by
  have hblank : IsGap [' '] := by simp [IsGap, isSpace]
  have hspaced : IsWide [' '] := .blank (by decide) .nil
  have hnone : IsGap [] := by simp [IsGap]
  have hday : Written 0 "2024-02-29".toList :=
    .moment (.date ⟨['2', '0', '2', '4'], ['0', '2'], ['2', '9'], rfl,
      ⟨rfl, List.all_eq_true.mp (by decide), by decide, by decide⟩,
      ⟨rfl, List.all_eq_true.mp (by decide), by decide, by decide⟩,
      ⟨rfl, List.all_eq_true.mp (by decide), by decide, by decide⟩⟩)
  have hrate : Written 0 ([] ++ (digits 10 0 ++ ['.', '5'])) :=
    .float .nil (.places ⟨by decide, List.all_eq_true.mp (by decide)⟩) (by decide +kernel)
  have hkey (name : String) (hne : name.toList ≠ []) (hbare : name.toList.all isBare = true) :
      IsKey name.toList name := by
    simpa using isKey_bare hne (List.all_eq_true.mp hbare)
  have hpairs : IsPairs (Written 0) ["since", "rate"] _ :=
    .more (.mk (hkey "since" (by decide) (by decide)) hblank hblank hday hnone) (by decide) hblank
      (.last (.mk (hkey "rate" (by decide) (by decide)) hblank hblank hrate hnone))
  have htable : Written 1 _ := .inr (.inr (.inr ⟨[], _, _, rfl, hnone, hpairs⟩))
  have htrue : Written 1 "true".toList := .inl (.boolean true)
  have hzero : digits 10 0 = ['0'] := digits_of_lt (by decide)
  refine .inr (.inl ⟨_, ?_, .more .nil htable .nil (.last hspaced htrue .nil)⟩)
  rw [hzero]
  rfl

/-- Two values are refused, and the error is about the one that stands behind the other. The value
of another name is passed by. -/
theorem ofDocument_sheet_port : ∃ sheet : Sheet,
    sheet.text = "# for tests\n  wait_timeout_ms = 0\t# soon\r\n" ++
      "\"log level\" = [\x7bsince = 2024-02-29, rate = 0.5\x7d, true]\n\nport=0" ∧
    ofDocument sheet.text = .error (.invalid ⟨.port, .portZero⟩) := by
  let s : Settings := { port := 0, waitTimeout := 0 }
  have hvalue (f : Field) (h : s.Fits f) : ReadsValue (s.valueText f).toList fun _ => True :=
    (readsValue_valueText h).mono fun _ _ => trivial
  have hbasic : ∀ c ∈ "log level".toList, Cursor.isBasic c = true :=
    List.all_eq_true.mp (by decide)
  have hquoted : IsKey "\"log level\"".toList "log level" :=
    show IsKey ('"' :: ("log level".toList ++ ['"'])) _ from isKey_quoted hbasic
  let wait : Pair := ⟨_, _, _, isKey_name .waitTimeout, hvalue .waitTimeout (Nat.zero_le _)⟩
  let level : Pair := ⟨_, _, _, hquoted, written_levels.readsValue (by decide)⟩
  let port : Pair := ⟨_, _, _, isKey_name .port, hvalue .port trivial⟩
  have hcomment (text : String) (h : text.toList.all isPlain = true) :
      IsComment ('#' :: text.toList) :=
    .inr ⟨_, rfl, List.all_eq_true.mp h⟩
  let sheet : Sheet := {
    rows := [
      ({ comment := _, isComment := hcomment " for tests" (by decide) }, .feed),
      ({ indent := [' ', ' '], pair? := some wait, before := [' '], behind := [' '],
         trail := ['\t'], comment := _, isComment := hcomment " soon" (by decide),
         isGap := by simp [IsGap, isSpace] }, .returnFeed),
      ({ pair? := some level, before := [' '], behind := [' '], isGap := by simp [IsGap, isSpace] },
        .feed),
      ({}, .feed)]
    last := { pair? := some port } }
  have hpairs : sheet.pairs = [wait, level, port] := rfl
  have hlevel : Field.ofName? level.name = none :=
    show Field.ofName? "log level" = none by decide
  have htold : s.ToldBy sheet.pairs := by
    intro p hp f hf
    rw [hpairs] at hp
    obtain rfl | rfl | rfl : p = wait ∨ p = level ∨ p = port := by simpa using hp
    · obtain rfl := Option.some.inj ((Field.ofName?_name .waitTimeout).symm.trans hf)
      exact ⟨rfl, Nat.zero_le _⟩
    · cases hlevel.symm.trans hf
    · obtain rfl := Option.some.inj ((Field.ofName?_name .port).symm.trans hf)
      exact ⟨rfl, trivial⟩
  have hnodup : (sheet.pairs.map Pair.name).Nodup := by
    rw [hpairs]
    exact show ["wait_timeout_ms", "log level", "port"].Nodup by decide
  obtain ⟨t, hagree, hread⟩ := ofDocument_sheet s sheet hnodup htold
  have hgiven : Field.given sheet.pairs = [.waitTimeout, .port] := by
    rw [hpairs]
    simp [Field.given, wait, port, hlevel, Field.ofName?_name]
  have ht : t = s := by
    apply Field.eq_of_agree
    intro f
    have := hagree f
    rw [hgiven] at this
    cases f <;> exact this
  have hzero (f : Field) (h : s.valueText f = decimal 0) : (s.valueText f).toList = ['0'] := by
    simp [h, decimal, digits, digitChar]
  have htext : sheet.text = "# for tests\n  wait_timeout_ms = 0\t# soon\r\n" ++
      "\"log level\" = [\x7bsince = 2024-02-29, rate = 0.5\x7d, true]\n\nport=0" := by
    apply String.toList_inj.mp
    simp [sheet, Sheet.text, Row.chars, Row.body, LineBreak.chars, wait, level, port, Field.name,
      hzero .waitTimeout rfl, hzero .port rfl]
  refine ⟨sheet, htext, ?_⟩
  rw [hread, ht]
  rfl

end Settings

end LoopbackLock
