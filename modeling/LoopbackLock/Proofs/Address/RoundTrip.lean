import LoopbackLock.Address.Reader
import LoopbackLock.Address.Written
import LoopbackLock.Proofs.Text.Numeral

/-!
# What is written of an address reads back

Every address has a text, and the text is read as that address (`parse?_text`). A dotted address is
read octet by octet. Of an IPv6 address the groups before the double colon are read first, where
the reader has to find out that no dotted address ends them; the zeros that the double colon stands
for are as many as the groups around it leave out. The text of an IPv6 address is never taken for
an IPv4 address, since no point comes before its first colon.
-/

namespace LoopbackLock.Host

open Text

/-! ## Octets and groups -/

theorem group_octets (g : UInt16) : group (octets g).1 (octets g).2 = g := by
  apply UInt16.toNat_inj.mp
  have h := g.toNat_lt
  simp [group, octets]
  omega

/-- A mapped address is its two last groups behind five zeros and a mark. -/
theorem toList_of_mapped? {groups : Vector UInt16 8} {h : Host} (hm : mapped? groups = some h) :
    ∃ a b c d, h = v4 a b c d ∧
      groups.toList = [0, 0, 0, 0, 0, 0xFFFF, group a b, group c d] := by
  unfold mapped? at hm
  split at hm
  · rename_i g k hl
    refine ⟨(octets g).1, (octets g).2, (octets k).1, (octets k).2, (Option.some.inj hm).symm, ?_⟩
    rw [hl, group_octets, group_octets]
  · cases hm

theorem ofGroups?_toList (groups : Vector UInt16 8) : ofGroups? groups.toList = some (v6 groups) := by
  simp only [ofGroups?, Vector.length_toList, dif_pos, Option.some.injEq, v6.injEq]
  rfl

/-! ## Numbers with something behind them -/

/-- A number of few enough digits reads back, up to the character behind it. -/
theorem readNumber_digits {radix k n : Nat} (h2 : 2 ≤ radix) (h16 : radix ≤ 16)
    (hn : n < radix ^ (k + 1)) {rest : List Char} (hr : Stops radix rest) :
    readNumber radix (k + 1) (digits radix n ++ rest) = some (n, rest) := by
  have hlen := length_digits_le h2 hn
  simp [readNumber, takeWhile_digits h2 h16 hr, digits_ne_nil, ofDigits_digits h2 h16,
    Nat.not_lt.mpr hlen]

theorem readNumber_of_stops {radix width : Nat} {cs : List Char} (h : Stops radix cs) :
    readNumber radix width cs = none := by
  cases cs with
  | nil => simp [readNumber]
  | cons c cs => simp [readNumber, h c (by simp)]

theorem readOctet_digits (o : UInt8) {rest : List Char} (hr : Stops 10 rest) :
    readOctet (digits 10 o.toNat ++ rest) = some (o, rest) := by
  have ho := o.toNat_lt
  have hzero : ((digits 10 o.toNat ++ rest).head? == some '0' &&
      decide (1 < (digits 10 o.toNat ++ rest).length - rest.length)) = false := by
    by_cases h : o.toNat = 0
    · simp [h, digits_of_lt]
    · have : (digits 10 o.toNat).head? ≠ some '0' :=
        head?_digits_ne_zero (by omega) (by omega) (Nat.pos_of_ne_zero h)
      obtain ⟨d, ds, hd⟩ := List.exists_cons_of_ne_nil (digits_ne_nil 10 o.toNat)
      rw [hd] at this ⊢
      simp_all
  have hn : readNumber 10 3 (digits 10 o.toNat ++ rest) = some (o.toNat, rest) :=
    readNumber_digits (by omega) (by omega) (by omega) hr
  have hrange : ¬255 < o.toNat := by omega
  simp only [readOctet, hn, hzero, hrange, decide_false, Bool.or_false, Bool.false_eq_true, if_false]
  simp

theorem readOctet_of_stops {cs : List Char} (h : Stops 10 cs) : readOctet cs = none := by
  simp [readOctet, readNumber_of_stops h]

/-! ## Dotted addresses -/

@[simp] theorem expect_cons (c : Char) (cs : List Char) : expect c (c :: cs) = some cs := by
  simp [expect]

@[simp] theorem expect_nil (c : Char) : expect c [] = none := rfl

theorem expect_of_ne {c d : Char} (h : c ≠ d) (cs : List Char) : expect c (d :: cs) = none := by
  simp [expect, h]

theorem mem_of_expect {c : Char} {cs rest : List Char} (h : expect c cs = some rest) : c ∈ cs := by
  cases cs with
  | nil => cases h
  | cons d cs =>
    by_cases hd : c = d
    · simp [hd]
    · simp [expect_of_ne hd] at h

theorem stops_point (cs : List Char) : Stops 10 ('.' :: cs) := stops_cons (by decide)

theorem dotted_eq (a b c d : UInt8) :
    dotted a b c d = digits 10 a.toNat ++ '.' :: (digits 10 b.toNat ++ '.' ::
      (digits 10 c.toNat ++ '.' :: digits 10 d.toNat)) := rfl

theorem readDotted_dotted (a b c d : UInt8) :
    readDotted (dotted a b c d) = some ((a, b, c, d), []) := by
  have hd := readOctet_digits d stops_nil
  rw [List.append_nil] at hd
  simp [readDotted, dotted_eq, readOctet_digits _ (stops_point _), hd]

/-- What starts with no digit is no dotted address. -/
theorem readDotted_of_stops {cs : List Char} (h : Stops 10 cs) : readDotted cs = none := by
  simp [readDotted, readOctet_of_stops h]

/-- What an octet leaves unread is an end of the text. -/
theorem suffix_of_readOctet {cs rest : List Char} {o : UInt8}
    (h : readOctet cs = some (o, rest)) : rest <:+ cs := by
  unfold readOctet at h
  split at h
  · rename_i n rest' hn
    split at h
    · cases h
    · obtain ⟨-, rfl⟩ := Prod.mk.inj (Option.some.inj h)
      unfold readNumber at hn
      dsimp only at hn
      split at hn
      · cases hn
      · obtain ⟨v, -, hv⟩ := Option.map_eq_some_iff.mp hn
        obtain ⟨-, rfl⟩ := Prod.mk.inj hv
        exact List.drop_suffix _ _
  · cases h

/-- A text without a point is no dotted address. -/
theorem readDotted_of_not_mem {cs : List Char} (h : '.' ∉ cs) : readDotted cs = none := by
  cases ho : readOctet cs with
  | none => simp [readDotted, ho]
  | some r =>
    obtain ⟨o, rest⟩ := r
    have he : expect '.' rest = none := by
      cases hmore : expect '.' rest with
      | none => rfl
      | some more => exact absurd ((suffix_of_readOctet ho).subset (mem_of_expect hmore)) h
    simp [readDotted, ho, he]

/-! ## Runs of groups -/

/-- Groups with a colon before each. -/
def colonGroups (gs : List UInt16) : List Char :=
  gs.flatMap fun g => ':' :: digits 16 g.toNat

theorem hexGroups_cons (g : UInt16) (gs : List UInt16) :
    hexGroups (g :: gs) = digits 16 g.toNat ++ colonGroups gs := by
  induction gs generalizing g with
  | nil => simp [hexGroups, joinWith, colonGroups]
  | cons g' gs ih =>
    have := ih g'
    simp only [hexGroups, List.map_cons, joinWith] at this ⊢
    simp [this, colonGroups]

/-- What may stand behind a run of groups: nothing, or a double colon. -/
def EndsGroups (rest : List Char) : Prop := rest = [] ∨ ∃ more, rest = ':' :: ':' :: more

theorem EndsGroups.stops {rest : List Char} (h : EndsGroups rest) {radix : Nat} :
    Stops radix rest := by
  have hcolon : digitOf? radix ':' = none := by
    have : digitValue? ':' = none := by decide
    simp [digitOf?, this]
  obtain rfl | ⟨more, rfl⟩ := h
  · exact stops_nil
  · exact stops_cons hcolon

theorem stops_colonGroups {gs : List UInt16} {rest : List Char} (h : EndsGroups rest) :
    Stops 16 (colonGroups gs ++ rest) := by
  cases gs with
  | nil => simpa [colonGroups] using h.stops
  | cons g gs => exact stops_cons (by decide)

/-- No group is read where a run of groups ends. -/
theorem readGroups_of_ends (limit : Nat) (first : Bool) {rest : List Char} (h : EndsGroups rest) :
    readGroups limit first rest = ⟨[], false, rest⟩ := by
  have hnone : readNumber 16 4 rest = none := readNumber_of_stops h.stops
  cases limit with
  | zero => rfl
  | succ limit =>
    obtain rfl | ⟨more, rfl⟩ := h
    · cases first <;> simp [readGroups, hnone, readDotted_of_stops stops_nil]
    · have hcolon : Stops 10 (':' :: more) := stops_cons (by decide)
      have hcolons : Stops 10 (':' :: ':' :: more) := stops_cons (by decide)
      have hgroup : readNumber 16 4 (':' :: more) = none :=
        readNumber_of_stops (stops_cons (by decide))
      cases first <;>
        simp [readGroups, hnone, hgroup, readDotted_of_stops hcolon, readDotted_of_stops hcolons]

/-- One group with more of the run behind it; `cs` is where it starts, before the colon if there is
one. -/
theorem readGroups_succ {limit : Nat} {first : Bool} {cs rest : List Char} {g : UInt16}
    (hcs : (if first then some cs else expect ':' cs) = some (digits 16 g.toNat ++ rest))
    (hpoint : '.' ∉ digits 16 g.toNat ++ rest) (hrest : Stops 16 rest) :
    readGroups (limit + 1) first cs =
      ⟨g :: (readGroups limit false rest).groups, (readGroups limit false rest).dotted,
        (readGroups limit false rest).rest⟩ := by
  have hdotted : (if 1 ≤ limit then readDotted (digits 16 g.toNat ++ rest) else none) = none := by
    simp [readDotted_of_not_mem hpoint]
  have hg : readNumber 16 4 (digits 16 g.toNat ++ rest) = some (g.toNat, rest) :=
    readNumber_digits (k := 3) (by omega) (by omega) g.toNat_lt hrest
  rw [readGroups, hcs]
  simp [hdotted, hg]

/-- Groups behind colons read back as far as the limit goes. -/
theorem readGroups_colonGroups {limit : Nat} {gs : List UInt16} {rest : List Char}
    (hl : gs.length ≤ limit) (hrest : EndsGroups rest) (hpoint : '.' ∉ colonGroups gs ++ rest) :
    readGroups limit false (colonGroups gs ++ rest) = ⟨gs, false, rest⟩ := by
  induction gs generalizing limit with
  | nil => exact readGroups_of_ends limit false hrest
  | cons g gs ih =>
    obtain ⟨limit, rfl⟩ : ∃ m, limit = m + 1 := Nat.exists_eq_succ_of_ne_zero (by simp at hl; omega)
    have hcons : colonGroups (g :: gs) ++ rest =
        ':' :: (digits 16 g.toNat ++ (colonGroups gs ++ rest)) := by simp [colonGroups]
    rw [hcons] at hpoint ⊢
    have htail : '.' ∉ digits 16 g.toNat ++ (colonGroups gs ++ rest) := by
      intro h
      exact hpoint (List.mem_cons_of_mem _ h)
    have hmore : '.' ∉ colonGroups gs ++ rest := by
      intro h
      exact htail (List.mem_append_right _ h)
    rw [readGroups_succ (by simp) htail (stops_colonGroups hrest),
      ih (by simpa using hl) hmore]

/-- A run of groups reads back as far as the limit goes. -/
theorem readGroups_hexGroups (limit : Nat) (gs : List UInt16) {rest : List Char}
    (hl : gs.length ≤ limit) (hrest : EndsGroups rest) (hpoint : '.' ∉ hexGroups gs ++ rest) :
    readGroups limit true (hexGroups gs ++ rest) = ⟨gs, false, rest⟩ := by
  cases gs with
  | nil => exact readGroups_of_ends limit true hrest
  | cons g gs =>
    obtain ⟨limit, rfl⟩ : ∃ m, limit = m + 1 := Nat.exists_eq_succ_of_ne_zero (by simp at hl; omega)
    rw [hexGroups_cons, List.append_assoc] at hpoint ⊢
    have hmore : '.' ∉ colonGroups gs ++ rest := by
      intro h
      exact hpoint (List.mem_append_right _ h)
    rw [readGroups_succ (by simp) hpoint (stops_colonGroups hrest),
      readGroups_colonGroups (by simpa using hl) hrest hmore]

/-! ## The run of zeros that is left out -/

theorem eq_replicate_leadingZeros (gs : List UInt16) :
    leadingZeros gs ≤ gs.length ∧
      gs = List.replicate (leadingZeros gs) 0 ++ gs.drop (leadingZeros gs) := by
  induction gs with
  | nil => simp [leadingZeros]
  | cons g gs ih =>
    by_cases h : g = 0
    · have hs : leadingZeros (g :: gs) = leadingZeros gs + 1 := by simp [leadingZeros, h]
      rw [hs, List.replicate_succ, List.drop_succ_cons, List.cons_append, ← ih.2]
      exact ⟨Nat.succ_le_succ ih.1, by rw [h]⟩
    · simp [leadingZeros, h]

/-- The run that `longestZeros` finds lies inside the list and has zeros only. -/
theorem eq_take_append_zeros (gs : List UInt16) :
    (longestZeros gs).1 + (longestZeros gs).2 ≤ gs.length ∧
      gs = gs.take (longestZeros gs).1 ++ List.replicate (longestZeros gs).2 0 ++
        gs.drop ((longestZeros gs).1 + (longestZeros gs).2) := by
  induction gs with
  | nil => simp [longestZeros]
  | cons g gs ih =>
    simp only [longestZeros]
    split
    · simpa using eq_replicate_leadingZeros (g :: gs)
    · have hadd : (longestZeros gs).1 + 1 + (longestZeros gs).2 =
          (longestZeros gs).1 + (longestZeros gs).2 + 1 := by omega
      refine ⟨by simp only [List.length_cons]; omega, ?_⟩
      simp only [hadd, List.take_succ_cons, List.drop_succ_cons, List.cons_append]
      rw [← ih.2]

/-! ## The whole text -/

theorem not_mem_hexGroups (gs : List UInt16) : '.' ∉ hexGroups gs := by
  have hdigits (g : UInt16) : '.' ∉ digits 16 g.toNat := by
    intro h
    have := isSome_digitOf?_of_mem_digits (by omega) (by omega) h
    simp [digitOf?, digitValue?] at this
  cases gs with
  | nil => simp [hexGroups, joinWith]
  | cons g gs =>
    rw [hexGroups_cons]
    simp [colonGroups, hdigits]

theorem not_mem_compressed (gs : List UInt16) : '.' ∉ compressed gs := by
  unfold compressed
  dsimp only
  split <;> simp [not_mem_hexGroups]

/-- Eight groups without a double colon read back. -/
theorem readV6_hexGroups {gs : List UInt16} (hlen : gs.length = 8) :
    readV6 (hexGroups gs) = (ofGroups? gs).map (·, []) := by
  have hread := readGroups_hexGroups 8 gs (by omega) (.inl rfl)
    (by simpa using not_mem_hexGroups gs)
  rw [List.append_nil] at hread
  cases hof : ofGroups? gs <;> simp [readV6, hread, hlen, hof]

/-- Groups around a double colon read back with as many zeros as are missing. There have to be two
zeros at least, so that the groups behind them do not fill the rest of the address. -/
theorem readV6_gap {front back : List UInt16} {len : Nat} (h2 : 2 ≤ len)
    (hlen : front.length + len + back.length = 8) :
    readV6 (hexGroups front ++ [':', ':'] ++ hexGroups back) =
      (ofGroups? (front ++ List.replicate len 0 ++ back)).map (·, []) := by
  have hsplit : hexGroups front ++ [':', ':'] ++ hexGroups back =
      hexGroups front ++ ':' :: ':' :: hexGroups back := by simp
  have hread := readGroups_hexGroups 8 front (by omega)
    (.inr ⟨hexGroups back, rfl⟩) (by simp [not_mem_hexGroups])
  have hback := readGroups_hexGroups (7 - front.length) back (by omega) (.inl rfl)
    (by simpa using not_mem_hexGroups back)
  rw [List.append_nil] at hback
  have hshort : front.length ≠ 8 := by omega
  have hgap : 8 - front.length - back.length = len := by omega
  rw [hsplit]
  cases hof : ofGroups? (front ++ (List.replicate len 0 ++ back)) <;>
    simp [readV6, hread, hback, hshort, hgap, hof]

/-- Eight groups read back, with or without a double colon. -/
theorem readV6_compressed (groups : Vector UInt16 8) :
    readV6 (compressed groups.toList) = some (v6 groups, []) := by
  have hlen : groups.toList.length = 8 := by simp
  have hof : (ofGroups? groups.toList).map (·, ([] : List Char)) = some (v6 groups, []) := by
    simp [ofGroups?_toList]
  obtain ⟨hin, hzeros⟩ := eq_take_append_zeros groups.toList
  unfold compressed
  dsimp only
  split
  · rename_i h2
    rw [readV6_gap h2 (by simp only [List.length_take, List.length_drop]; omega), ← hzeros, hof]
  · rw [readV6_hexGroups hlen, hof]

/-- The two last groups written as a dotted address read back. -/
theorem readGroups_dotted (a b c d : UInt8) :
    readGroups 7 true (digits 16 65535 ++ ':' :: dotted a b c d) =
      ⟨[0xFFFF, group a b, group c d], true, []⟩ := by
  have hlast : readGroups 6 false (':' :: dotted a b c d) = ⟨[group a b, group c d], true, []⟩ := by
    simp [readGroups, readDotted_dotted]
  have hg : readNumber 16 4 (digits 16 65535 ++ ':' :: dotted a b c d) =
      some (65535, ':' :: dotted a b c d) :=
    readNumber_digits (k := 3) (by omega) (by omega) (by omega) (stops_cons (by decide))
  have hdotted : readDotted (digits 16 65535 ++ ':' :: dotted a b c d) = none := by
    have hfive : digits 16 65535 = ['f', 'f', 'f', 'f'] := by simp [digits, digitChar]
    rw [hfive]
    exact readDotted_of_stops (stops_cons (by decide))
  rw [readGroups]
  simp [hdotted, hg, hlast]

/-- A mapped address reads back from its dotted form. -/
theorem readV6_mapped {groups : Vector UInt16 8} {a b c d : UInt8}
    (h : groups.toList = [0, 0, 0, 0, 0, 0xFFFF, group a b, group c d]) :
    readV6 ("::ffff:".toList ++ dotted a b c d) = some (v6 groups, []) := by
  have hmark : "::ffff:".toList ++ dotted a b c d =
      ':' :: ':' :: (digits 16 65535 ++ ':' :: dotted a b c d) := by simp [digits, digitChar]
  have hends : EndsGroups (':' :: ':' :: (digits 16 65535 ++ ':' :: dotted a b c d)) :=
    .inr ⟨_, rfl⟩
  have hof := ofGroups?_toList groups
  rw [h] at hof
  rw [hmark]
  simp [readV6, readGroups_of_ends 8 true hends, readGroups_dotted, hof, List.replicate]

/-- The text of an IPv6 address is not taken for an IPv4 address. -/
theorem readV4_chars (groups : Vector UInt16 8) : readV4 (chars (v6 groups)) = none := by
  have hdotted : readDotted (chars (v6 groups)) = none := by
    unfold chars
    dsimp only
    split
    · exact readDotted_of_stops (stops_cons (by decide))
    · exact readDotted_of_not_mem (not_mem_compressed _)
  simp [readV4, hdotted]

theorem text_toList (h : Host) : h.text.toList = h.chars := String.toList_ofList

/-- Every address is what its text says. -/
theorem parse?_text (h : Host) : parse? h.text = some h := by
  unfold parse?
  rw [text_toList]
  cases h with
  | v4 a b c d => simp [chars, readV4, readDotted_dotted]
  | v6 groups =>
    have hread : readV6 (chars (v6 groups)) = some (v6 groups, []) := by
      unfold chars
      dsimp only
      cases hm : mapped? groups with
      | none => exact readV6_compressed groups
      | some k =>
        obtain ⟨a, b, c, d, rfl, hg⟩ := toList_of_mapped? hm
        exact readV6_mapped hg
    simp [readV4_chars, hread]

/-! ## The characters of a text -/

/-- A character that the text of an address may have. -/
def isAddressChar (c : Char) : Bool := (digitOf? 16 c).isSome || c == '.' || c == ':'

theorem isAddressChar_of_mem_digits {radix n : Nat} (h2 : 2 ≤ radix) (h16 : radix ≤ 16) {c : Char}
    (hc : c ∈ digits radix n) : isAddressChar c = true := by
  have hsome := isSome_digitOf?_of_mem_digits h2 h16 hc
  have : (digitOf? 16 c).isSome := by
    obtain ⟨d, hd⟩ := Option.isSome_iff_exists.mp hsome
    obtain ⟨hv, hlt⟩ := Option.filter_eq_some_iff.mp hd
    have : d < 16 := by
      have := of_decide_eq_true hlt
      omega
    simp [digitOf?, hv, Option.filter, this]
  simp [isAddressChar, this]

theorem isAddressChar_of_mem_dotted {a b c d : UInt8} {x : Char} (hx : x ∈ dotted a b c d) :
    isAddressChar x = true := by
  have hdigits (o : UInt8) (h : x ∈ digits 10 o.toNat) : isAddressChar x = true :=
    isAddressChar_of_mem_digits (by omega) (by omega) h
  have hpoint : isAddressChar '.' = true := by decide
  rw [dotted_eq] at hx
  simp only [List.mem_append, List.mem_cons] at hx
  obtain h | rfl | h | rfl | h | rfl | h := hx
  · exact hdigits a h
  · exact hpoint
  · exact hdigits b h
  · exact hpoint
  · exact hdigits c h
  · exact hpoint
  · exact hdigits d h

theorem isAddressChar_of_mem_hexGroups {gs : List UInt16} {x : Char} (hx : x ∈ hexGroups gs) :
    isAddressChar x = true := by
  have hdigits (g : UInt16) (h : x ∈ digits 16 g.toNat) : isAddressChar x = true :=
    isAddressChar_of_mem_digits (by omega) (by omega) h
  cases gs with
  | nil => simp [hexGroups, joinWith] at hx
  | cons g gs =>
    rw [hexGroups_cons] at hx
    obtain h | h := List.mem_append.mp hx
    · exact hdigits g h
    · obtain ⟨g', -, h⟩ := List.mem_flatMap.mp h
      obtain rfl | h := List.mem_cons.mp h
      · decide
      · exact hdigits g' h

/-- The text of an address has digits, points and colons only. -/
theorem isAddressChar_of_mem_chars {h : Host} {x : Char} (hx : x ∈ h.chars) :
    isAddressChar x = true := by
  have hgap : ∀ c ∈ [':', ':'], isAddressChar c = true := List.all_eq_true.mp (by decide)
  have hmark : ∀ c ∈ "::ffff:".toList, isAddressChar c = true := List.all_eq_true.mp (by decide)
  unfold chars at hx
  split at hx
  · exact isAddressChar_of_mem_dotted hx
  · split at hx
    · obtain hx | hx := List.mem_append.mp hx
      · exact hmark x hx
      · exact isAddressChar_of_mem_dotted hx
    · unfold compressed at hx
      dsimp only at hx
      split at hx
      · simp only [List.mem_append] at hx
        obtain (hx | hx) | hx := hx
        · exact isAddressChar_of_mem_hexGroups hx
        · exact hgap x hx
        · exact isAddressChar_of_mem_hexGroups hx
      · exact isAddressChar_of_mem_hexGroups hx

/-- No text is empty, since the empty one reads as nothing. -/
theorem chars_ne_nil (h : Host) : h.chars ≠ [] := by
  intro hnil
  have hread := parse?_text h
  have hempty : readV6 [] = none := by
    simp [readV6, readGroups_of_ends 8 true (.inl rfl)]
  rw [parse?, text_toList, hnil, hempty] at hread
  simp [readV4, readDotted_of_stops stops_nil] at hread

end LoopbackLock.Host
