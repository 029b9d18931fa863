import LoopbackLock.Text.Utf8
import Mathlib.Tactic.SplitIfs

/-!
# Strict decoding is the inverse of encoding

`decode?` accepts a byte string exactly if it is the encoding of some characters, and gives these
characters (`decode?_eq_some_iff`). Both directions go item by item: the encoding of a character is
one item whatever follows it, and an item that is a character has the bytes of its encoding.
-/

namespace LoopbackLock.Text

theorem toNat_ofNat_of_isValidChar {n : Nat} (h : n.isValidChar) : (Char.ofNat n).toNat = n := by
  rw [Char.ofNat, dif_pos h]
  rfl

theorem isValidChar_toNat (c : Char) : c.toNat.isValidChar := c.valid

/-! ## What a lead byte may be -/

/-- What is known of the form that a lead byte opens; `more` tells how many bytes follow the
second. The bounds on the second byte are those that keep the value of three bytes above the
values of two and outside the surrogates, and that of four bytes above those of three and in the
range of Unicode. -/
def Form.Opens (f : Form) (lead : Nat) : Prop :=
  0x80 ≤ f.least ∧ f.greatest ≤ 0xBF ∧
    (f.more = 0 ∧ 0xC2 ≤ lead ∧ lead ≤ 0xDF ∧ f.bits = lead - 0xC0 ∨
     f.more = 1 ∧ 0xE0 ≤ lead ∧ lead ≤ 0xEF ∧ f.bits = lead - 0xE0 ∧
      (0xE0 < lead ∨ 0xA0 ≤ f.least) ∧ (lead ≠ 0xED ∨ f.greatest ≤ 0x9F) ∨
     f.more = 2 ∧ 0xF0 ≤ lead ∧ lead ≤ 0xF4 ∧ f.bits = lead - 0xF0 ∧
      (0xF0 < lead ∨ 0x90 ≤ f.least) ∧ (lead < 0xF4 ∨ f.greatest ≤ 0x8F))

theorem opens_of_form? {lead : Nat} {f : Form} (h : form? lead = some f) : f.Opens lead := by
  unfold form? at h
  split_ifs at h
  all_goals
    obtain rfl := Option.some.inj h
    unfold Form.Opens
    dsimp only
    omega

/-! ## One character -/

theorem continuation_zero (value : Nat) (bs : Bytes) : continuation 0 value bs = (some value, bs) :=
  rfl

theorem continuation_cons {n value : Nat} {b : UInt8} (h : 0x80 ≤ b.toNat ∧ b.toNat ≤ 0xBF)
    (bs : Bytes) :
    continuation (n + 1) value (b :: bs) = continuation n (value * 64 + b.toNat % 64) bs := by
  rw [continuation, if_pos h]

theorem eq_cons_of_continuation {n value w : Nat} {bs rest : Bytes}
    (h : continuation (n + 1) value bs = (some w, rest)) :
    ∃ b bs', bs = b :: bs' ∧ (0x80 ≤ b.toNat ∧ b.toNat ≤ 0xBF) ∧
      continuation n (value * 64 + b.toNat % 64) bs' = (some w, rest) := by
  cases bs with
  | nil => simp [continuation] at h
  | cons b bs =>
    rw [continuation] at h
    split at h
    · exact ⟨b, bs, rfl, ‹_›, h⟩
    · simp at h

/-- An item of several bytes, from the form of its lead byte. -/
theorem item_of_form {b c : UInt8} {f : Form} (hb : 0x80 ≤ b.toNat) (hf : form? b.toNat = some f)
    (hc : f.least ≤ c.toNat ∧ c.toNat ≤ f.greatest) (cs : Bytes) :
    item b (c :: cs) =
      ((continuation f.more (f.bits * 64 + c.toNat % 64) cs).1.map Char.ofNat,
        (continuation f.more (f.bits * 64 + c.toNat % 64) cs).2) := by
  simp only [item, Nat.not_lt.mpr hb, if_false, hf, hc, and_self, if_true]

/-- A byte that may follow a lead byte, of which no more is asked. -/
def IsTail (b : UInt8) : Prop := 0x80 ≤ b.toNat ∧ b.toNat ≤ 0xBF

variable {b₁ b₂ b₃ b₄ : UInt8}

theorem item_two (h : 0xC2 ≤ b₁.toNat ∧ b₁.toNat ≤ 0xDF) (h₂ : IsTail b₂) (rest : Bytes) :
    item b₁ (b₂ :: rest) =
      (some (Char.ofNat ((b₁.toNat - 0xC0) * 64 + b₂.toNat % 64)), rest) := by
  unfold IsTail at h₂
  have hf : form? b₁.toNat = some ⟨b₁.toNat - 0xC0, 0x80, 0xBF, 0⟩ := by
    unfold form?
    rw [if_neg (by omega), if_pos h.2]
  rw [item_of_form (by omega) hf h₂]
  rfl

/-- The second byte of three keeps the value above the values of two bytes and outside the
surrogates. -/
theorem item_three (h : 0xE0 ≤ b₁.toNat ∧ b₁.toNat ≤ 0xEF) (h₂ : IsTail b₂) (h₃ : IsTail b₃)
    (hlow : 0xE0 < b₁.toNat ∨ 0xA0 ≤ b₂.toNat) (hgap : b₁.toNat ≠ 0xED ∨ b₂.toNat ≤ 0x9F)
    (rest : Bytes) :
    item b₁ (b₂ :: b₃ :: rest) = (some (Char.ofNat
      (((b₁.toNat - 0xE0) * 64 + b₂.toNat % 64) * 64 + b₃.toNat % 64)), rest) := by
  unfold IsTail at h₂
  obtain ⟨f, hf, hbits, hc, hmore⟩ : ∃ f, form? b₁.toNat = some f ∧ f.bits = b₁.toNat - 0xE0 ∧
      (f.least ≤ b₂.toNat ∧ b₂.toNat ≤ f.greatest) ∧ f.more = 1 := by
    unfold form?
    rw [if_neg (by omega), if_neg (by omega)]
    by_cases hzero : b₁.toNat = 0xE0
    · have hs : 0xA0 ≤ b₂.toNat := by omega
      rw [if_pos hzero]
      exact ⟨_, rfl, by rw [hzero], ⟨hs, h₂.2⟩, rfl⟩
    rw [if_neg hzero]
    by_cases hlast : b₁.toNat = 0xED
    · have hs : b₂.toNat ≤ 0x9F := by omega
      rw [if_pos hlast]
      exact ⟨_, rfl, by rw [hlast], ⟨h₂.1, hs⟩, rfl⟩
    rw [if_neg hlast, if_pos h.2]
    exact ⟨_, rfl, rfl, h₂, rfl⟩
  rw [item_of_form (by omega) hf hc, hmore, hbits, continuation_cons h₃]
  rfl

/-- The second byte of four keeps the value above the values of three bytes and in the range of
Unicode. -/
theorem item_four (h : 0xF0 ≤ b₁.toNat ∧ b₁.toNat ≤ 0xF4) (h₂ : IsTail b₂) (h₃ : IsTail b₃)
    (h₄ : IsTail b₄) (hlow : 0xF0 < b₁.toNat ∨ 0x90 ≤ b₂.toNat)
    (htop : b₁.toNat < 0xF4 ∨ b₂.toNat ≤ 0x8F) (rest : Bytes) :
    item b₁ (b₂ :: b₃ :: b₄ :: rest) = (some (Char.ofNat
      ((((b₁.toNat - 0xF0) * 64 + b₂.toNat % 64) * 64 + b₃.toNat % 64) * 64 + b₄.toNat % 64)),
      rest) := by
  unfold IsTail at h₂
  obtain ⟨f, hf, hbits, hc, hmore⟩ : ∃ f, form? b₁.toNat = some f ∧ f.bits = b₁.toNat - 0xF0 ∧
      (f.least ≤ b₂.toNat ∧ b₂.toNat ≤ f.greatest) ∧ f.more = 2 := by
    unfold form?
    rw [if_neg (by omega), if_neg (by omega), if_neg (by omega), if_neg (by omega),
      if_neg (by omega)]
    by_cases hzero : b₁.toNat = 0xF0
    · have hs : 0x90 ≤ b₂.toNat := by omega
      rw [if_pos hzero]
      exact ⟨_, rfl, by rw [hzero], ⟨hs, h₂.2⟩, rfl⟩
    rw [if_neg hzero]
    by_cases hmid : b₁.toNat ≤ 0xF3
    · rw [if_pos hmid]
      exact ⟨_, rfl, rfl, h₂, rfl⟩
    have hlast : b₁.toNat = 0xF4 := by omega
    have hs : b₂.toNat ≤ 0x8F := by omega
    rw [if_neg hmid, if_pos hlast]
    exact ⟨_, rfl, by rw [hlast], ⟨h₂.1, hs⟩, rfl⟩
  rw [item_of_form (by omega) hf hc, hmore, hbits, continuation_cons h₃, continuation_cons h₄]
  rfl

/-! ## The bytes of a character -/

variable {c : Char}

theorem toNat_ofNat_byte {n m : Nat} (h : n < 256) (hm : n = m) : (UInt8.ofNat n).toNat = m := by
  rw [UInt8.toNat_ofNat', Nat.mod_eq_of_lt h, hm]

theorem encodeChar_one (h : c.toNat < 0x80) :
    ∃ b : UInt8, String.utf8EncodeChar c = [b] ∧ b.toNat = c.toNat := by
  refine ⟨UInt8.ofNat c.toNat, ?_, toNat_ofNat_byte (by omega) rfl⟩
  have hv : c.val.toNat ≤ 127 := Nat.le_of_lt_succ h
  unfold String.utf8EncodeChar
  dsimp only
  rw [if_pos hv]
  rfl

theorem encodeChar_two (h : 0x80 ≤ c.toNat) (h' : c.toNat < 0x800) :
    ∃ b₁ b₂ : UInt8, String.utf8EncodeChar c = [b₁, b₂] ∧ b₁.toNat = c.toNat / 64 + 0xC0 ∧
      b₂.toNat = c.toNat % 64 + 0x80 := by
  refine ⟨UInt8.ofNat (c.toNat / 64 % 32 + 192), UInt8.ofNat (c.toNat % 64 + 128), ?_, ?_, ?_⟩
  · have hv : c.val.toNat = c.toNat := rfl
    unfold String.utf8EncodeChar
    dsimp only
    rw [hv, if_neg (by omega), if_pos (by omega)]
  · exact toNat_ofNat_byte (by omega) (by omega)
  · exact toNat_ofNat_byte (by omega) (by omega)

theorem encodeChar_three (h : 0x800 ≤ c.toNat) (h' : c.toNat < 0x10000) :
    ∃ b₁ b₂ b₃ : UInt8, String.utf8EncodeChar c = [b₁, b₂, b₃] ∧
      b₁.toNat = c.toNat / 4096 + 0xE0 ∧ b₂.toNat = c.toNat / 64 % 64 + 0x80 ∧
      b₃.toNat = c.toNat % 64 + 0x80 := by
  refine ⟨UInt8.ofNat (c.toNat / 4096 % 16 + 224), UInt8.ofNat (c.toNat / 64 % 64 + 128),
    UInt8.ofNat (c.toNat % 64 + 128), ?_, ?_, ?_, ?_⟩
  · have hv : c.val.toNat = c.toNat := rfl
    unfold String.utf8EncodeChar
    dsimp only
    rw [hv, if_neg (by omega), if_neg (by omega), if_pos (by omega)]
  · exact toNat_ofNat_byte (by omega) (by omega)
  · exact toNat_ofNat_byte (by omega) (by omega)
  · exact toNat_ofNat_byte (by omega) (by omega)

theorem encodeChar_four (h : 0x10000 ≤ c.toNat) :
    ∃ b₁ b₂ b₃ b₄ : UInt8, String.utf8EncodeChar c = [b₁, b₂, b₃, b₄] ∧
      b₁.toNat = c.toNat / 262144 + 0xF0 ∧ b₂.toNat = c.toNat / 4096 % 64 + 0x80 ∧
      b₃.toNat = c.toNat / 64 % 64 + 0x80 ∧ b₄.toNat = c.toNat % 64 + 0x80 := by
  have hvalid := isValidChar_toNat c
  unfold Nat.isValidChar at hvalid
  refine ⟨UInt8.ofNat (c.toNat / 262144 % 8 + 240), UInt8.ofNat (c.toNat / 4096 % 64 + 128),
    UInt8.ofNat (c.toNat / 64 % 64 + 128), UInt8.ofNat (c.toNat % 64 + 128), ?_, ?_, ?_, ?_, ?_⟩
  · have hv : c.val.toNat = c.toNat := rfl
    unfold String.utf8EncodeChar
    dsimp only
    rw [hv, if_neg (by omega), if_neg (by omega), if_neg (by omega)]
  · exact toNat_ofNat_byte (by omega) (by omega)
  · exact toNat_ofNat_byte (by omega) (by omega)
  · exact toNat_ofNat_byte (by omega) (by omega)
  · exact toNat_ofNat_byte (by omega) (by omega)

/-! ## An item and the bytes of its character -/

theorem items_of_item {b : UInt8} {bs rest : Bytes} (h : item b bs = (some c, rest)) :
    items (b :: bs) = some c :: items rest := by
  rw [items, h]

/-- The encoding of a character is one item. -/
theorem items_encodeChar (c : Char) (rest : Bytes) :
    items (String.utf8EncodeChar c ++ rest) = some c :: items rest := by
  have hvalid := isValidChar_toNat c
  unfold Nat.isValidChar at hvalid
  by_cases h1 : c.toNat < 0x80
  · obtain ⟨b, henc, hb⟩ := encodeChar_one h1
    rw [henc, List.singleton_append, items_cons_ascii (by omega), hb, Char.ofNat_toNat]
  by_cases h2 : c.toNat < 0x800
  · obtain ⟨b₁, b₂, henc, hb₁, hb₂⟩ := encodeChar_two (by omega) h2
    have hvalue : (b₁.toNat - 0xC0) * 64 + b₂.toNat % 64 = c.toNat := by omega
    have hitem : item b₁ (b₂ :: rest) = _ := item_two (by omega) (by unfold IsTail; omega) rest
    rw [hvalue, Char.ofNat_toNat] at hitem
    rw [henc]
    exact items_of_item hitem
  by_cases h3 : c.toNat < 0x10000
  · obtain ⟨b₁, b₂, b₃, henc, hb₁, hb₂, hb₃⟩ := encodeChar_three (by omega) h3
    have hvalue : ((b₁.toNat - 0xE0) * 64 + b₂.toNat % 64) * 64 + b₃.toNat % 64 = c.toNat := by
      omega
    have hitem : item b₁ (b₂ :: b₃ :: rest) = _ :=
      item_three (by omega) (by unfold IsTail; omega) (by unfold IsTail; omega) (by omega)
        (by omega) rest
    rw [hvalue, Char.ofNat_toNat] at hitem
    rw [henc]
    exact items_of_item hitem
  · obtain ⟨b₁, b₂, b₃, b₄, henc, hb₁, hb₂, hb₃, hb₄⟩ := encodeChar_four (c := c) (by omega)
    have hvalue : (((b₁.toNat - 0xF0) * 64 + b₂.toNat % 64) * 64 + b₃.toNat % 64) * 64 +
        b₄.toNat % 64 = c.toNat := by omega
    have hitem : item b₁ (b₂ :: b₃ :: b₄ :: rest) = _ :=
      item_four (by omega) (by unfold IsTail; omega) (by unfold IsTail; omega)
        (by unfold IsTail; omega) (by omega) (by omega) rest
    rw [hvalue, Char.ofNat_toNat] at hitem
    rw [henc]
    exact items_of_item hitem

theorem encodeChar_of_two (h : 0xC2 ≤ b₁.toNat ∧ b₁.toNat ≤ 0xDF) (h₂ : IsTail b₂) :
    String.utf8EncodeChar (Char.ofNat ((b₁.toNat - 0xC0) * 64 + b₂.toNat % 64)) = [b₁, b₂] := by
  unfold IsTail at h₂
  generalize hn : (b₁.toNat - 0xC0) * 64 + b₂.toNat % 64 = n
  have hc := toNat_ofNat_of_isValidChar (n := n) (.inl (by omega))
  obtain ⟨a₁, a₂, henc, ha₁, ha₂⟩ := encodeChar_two (c := Char.ofNat n) (by omega) (by omega)
  rw [hc] at ha₁ ha₂
  obtain rfl : b₁ = a₁ := UInt8.toNat_inj.mp (by omega)
  obtain rfl : b₂ = a₂ := UInt8.toNat_inj.mp (by omega)
  exact henc

theorem encodeChar_of_three (h : 0xE0 ≤ b₁.toNat ∧ b₁.toNat ≤ 0xEF) (h₂ : IsTail b₂)
    (h₃ : IsTail b₃) (hlow : 0xE0 < b₁.toNat ∨ 0xA0 ≤ b₂.toNat)
    (hgap : b₁.toNat ≠ 0xED ∨ b₂.toNat ≤ 0x9F) :
    String.utf8EncodeChar (Char.ofNat
      (((b₁.toNat - 0xE0) * 64 + b₂.toNat % 64) * 64 + b₃.toNat % 64)) = [b₁, b₂, b₃] := by
  unfold IsTail at h₂ h₃
  generalize hn : ((b₁.toNat - 0xE0) * 64 + b₂.toNat % 64) * 64 + b₃.toNat % 64 = n
  have hlow' : 0x800 ≤ n := by omega
  have hvalid : n < 0xD800 ∨ 0xDFFF < n := by omega
  have hhigh : n < 0x10000 := by omega
  have hc := toNat_ofNat_of_isValidChar (n := n) (hvalid.imp_right fun h => ⟨h, by omega⟩)
  obtain ⟨a₁, a₂, a₃, henc, ha₁, ha₂, ha₃⟩ :=
    encodeChar_three (c := Char.ofNat n) (by omega) (by omega)
  rw [hc] at ha₁ ha₂ ha₃
  obtain rfl : b₁ = a₁ := UInt8.toNat_inj.mp (by omega)
  obtain rfl : b₂ = a₂ := UInt8.toNat_inj.mp (by omega)
  obtain rfl : b₃ = a₃ := UInt8.toNat_inj.mp (by omega)
  exact henc

theorem encodeChar_of_four (h : 0xF0 ≤ b₁.toNat ∧ b₁.toNat ≤ 0xF4) (h₂ : IsTail b₂)
    (h₃ : IsTail b₃) (h₄ : IsTail b₄) (hlow : 0xF0 < b₁.toNat ∨ 0x90 ≤ b₂.toNat)
    (htop : b₁.toNat < 0xF4 ∨ b₂.toNat ≤ 0x8F) :
    String.utf8EncodeChar (Char.ofNat
      ((((b₁.toNat - 0xF0) * 64 + b₂.toNat % 64) * 64 + b₃.toNat % 64) * 64 + b₄.toNat % 64)) =
      [b₁, b₂, b₃, b₄] := by
  unfold IsTail at h₂ h₃ h₄
  generalize hn : (((b₁.toNat - 0xF0) * 64 + b₂.toNat % 64) * 64 + b₃.toNat % 64) * 64 +
    b₄.toNat % 64 = n
  have hlow' : 0x10000 ≤ n := by omega
  have hhigh : n < 0x110000 := by omega
  have hc := toNat_ofNat_of_isValidChar (n := n) (.inr ⟨by omega, hhigh⟩)
  obtain ⟨a₁, a₂, a₃, a₄, henc, ha₁, ha₂, ha₃, ha₄⟩ := encodeChar_four (c := Char.ofNat n) (by omega)
  rw [hc] at ha₁ ha₂ ha₃ ha₄
  obtain rfl : b₁ = a₁ := UInt8.toNat_inj.mp (by omega)
  obtain rfl : b₂ = a₂ := UInt8.toNat_inj.mp (by omega)
  obtain rfl : b₃ = a₃ := UInt8.toNat_inj.mp (by omega)
  obtain rfl : b₄ = a₄ := UInt8.toNat_inj.mp (by omega)
  exact henc

/-- An item that is a character has the bytes of its encoding. -/
theorem eq_encodeChar_of_item {b : UInt8} {bs rest : Bytes} (h : item b bs = (some c, rest)) :
    b :: bs = String.utf8EncodeChar c ++ rest := by
  unfold item at h
  split at h
  · rename_i hascii
    obtain ⟨hc, rfl⟩ := Prod.mk.inj h
    obtain rfl := Option.some.inj hc
    have hn := toNat_ofNat_of_isValidChar (n := b.toNat) (.inl (by omega))
    obtain ⟨b', henc, hb'⟩ := encodeChar_one (c := Char.ofNat b.toNat) (by omega)
    obtain rfl : b' = b := UInt8.toNat_inj.mp (hb'.trans hn)
    rw [henc]
    rfl
  · split at h
    rotate_left
    · simp at h
    rename_i f b₂ cs hf
    split at h
    · rename_i hrange
      obtain ⟨hc, hrest⟩ := Prod.mk.inj h
      obtain ⟨value, hvalue, rfl⟩ := Option.map_eq_some_iff.mp hc
      have hcont := Prod.ext (y := (some value, rest)) hvalue hrest
      obtain ⟨hleast, hgreatest, hform⟩ := opens_of_form? hf
      have h₂ : IsTail b₂ := ⟨Nat.le_trans hleast hrange.1, Nat.le_trans hrange.2 hgreatest⟩
      obtain ⟨hmore, hlo, hhi, hbits⟩ | ⟨hmore, hlo, hhi, hbits, hlow, hgap⟩ |
        ⟨hmore, hlo, hhi, hbits, hlow, htop⟩ := hform
      · rw [hmore, hbits, continuation_zero] at hcont
        obtain ⟨hv, rfl⟩ := Prod.mk.inj hcont
        obtain rfl := Option.some.inj hv
        rw [encodeChar_of_two ⟨hlo, hhi⟩ h₂]
        rfl
      · rw [hmore, hbits] at hcont
        obtain ⟨b₃, cs, rfl, h₃, hcont⟩ := eq_cons_of_continuation hcont
        rw [continuation_zero] at hcont
        obtain ⟨hv, rfl⟩ := Prod.mk.inj hcont
        obtain rfl := Option.some.inj hv
        rw [encodeChar_of_three ⟨hlo, hhi⟩ h₂ h₃ (hlow.imp_right (Nat.le_trans · hrange.1))
          (hgap.imp_right (Nat.le_trans hrange.2))]
        rfl
      · rw [hmore, hbits] at hcont
        obtain ⟨b₃, cs, rfl, h₃, hcont⟩ := eq_cons_of_continuation hcont
        obtain ⟨b₄, cs, rfl, h₄, hcont⟩ := eq_cons_of_continuation hcont
        rw [continuation_zero] at hcont
        obtain ⟨hv, rfl⟩ := Prod.mk.inj hcont
        obtain rfl := Option.some.inj hv
        rw [encodeChar_of_four ⟨hlo, hhi⟩ h₂ h₃ h₄ (hlow.imp_right (Nat.le_trans · hrange.1))
          (htop.imp_right (Nat.le_trans hrange.2))]
        rfl
    · simp at h

/-! ## All characters -/

theorem decode?_cons (b : UInt8) (bs : Bytes) :
    decode? (b :: bs) = (item b bs).1.bind fun c => (decode? (item b bs).2).map (c :: ·) := by
  rw [decode?, items, List.mapM_cons]
  cases (item b bs).1 with
  | none => rfl
  | some c =>
    rw [Option.bind_some, Option.map_eq_bind]
    rfl

/-- A byte string is accepted exactly if it encodes characters, and these are what it gives. -/
theorem decode?_eq_some_iff {bs : Bytes} {cs : List Char} :
    decode? bs = some cs ↔ bs = cs.flatMap String.utf8EncodeChar := by
  constructor
  · intro h
    induction cs generalizing bs with
    | nil =>
      cases bs with
      | nil => rfl
      | cons b bs =>
        rw [decode?_cons] at h
        obtain ⟨c, -, hc⟩ := Option.bind_eq_some_iff.mp h
        simp at hc
    | cons c cs ih =>
      cases bs with
      | nil => simp [decode?, items] at h
      | cons b bs =>
        rw [decode?_cons] at h
        obtain ⟨d, hd, hc⟩ := Option.bind_eq_some_iff.mp h
        obtain ⟨cs', hcs', heq⟩ := Option.map_eq_some_iff.mp hc
        obtain ⟨rfl, rfl⟩ := List.cons_eq_cons.mp heq
        rw [List.flatMap_cons, ← ih hcs']
        exact eq_encodeChar_of_item (Prod.ext hd rfl)
  · rintro rfl
    induction cs with
    | nil => simp [decode?, items]
    | cons c cs ih =>
      rw [decode?] at ih
      simp [decode?, items_encodeChar, ih]

theorem encode_eq (s : String) : encode s = s.toList.flatMap String.utf8EncodeChar := by
  have h : encode (String.ofList s.toList) = s.toList.flatMap String.utf8EncodeChar :=
    List.toList_data_toByteArray
  rwa [String.ofList_toList] at h

/-- A byte string is accepted exactly if it is the encoding of a text. -/
theorem decode?_eq_some_iff_encode {bs : Bytes} {s : String} :
    decode? bs = some s.toList ↔ bs = encode s := by
  rw [decode?_eq_some_iff, encode_eq]

end LoopbackLock.Text
