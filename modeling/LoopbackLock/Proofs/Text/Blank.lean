import LoopbackLock.Proofs.Text.Numeral
import LoopbackLock.Text.Blank

/-!
# Texts behind blanks, and numbers as they are read

Trimming a text takes the blanks around it away and nothing else (`trims_iff`). A number is read
exactly if it is written as one (`Denotes`): decimal digits after an optional plus sign, of any
length, whose value is in the range. The reader compares every beginning of the digits with the
limit; that is the same as comparing the value, since a beginning is never greater than the whole
(`le_valueFrom`).
-/

namespace LoopbackLock.Text

variable {p : Char → Bool} {cs ends : List Char} {text core : String}

/-! ## Trimming -/

/-- What is dropped at the end is of the class, and what stays does not end with one of it. -/
theorem dropEndWhile_spec (p : Char → Bool) (cs : List Char) :
    ∃ ends, cs = dropEndWhile p cs ++ ends ∧ (∀ c ∈ ends, p c = true) ∧
      ∀ c ∈ (dropEndWhile p cs).getLast?, p c = false := by
  refine ⟨(cs.reverse.takeWhile p).reverse, ?_, ?_, ?_⟩
  · rw [dropEndWhile, ← List.reverse_append, List.takeWhile_append_dropWhile, List.reverse_reverse]
  · intro c hc
    exact List.all_eq_true.mp (List.all_takeWhile ..) c (List.mem_reverse.mp hc)
  · intro c hc
    rw [dropEndWhile, List.getLast?_reverse] at hc
    have hfirst := List.head?_dropWhile_not p cs.reverse
    rw [Option.mem_def.mp hc] at hfirst
    exact hfirst

/-- A list that is cut where a class begins at its end is cut there by dropping. -/
theorem dropEndWhile_append (hends : ∀ c ∈ ends, p c = true)
    (hlast : ∀ c ∈ cs.getLast?, p c = false) : dropEndWhile p (cs ++ ends) = cs := by
  have hall : ∀ c ∈ ends.reverse, p c = true := fun c hc => hends c (List.mem_reverse.mp hc)
  rw [dropEndWhile, List.reverse_append, List.dropWhile_append_of_pos hall]
  rcases hcs : cs.reverse with _ | ⟨c, rest⟩
  · rw [List.reverse_eq_nil_iff.mp hcs]
    rfl
  · have hc : p c = false := hlast c (by rw [← List.head?_reverse, hcs]; rfl)
    rw [List.dropWhile_cons_of_neg (by simp [hc]), ← hcs, List.reverse_reverse]

/-- Blanks, perhaps none, stand around a text that neither begins nor ends with one. -/
def Trims (text core : String) : Prop :=
  ∃ pre post, text = pre ++ core ++ post ∧ isBlankText pre = true ∧ isBlankText post = true ∧
    (∀ c ∈ core.toList.head?, isBlank c = false) ∧ ∀ c ∈ core.toList.getLast?, isBlank c = false

theorem trims_trim (text : String) : Trims text (trim text) := by
  obtain ⟨ends, hcs, hends, hlast⟩ := dropEndWhile_spec isBlank (text.toList.dropWhile isBlank)
  have hcore : (trim text).toList = dropEndWhile isBlank (text.toList.dropWhile isBlank) :=
    String.toList_ofList
  refine ⟨.ofList (text.toList.takeWhile isBlank), .ofList ends, ?_, ?_, ?_, fun c hc => ?_, ?_⟩
  · apply String.toList_inj.mp
    rw [String.toList_append, String.toList_append, String.toList_ofList, String.toList_ofList,
      hcore, List.append_assoc, ← hcs, List.takeWhile_append_dropWhile]
  · rw [isBlankText, String.toList_ofList]
    exact List.all_takeWhile
  · rw [isBlankText, String.toList_ofList]
    exact List.all_eq_true.mpr hends
  · rw [hcore] at hc
    have hfirst : c ∈ (text.toList.dropWhile isBlank).head? := by
      rw [hcs, List.head?_append, Option.mem_def.mp hc]
      rfl
    have hnot := List.head?_dropWhile_not isBlank text.toList
    rw [Option.mem_def.mp hfirst] at hnot
    exact hnot
  · rwa [hcore]

/-- Trimming takes away the blanks at both ends, and nothing else. -/
theorem trims_iff : Trims text core ↔ trim text = core := by
  refine ⟨?_, fun h => h ▸ trims_trim text⟩
  rintro ⟨pre, post, rfl, hpre, hpost, hhead, hlast⟩
  have hpre : ∀ c ∈ pre.toList, isBlank c = true := List.all_eq_true.mp hpre
  have hpost : ∀ c ∈ post.toList, isBlank c = true := List.all_eq_true.mp hpost
  rw [trim, String.toList_append, String.toList_append, List.append_assoc,
    List.dropWhile_append_of_pos hpre]
  rcases hcore : core.toList with _ | ⟨c, cs⟩
  · have hnone : post.toList.dropWhile isBlank = [] := by
      have hall := @List.dropWhile_append_of_pos _ isBlank _ [] hpost
      rwa [List.append_nil] at hall
    rw [List.nil_append, hnone]
    exact String.toList_inj.mp (String.toList_ofList.trans hcore.symm)
  · have hc : isBlank c = false := hhead c (by rw [hcore]; rfl)
    rw [List.cons_append, List.dropWhile_cons_of_neg (by simp [hc]), ← List.cons_append, ← hcore,
      dropEndWhile_append hpost hlast, String.ofList_toList]

/-- Blanks around a text without blanks are all that trimming takes away. -/
theorem trims_surrounded {pre post : String} (hpre : isBlankText pre = true)
    (hpost : isBlankText post = true) (hsolid : ∀ c ∈ core.toList, isBlank c = false) :
    Trims (pre ++ core ++ post) core :=
  ⟨pre, post, rfl, hpre, hpost, fun c hc => hsolid c (List.mem_of_mem_head? hc),
    fun c hc => hsolid c (List.mem_of_getLast? hc)⟩

/-! ## Numbers -/

/-- The value of decimal digits behind a value. -/
def valueFrom (v : Nat) (ds : List Char) : Nat := ds.foldl (fun v c => v * 10 + (c.toNat - 48)) v

/-- The characters are a decimal number: digits, at least one, after an optional plus sign. -/
def Denotes (cs : List Char) (n : Nat) : Prop :=
  ∃ ds, (cs = ds ∨ cs = '+' :: ds) ∧ ds ≠ [] ∧ (∀ c ∈ ds, isDigit c = true) ∧ n = valueFrom 0 ds

theorem le_valueFrom (v : Nat) (ds : List Char) : v ≤ valueFrom v ds := by
  induction ds generalizing v with
  | nil => exact Nat.le_refl v
  | cons c ds ih =>
    have := ih (v * 10 + (c.toNat - 48))
    simp only [valueFrom, List.foldl_cons] at this ⊢
    omega

/-- Digits are read if their value is in the range. -/
theorem readDigits_eq_ok_iff {limit v n : Nat} {cs : List Char} (hne : cs ≠ []) :
    readDigits limit v cs = .ok n ↔
      (∀ c ∈ cs, isDigit c = true) ∧ n = valueFrom v cs ∧ n ≤ limit := by
  induction cs generalizing v with
  | nil => exact absurd rfl hne
  | cons c cs ih =>
    cases hd : digitOf? 10 c with
    | none =>
      have hno : isDigit c ≠ true := by
        intro h
        simp [digitOf?_ten_eq_some_iff.mpr ⟨h, rfl⟩] at hd
      simp [readDigits, hd, hno]
    | some d =>
      obtain ⟨hc, rfl⟩ := digitOf?_ten_eq_some_iff.mp hd
      simp only [readDigits, hd, List.mem_cons, forall_eq_or_imp, hc, true_and]
      have hcons : valueFrom v (c :: cs) = valueFrom (v * 10 + (c.toNat - 48)) cs := rfl
      have hle := le_valueFrom (v * 10 + (c.toNat - 48)) cs
      rw [hcons]
      split
      · rename_i hlimit
        cases cs with
        | nil =>
          simp only [readDigits, Except.ok.injEq, List.not_mem_nil, false_implies, implies_true,
            true_and, valueFrom, List.foldl_nil]
          constructor
          · rintro rfl
            exact ⟨rfl, hlimit⟩
          · exact fun h => h.1.symm
        | cons c' cs => exact ih (by simp)
      · rename_i hlimit
        simp only [reduceCtorEq, false_iff]
        rintro ⟨-, rfl, hn⟩
        omega

/-- A text is read as a number exactly if it denotes one of the range. -/
theorem readNat_eq_ok_iff {limit n : Nat} {s : String} :
    readNat limit s = .ok n ↔ Denotes s.toList n ∧ n ≤ limit := by
  have hplus : isDigit '+' = false := by decide
  unfold readNat Denotes
  split
  · rename_i hnil
    simp [hnil]
  · rename_i c cs hcs
    rw [readDigits_eq_ok_iff (by simp), hcs]
    constructor
    · rintro ⟨hds, hn, hlimit⟩
      exact ⟨⟨c :: cs, .inr rfl, by simp, hds, hn⟩, hlimit⟩
    · rintro ⟨⟨ds, rfl | hds, hne, hall, hn⟩, hlimit⟩
      · simp [hplus] at hall
      · obtain rfl := (List.cons_eq_cons.mp hds).2
        exact ⟨hall, hn, hlimit⟩
  · rename_i hnil hnoplus
    have hne : s.toList ≠ [] := fun h => hnil h
    rw [readDigits_eq_ok_iff hne]
    constructor
    · rintro ⟨hds, hn, hlimit⟩
      exact ⟨⟨s.toList, .inl rfl, hne, hds, hn⟩, hlimit⟩
    · rintro ⟨⟨ds, hds | hds, hne', hall, hn⟩, hlimit⟩
      · rw [hds]
        exact ⟨hall, hn, hlimit⟩
      · obtain ⟨c, cs, rfl⟩ := List.exists_cons_of_ne_nil hne'
        exact absurd hds (hnoplus c cs)

theorem ofDigits?_eq_valueFrom {cs : List Char} (h : ∀ c ∈ cs, isDigit c = true) (v : Nat) :
    cs.foldlM (fun v c => (digitOf? 10 c).map (v * 10 + ·)) v = some (valueFrom v cs) := by
  induction cs generalizing v with
  | nil => rfl
  | cons c cs ih =>
    have hc := digitOf?_ten_eq_some_iff.mpr ⟨h c (by simp), rfl⟩
    rw [List.foldlM_cons, hc]
    exact ih (fun c hc => h c (List.mem_cons_of_mem _ hc)) _

/-- What is written of a number denotes it. -/
theorem denotes_decimal (n : Nat) : Denotes (decimal n).toList n := by
  have hne : (decimal n).toList ≠ [] := by simpa [decimal] using digits_ne_nil 10 n
  have hdigits : ∀ c ∈ (decimal n).toList, isDigit c = true := by
    intro c hc
    exact isDigit_of_mem_digits (n := n) (by simpa [decimal] using hc)
  have hread : ofDigits? 10 (decimal n).toList = some n := by
    simpa [decimal] using ofDigits_digits (by omega) (by omega) n
  refine ⟨(decimal n).toList, .inl rfl, hne, hdigits, ?_⟩
  have := ofDigits?_eq_valueFrom hdigits 0
  exact Option.some.inj (hread.symm.trans this)

end LoopbackLock.Text
