import LoopbackLock.Proofs.Address.RoundTrip
import LoopbackLock.Proofs.Settings.Fields
import LoopbackLock.Proofs.Text.Blank
import LoopbackLock.Proofs.Text.Case
import LoopbackLock.Proofs.Text.Utf8
import LoopbackLock.Settings.Environment
import Mathlib.Data.List.Nodup

/-!
# What the environment says

A variable holds a text if its bytes are UTF-8 and not all of its characters are blank; every other
variable is as good as not set. Blanks around a text do not count: what is between them is an
address, the digits of a number, or the word for a policy in letters of either case (`Field.Says`).
The text of a field is readable if it means a value of the field (`Field.readable_iff`), and then
assigning it gives that value and touches no other field. So the settings of an environment are
decided by the first unreadable text if there is one, and by the texts' meanings if there is none
(`ofEnvironment_spec`).
-/

namespace LoopbackLock

open Text

/-- The variable of a field holds a text that is not blank. -/
def Environment.Holds (env : Environment) (f : Field) (text : String) : Prop :=
  ∃ name, f.envName? = some name ∧ env.lookup name = some (encode text) ∧
    isBlankText text = false

/-- What a text says as the value of a field, when no blanks are around it. -/
def Field.Says (f : Field) (core : String) (s : Settings) : Prop :=
  match f with
  | .host => Host.parse? core = some s.host
  | .port => Denotes core.toList s.port.toNat
  | .challengeTimeout => Denotes core.toList s.challengeTimeout.toNat
  | .waitTimeout => Denotes core.toList s.waitTimeout.toNat
  | .acceptPoll => Denotes core.toList s.acceptPoll.toNat
  | .onVanished => SameWord core s.onVanished.name

/-- What a text means as the value of a field, blanks around it aside. -/
def Field.Means (f : Field) (text : String) (s : Settings) : Prop :=
  ∃ core, Trims text core ∧ f.Says core s

/-- The field accepts a text, when no blanks are around it. -/
def Field.Accepts (f : Field) (core : String) : Prop :=
  match f with
  | .host => ∃ h, Host.parse? core = some h
  | .port => ∃ n, n < 2 ^ 16 ∧ Denotes core.toList n
  | .challengeTimeout | .waitTimeout | .acceptPoll => ∃ n, n < 2 ^ 64 ∧ Denotes core.toList n
  | .onVanished => SameWord core "rebind" ∨ SameWord core "assume"

/-- The text is one that the field accepts, blanks around it aside. -/
def Field.Readable (f : Field) (text : String) : Prop := ∃ core, Trims text core ∧ f.Accepts core

/-- What is said of a text that a field does not accept. A word that is no policy is repeated
without the blanks around it and without capitals. -/
def Field.Refuses (f : Field) (text : String) (why : Refused) : Prop :=
  match f with
  | .host => why = .badAddress text
  | .onVanished => ∃ core word, Trims text core ∧ SameWord core word ∧
      (∀ c ∈ word.toList, ¬IsCapital c) ∧ why = .badPolicy word
  | _ => ∃ e, why = .badNumber text e

/-! ## Which variables count as set -/

theorem Environment.value?_eq_some_iff {env : Environment} {name text : String} :
    env.value? name = some text ↔
      env.lookup name = some (encode text) ∧ isBlankText text = false := by
  unfold Environment.value?
  constructor
  · intro h
    obtain ⟨bs, hbs, h⟩ := Option.bind_eq_some_iff.mp h
    obtain ⟨cs, hcs, h⟩ := Option.bind_eq_some_iff.mp h
    dsimp only at h
    split at h
    · cases h
    · rename_i hblank
      obtain rfl := Option.some.inj h
      have hcs' : decode? bs = some (String.ofList cs).toList := by rwa [String.toList_ofList]
      obtain rfl := decode?_eq_some_iff_encode.mp hcs'
      exact ⟨hbs, by simpa using hblank⟩
  · rintro ⟨hlookup, hblank⟩
    have hdecode := decode?_eq_some_iff_encode.mpr (rfl : encode text = encode text)
    simp [hlookup, hdecode, String.ofList_toList, hblank]

theorem Environment.holds_iff {env : Environment} {f : Field} {text : String} :
    f.envName?.bind env.value? = some text ↔ env.Holds f text := by
  rw [Option.bind_eq_some_iff]
  simp only [Environment.value?_eq_some_iff]
  rfl

/-! ## One field -/

namespace Field

variable {f : Field} {text core : String} {s t : Settings}

theorem means_iff : f.Means text s ↔ f.Says (trim text) s := by
  constructor
  · rintro ⟨core, htrims, h⟩
    rwa [trims_iff.mp htrims]
  · exact fun h => ⟨_, trims_trim text, h⟩

/-- What a field accepts says something as a value of it. -/
theorem accepts_iff : f.Accepts core ↔ ∃ s, f.Says core s := by
  have hpolicy : SameWord core "rebind" ∨ SameWord core "assume" ↔
      ∃ s : Settings, SameWord core s.onVanished.name := by
    constructor
    · rintro (h | h)
      · exact ⟨{ onVanished := .rebind }, h⟩
      · exact ⟨{ onVanished := .assume }, h⟩
    · rintro ⟨s, h⟩
      cases hp : s.onVanished <;> rw [hp] at h
      · exact .inl h
      · exact .inr h
  have hport (cs : List Char) : (∃ n, n < 2 ^ 16 ∧ Denotes cs n) ↔
      ∃ s : Settings, Denotes cs s.port.toNat := by
    constructor
    · rintro ⟨n, hlt, hn⟩
      have hport : (UInt16.ofNat n).toNat = n := UInt16.toNat_ofNat_of_lt' hlt
      exact ⟨{ port := UInt16.ofNat n }, hport.symm ▸ hn⟩
    · rintro ⟨s, hs⟩
      exact ⟨_, s.port.toNat_lt, hs⟩
  have htime (cs : List Char) (get : Settings → UInt64) (hget : ∀ t, ∃ s, get s = t) :
      (∃ n, n < 2 ^ 64 ∧ Denotes cs n) ↔ ∃ s : Settings, Denotes cs (get s).toNat := by
    constructor
    · rintro ⟨n, hlt, hn⟩
      obtain ⟨s, hs⟩ := hget (UInt64.ofNat n)
      refine ⟨s, ?_⟩
      rw [hs, UInt64.toNat_ofNat_of_lt' hlt]
      exact hn
    · rintro ⟨s, hs⟩
      exact ⟨_, (get s).toNat_lt, hs⟩
  cases f with
  | host =>
    constructor
    · rintro ⟨h, hh⟩
      exact ⟨{ host := h }, hh⟩
    · rintro ⟨s, hs⟩
      exact ⟨s.host, hs⟩
  | port => exact hport _
  | challengeTimeout =>
    exact htime _ Settings.challengeTimeout fun t => ⟨{ challengeTimeout := t }, rfl⟩
  | waitTimeout => exact htime _ Settings.waitTimeout fun t => ⟨{ waitTimeout := t }, rfl⟩
  | acceptPoll => exact htime _ Settings.acceptPoll fun t => ⟨{ acceptPoll := t }, rfl⟩
  | onVanished => exact hpolicy

theorem readable_iff : f.Readable text ↔ ∃ s, f.Means text s := by
  simp only [Readable, accepts_iff, Means]
  constructor
  · rintro ⟨core, htrims, s, h⟩
    exact ⟨s, core, htrims, h⟩
  · rintro ⟨s, core, htrims, h⟩
    exact ⟨core, htrims, s, h⟩

/-- A meaning is one of the field only. -/
theorem Means.congr (h : f.Means text s) (ha : f.Agree s t) : f.Means text t := by
  rw [means_iff] at h ⊢
  cases f <;> simp only [Says, Agree] at h ha ⊢ <;> rw [← ha] <;> exact h

theorem denotes_unique {cs : List Char} {n m : Nat} (h : Denotes cs n) (h' : Denotes cs m) :
    n = m := by
  have hplus {ds : List Char} (hall : ∀ c ∈ '+' :: ds, isDigit c = true) : False :=
    absurd (hall '+' (by simp)) (by decide)
  obtain ⟨ds, rfl | rfl, -, hall, rfl⟩ := h <;> obtain ⟨ds', heq | heq, -, hall', rfl⟩ := h'
  · rw [heq]
  · exact (hplus (heq ▸ hall)).elim
  · exact (hplus (heq ▸ hall')).elim
  · rw [(List.cons_eq_cons.mp heq).2]

/-- The words for policies have no capitals, and so a text is the same word as one of them if it is
that word in lower case. -/
theorem lowerAscii_eq_name {p : VanishedPolicy} :
    lowerAscii core = p.name ↔ SameWord core p.name := by
  rw [lowerAscii_eq_iff]
  have hsmall : p.name.toList.all (fun c => decide ¬IsCapital c) = true := by cases p <;> decide
  exact and_iff_left fun c hc => of_decide_eq_true (List.all_eq_true.mp hsmall c hc)

/-- A text means one value at most. -/
theorem Means.agree (h : f.Means text s) (h' : f.Means text t) : f.Agree s t := by
  rw [means_iff] at h h'
  have hname (p q : VanishedPolicy) (h : p.name = q.name) : p = q := by
    revert h
    cases p <;> cases q <;> decide
  cases f with
  | host => exact Option.some.inj (h.symm.trans h')
  | port => exact UInt16.toNat_inj.mp (denotes_unique h h')
  | challengeTimeout | waitTimeout | acceptPoll => exact UInt64.toNat_inj.mp (denotes_unique h h')
  | onVanished =>
    exact hname _ _ ((lowerAscii_eq_name.mpr h).symm.trans (lowerAscii_eq_name.mpr h'))

end Field

namespace Settings

variable {f : Field} {text : String} {s : Settings}

theorem readNumber_of_denotes {limit n : Nat} (h : Denotes (trim text).toList n) (hn : n ≤ limit) :
    readNumber f limit text = .ok n := by
  simp [readNumber, readNat_eq_ok_iff.mpr ⟨h, hn⟩]

theorem readNumber_of_not_denotes (f : Field) {text : String} (limit : Nat)
    (h : ∀ n ≤ limit, ¬Denotes (trim text).toList n) :
    ∃ e, readNumber f limit text = .error ⟨f, .badNumber text e⟩ := by
  cases hread : readNat limit (trim text) with
  | error e => exact ⟨e, by simp [readNumber, hread]⟩
  | ok n =>
    obtain ⟨hn, hlimit⟩ := readNat_eq_ok_iff.mp hread
    exact absurd hn (h n hlimit)

theorem readTime_of_denotes {t : UInt64} (h : Denotes (trim text).toList t.toNat) :
    readTime f text = .ok t := by
  have hmax : t.toNat ≤ Nat.pow 2 64 - 1 := Nat.le_sub_one_of_lt t.toNat_lt
  rw [readTime, readNumber_of_denotes h hmax]
  simp [Except.map]

/-- A text with a meaning is assigned as it means, and to its field only. -/
theorem assign_of_means (h : f.Means text s) (base : Settings) :
    base.assign f text = .ok (base.withField s f) := by
  rw [Field.means_iff] at h
  cases f with
  | host =>
    have hparse : Host.parse? (trim text) = some s.host := h
    have hread : readHost text = .ok s.host := by
      unfold readHost
      rw [hparse]
    simp [assign, hread, withField, Except.map]
  | port =>
    have hmax : s.port.toNat ≤ 65535 := Nat.le_of_lt_succ s.port.toNat_lt
    have hread : readPort text = .ok s.port := by
      rw [readPort, readNumber_of_denotes h hmax]
      simp [Except.map]
    simp [assign, hread, withField, Except.map]
  | challengeTimeout => simp [assign, readTime_of_denotes h, withField, Except.map]
  | waitTimeout => simp [assign, readTime_of_denotes h, withField, Except.map]
  | acceptPoll => simp [assign, readTime_of_denotes h, withField, Except.map]
  | onVanished =>
    have hword := Field.lowerAscii_eq_name.mpr h
    have hname : VanishedPolicy.ofName? s.onVanished.name = some s.onVanished := by
      cases s.onVanished <;> decide
    have hread : VanishedPolicy.parse text = .ok s.onVanished := by
      simp only [VanishedPolicy.parse, hword, hname]
    simp [assign, hread, withField, Except.map]

/-- A text that is not readable is refused for its field. -/
theorem assign_of_not_readable (h : ¬f.Readable text) (base : Settings) :
    ∃ why, f.Refuses text why ∧ base.assign f text = .error ⟨f, why⟩ := by
  replace h : ¬f.Accepts (trim text) := fun haccepts => h ⟨_, trims_trim text, haccepts⟩
  have htime (hno : ¬∃ n, n < 2 ^ 64 ∧ Denotes (trim text).toList n) :
      ∃ e, readTime f text = .error ⟨f, .badNumber text e⟩ := by
    obtain ⟨e, he⟩ := readNumber_of_not_denotes f (Nat.pow 2 64 - 1)
      fun n hn hd => hno ⟨n, Nat.lt_of_le_pred (by decide) hn, hd⟩
    exact ⟨e, by rw [readTime, he]; rfl⟩
  cases f with
  | host =>
    have hnone : Host.parse? (trim text) = none := by
      cases hp : Host.parse? (trim text) with
      | none => rfl
      | some k => exact absurd ⟨k, hp⟩ h
    have hread : readHost text = .error ⟨.host, .badAddress text⟩ := by
      unfold readHost
      rw [hnone]
    exact ⟨.badAddress text, rfl, by rw [assign, hread]; rfl⟩
  | port =>
    obtain ⟨e, he⟩ := readNumber_of_not_denotes .port 65535 fun n hn hd => h ⟨n, by omega, hd⟩
    exact ⟨.badNumber text e, ⟨e, rfl⟩, by rw [assign, readPort, he]; rfl⟩
  | challengeTimeout | waitTimeout | acceptPoll =>
    obtain ⟨e, he⟩ := htime h
    exact ⟨.badNumber text e, ⟨e, rfl⟩, by rw [assign, he]; rfl⟩
  | onVanished =>
    have hrebind : lowerAscii (trim text) ≠ "rebind" := fun heq =>
      h (.inl (Field.lowerAscii_eq_name (p := .rebind).mp heq))
    have hassume : lowerAscii (trim text) ≠ "assume" := fun heq =>
      h (.inr (Field.lowerAscii_eq_name (p := .assume).mp heq))
    have hnone : VanishedPolicy.ofName? (lowerAscii (trim text)) = none := by
      simp [VanishedPolicy.ofName?, VanishedPolicy.name, hrebind.symm, hassume.symm]
    have hread : VanishedPolicy.parse text =
        .error ⟨.onVanished, .badPolicy (lowerAscii (trim text))⟩ := by
      simp only [VanishedPolicy.parse, hnone]
    obtain ⟨hsame, hsmall⟩ := lowerAscii_eq_iff.mp (rfl : lowerAscii (trim text) = _)
    exact ⟨.badPolicy (lowerAscii (trim text)), ⟨_, _, trims_trim text, hsame, hsmall, rfl⟩,
      by rw [assign, hread]; rfl⟩

/-! ## All fields -/

variable {env : Environment}

theorem override_of_holds (h : env.Holds f text) (base : Settings) :
    override env base f = base.assign f text := by
  rw [override, Environment.holds_iff.mpr h]

theorem override_of_not_holds (h : ∀ text, ¬env.Holds f text) (base : Settings) :
    override env base f = .ok base := by
  have hnone : f.envName?.bind env.value? = none := by
    cases hv : f.envName?.bind env.value? with
    | none => rfl
    | some text => exact absurd (Environment.holds_iff.mp hv) (h text)
  rw [override, hnone]

/-- A variable holds one text at most. -/
theorem holds_unique {text' : String} (h : env.Holds f text) (h' : env.Holds f text') :
    text = text' :=
  Option.some.inj ((Environment.holds_iff.mpr h).symm.trans (Environment.holds_iff.mpr h'))

/-- Fields whose texts are readable are replaced by what the texts mean; the others stay. -/
theorem foldlM_override {fs : List Field} (hnodup : fs.Nodup)
    (h : ∀ f ∈ fs, ∀ text, env.Holds f text → f.Readable text) (base : Settings) :
    ∃ s, fs.foldlM (override env) base = .ok s ∧
      (∀ f ∈ fs, ∀ text, env.Holds f text → f.Means text s) ∧
      ∀ f, (f ∉ fs ∨ ∀ text, ¬env.Holds f text) → f.Agree s base := by
  induction fs generalizing base with
  | nil => exact ⟨base, rfl, by simp, fun f _ => .refl f base⟩
  | cons f fs ih =>
    obtain ⟨hf, hnodup⟩ := List.nodup_cons.mp hnodup
    have hmore : ∀ g ∈ fs, ∀ text, env.Holds g text → g.Readable text :=
      fun g hg => h g (List.mem_cons_of_mem f hg)
    rw [List.foldlM_cons]
    by_cases hset : ∃ text, env.Holds f text
    · obtain ⟨text, hholds⟩ := hset
      obtain ⟨t, ht⟩ := Field.readable_iff.mp (h f (by simp) text hholds)
      obtain ⟨s, hs, hmeans, hkeep⟩ := ih hnodup hmore (base.withField t f)
      refine ⟨s, ?_, ?_, ?_⟩
      · rw [override_of_holds hholds, assign_of_means ht]
        exact hs
      · intro g hg text' hholds'
        obtain rfl | hg := List.mem_cons.mp hg
        · obtain rfl := holds_unique hholds hholds'
          have hagree := (hkeep g (.inl hf)).trans (agree_withField base t g)
          exact ht.congr hagree.symm
        · exact hmeans g hg text' hholds'
      · intro g hg
        have hne : g ≠ f := by
          rintro rfl
          obtain hg | hg := hg
          · simp at hg
          · exact hg text hholds
        have hg' : g ∉ fs ∨ ∀ text, ¬env.Holds g text :=
          hg.imp_left fun h hmem => h (List.mem_cons_of_mem f hmem)
        exact (hkeep g hg').trans (agree_withField_of_ne hne base t)
    · have hunset : ∀ text, ¬env.Holds f text := fun text hholds => hset ⟨text, hholds⟩
      obtain ⟨s, hs, hmeans, hkeep⟩ := ih hnodup hmore base
      refine ⟨s, ?_, ?_, ?_⟩
      · rw [override_of_not_holds hunset]
        exact hs
      · intro g hg text hholds
        obtain rfl | hg := List.mem_cons.mp hg
        · exact absurd hholds (hunset text)
        · exact hmeans g hg text hholds
      · intro g hg
        by_cases hgf : g = f
        · exact hkeep g (.inr (hgf ▸ hunset))
        · exact hkeep g (hg.imp_left fun h hmem => h (List.mem_cons_of_mem f hmem))

/-- Only five fields have a variable. -/
theorem ofEnvironment_eq (env : Environment) :
    ofEnvironment env = (do
      let s ← [.host, .port, .challengeTimeout, .waitTimeout, .onVanished].foldlM (override env) {}
      s.validate) := rfl

/-- The first unreadable text is the error, whatever the variables behind it hold. -/
theorem ofEnvironment_of_not_readable {before after : List Field}
    (hall : [.host, .port, .challengeTimeout, .waitTimeout, .onVanished] = before ++ f :: after)
    (hbefore : ∀ g ∈ before, ∀ text, env.Holds g text → g.Readable text)
    (hholds : env.Holds f text) (hno : ¬f.Readable text) :
    ∃ why, f.Refuses text why ∧ ofEnvironment env = .error ⟨f, why⟩ := by
  have hnodup : [Field.host, .port, .challengeTimeout, .waitTimeout, .onVanished].Nodup := by decide
  rw [hall] at hnodup
  obtain ⟨s, hs, -, -⟩ := foldlM_override (List.Nodup.of_append_left hnodup) hbefore {}
  obtain ⟨why, hwhy, herror⟩ := assign_of_not_readable hno s
  refine ⟨why, hwhy, ?_⟩
  have hfold : (before ++ f :: after).foldlM (override env) {} = .error ⟨f, why⟩ := by
    rw [List.foldlM_append, hs]
    simp only [List.foldlM_cons, bind, Except.bind]
    rw [override_of_holds hholds, herror]
  rw [ofEnvironment_eq, hall, hfold]
  rfl

/-- If every text is readable, the settings are the defaults with the fields replaced that are
set. -/
theorem ofEnvironment_of_readable
    (h : ∀ f text, env.Holds f text → f.Readable text) :
    ∃ s, ofEnvironment env = s.validate ∧ ∀ f : Field,
      (∀ text, env.Holds f text → f.Means text s) ∧
      ((∀ text, ¬env.Holds f text) → f.Agree s {}) := by
  have hnodup : Field.all.Nodup := by decide
  obtain ⟨s, hs, hmeans, hkeep⟩ := foldlM_override hnodup (fun f _ => h f) {}
  refine ⟨s, ?_, fun f => ⟨hmeans f f.mem_all, fun hunset => hkeep f (.inr hunset)⟩⟩
  rw [ofEnvironment, hs]
  rfl

/-! ## The texts of settings -/

/-- The text of a field as it is written into a variable. -/
def fieldText (s : Settings) : Field → String
  | .host => s.host.text
  | .port => decimal s.port.toNat
  | .challengeTimeout => decimal s.challengeTimeout.toNat
  | .waitTimeout => decimal s.waitTimeout.toNat
  | .acceptPoll => decimal s.acceptPoll.toNat
  | .onVanished => s.onVanished.name

theorem isBlank_of_isAddressChar {c : Char} (h : Host.isAddressChar c = true) :
    isBlank c = false := by
  obtain (h | rfl) | rfl : ((digitOf? 16 c).isSome ∨ c = '.') ∨ c = ':' := by
    simpa [Host.isAddressChar] using h
  · have hrange := toNat_of_isSome_digitOf? h
    rw [Bool.eq_false_iff, ne_eq, isBlank_iff]
    simp only [whiteSpace, List.mem_cons, List.not_mem_nil, or_false]
    omega
  · decide
  · decide

/-- The text of a field is not empty and has no blank. -/
theorem fieldText_solid (s : Settings) (f : Field) :
    (s.fieldText f).toList ≠ [] ∧ ∀ c ∈ (s.fieldText f).toList, isBlank c = false := by
  have hnumber (n : Nat) : (decimal n).toList ≠ [] ∧
      ∀ c ∈ (decimal n).toList, isBlank c = false := by
    have hchars : (decimal n).toList = digits 10 n := String.toList_ofList
    rw [hchars]
    refine ⟨digits_ne_nil 10 n, fun c hc => ?_⟩
    exact isBlank_of_isAddressChar (Host.isAddressChar_of_mem_digits (by omega) (by omega) hc)
  cases f with
  | host =>
    rw [fieldText, Host.text_toList]
    exact ⟨s.host.chars_ne_nil, fun c hc =>
      isBlank_of_isAddressChar (Host.isAddressChar_of_mem_chars hc)⟩
  | port | challengeTimeout | waitTimeout | acceptPoll => exact hnumber _
  | onVanished =>
    have hne : s.onVanished.name.toList ≠ [] := by cases s.onVanished <;> decide
    have hword : s.onVanished.name.toList.all (fun c => !isBlank c) = true := by
      cases s.onVanished <;> decide
    have hsolid : ∀ c ∈ s.onVanished.name.toList, isBlank c = false := by simpa using hword
    exact ⟨hne, hsolid⟩

variable {pre post : String}

/-- The text of a field means the field's value, whatever blanks stand around it. -/
theorem means_fieldText (hpre : isBlankText pre = true) (hpost : isBlankText post = true)
    (s : Settings) (f : Field) : f.Means (pre ++ s.fieldText f ++ post) s := by
  refine ⟨s.fieldText f, trims_surrounded hpre hpost (s.fieldText_solid f).2, ?_⟩
  cases f with
  | host => exact Host.parse?_text s.host
  | port | challengeTimeout | waitTimeout | acceptPoll => exact denotes_decimal _
  | onVanished => exact .refl _

theorem isBlankText_fieldText (s : Settings) (f : Field) (pre post : String) :
    isBlankText (pre ++ s.fieldText f ++ post) = false := by
  obtain ⟨hne, hsolid⟩ := s.fieldText_solid f
  obtain ⟨c, cs, hc⟩ := List.exists_cons_of_ne_nil hne
  have hfirst := hsolid c (by simp [hc])
  simp [isBlankText, String.toList_append, hc, hfirst]

/-- The texts of settings with the default poll interval give these settings. -/
theorem ofEnvironment_fieldText (hpoll : s.acceptPoll = ({} : Settings).acceptPoll)
    (h : ∀ f name, Field.envName? f = some name → ∃ pre post, isBlankText pre = true ∧
      isBlankText post = true ∧ env.lookup name = some (encode (pre ++ s.fieldText f ++ post))) :
    ofEnvironment env = s.validate := by
  -- Every variable that is set holds a text that means the value of its field.
  have hholds (f : Field) (hf : f ≠ .acceptPoll) :
      ∃ text, env.Holds f text ∧ f.Means text s := by
    obtain ⟨name, hname⟩ : ∃ name, f.envName? = some name := by
      cases f <;> first | exact ⟨_, rfl⟩ | exact absurd rfl hf
    obtain ⟨pre, post, hpre, hpost, hlookup⟩ := h f name hname
    exact ⟨_, ⟨name, hname, hlookup, isBlankText_fieldText s f pre post⟩,
      means_fieldText hpre hpost s f⟩
  have hpollHolds (text : String) : ¬env.Holds .acceptPoll text := by
    rintro ⟨name, hname, -⟩
    cases hname
  have hmeans (f : Field) (text : String) (hf : env.Holds f text) : f.Means text s := by
    have hne : f ≠ .acceptPoll := by
      rintro rfl
      exact hpollHolds text hf
    obtain ⟨text', hf', hm⟩ := hholds f hne
    rw [holds_unique hf hf']
    exact hm
  have hreadable : ∀ f text, env.Holds f text → f.Readable text :=
    fun f text hf => Field.readable_iff.mpr ⟨s, hmeans f text hf⟩
  obtain ⟨t, ht, hfields⟩ := ofEnvironment_of_readable hreadable
  have heq : t = s := by
    apply Field.eq_of_agree
    intro f
    by_cases hf : f = .acceptPoll
    · subst hf
      exact ((hfields .acceptPoll).2 hpollHolds).trans hpoll.symm
    · obtain ⟨text, hset, hm⟩ := hholds f hf
      exact ((hfields f).1 text hset).agree hm
  rw [ht, heq]

/-! ## The whole environment -/

/-- The settings of an environment. Only the texts count that the variables hold: bytes that are
not UTF-8 or only blanks are as good as nothing. The first text that its field does not accept is
the error, whatever stands in the variables behind it; if there is none, the settings are the
defaults with the fields replaced whose variables hold a text, or what is wrong with them. So the
texts of settings, with blanks around them or not, give the settings back. -/
theorem ofEnvironment_spec :
    (∀ env env' : Environment, (∀ f text, env.Holds f text ↔ env'.Holds f text) →
      ofEnvironment env = ofEnvironment env') ∧
    (∀ (env : Environment) before f after text,
      [.host, .port, .challengeTimeout, .waitTimeout, .onVanished] = before ++ f :: after →
      (∀ g ∈ before, ∀ text, env.Holds g text → g.Readable text) →
      env.Holds f text → ¬f.Readable text →
      ∃ why, f.Refuses text why ∧ ofEnvironment env = .error ⟨f, why⟩) ∧
    (∀ env : Environment, (∀ f text, env.Holds f text → f.Readable text) →
      ∃ s, ofEnvironment env = s.validate ∧ ∀ f : Field,
        (∀ text, env.Holds f text → f.Means text s) ∧
        ((∀ text, ¬env.Holds f text) → f.Agree s {})) ∧
    ∀ (env : Environment) (s : Settings), s.acceptPoll = ({} : Settings).acceptPoll →
      (∀ f name, Field.envName? f = some name → ∃ pre post, isBlankText pre = true ∧
        isBlankText post = true ∧
        env.lookup name = some (encode (pre ++ s.fieldText f ++ post))) →
      ofEnvironment env =
        match s.validate with
        | .ok _ => .ok s
        | .error e => .error e := by
  refine ⟨?_, ?_, ?_, ?_⟩
  · intro env env' h
    have hsame (f : Field) : f.envName?.bind env.value? = f.envName?.bind env'.value? := by
      apply Option.ext
      intro text
      rw [Environment.holds_iff, Environment.holds_iff]
      exact h f text
    have hoverride : override env = override env' := by
      funext base f
      rw [override, override, hsame]
    rw [ofEnvironment, ofEnvironment, hoverride]
  · intro env before f after text hall hbefore hholds hno
    exact ofEnvironment_of_not_readable hall hbefore hholds hno
  · intro env h
    exact ofEnvironment_of_readable h
  · intro env s hpoll h
    rw [ofEnvironment_fieldText hpoll h]
    cases hv : s.firstInvalid? <;> simp [validate, hv]

/-- A port with a plus sign and zeros is fine; the challenge time is the first that is not, though
the wait time is not either. A policy may be given in capitals and between blanks, and the rest is
as it is by default. Each of the five variables sets its field. -/
theorem ofEnvironment_spec_refused :
    (∃ why, ofEnvironment [("PORTLOCK_WAIT_TIMEOUT_MS", encode "-1"),
      ("PORTLOCK_CHALLENGE_TIMEOUT_MS", encode "soon"), ("PORTLOCK_PORT", encode " +00443"),
      ("PORTLOCK_HOST", [0xFF])] = .error ⟨.challengeTimeout, why⟩) ∧
    ofEnvironment [("PORTLOCK_ON_HOLDER_VANISHED", encode "\tAssUME ")] =
      .ok ⟨.v4 127 0 0 1, 32172, 300, 1000, 25, .assume⟩ ∧
    ofEnvironment [("PORTLOCK_ON_HOLDER_VANISHED", encode " rebind"),
      ("PORTLOCK_WAIT_TIMEOUT_MS", encode "7\n"), ("PORTLOCK_CHALLENGE_TIMEOUT_MS", encode "60"),
      ("PORTLOCK_PORT", encode "443"), ("PORTLOCK_HOST", encode "\t127.0.0.2 ")] =
      .ok ⟨.v4 127 0 0 2, 443, 60, 7, 25, .rebind⟩ := by
  refine ⟨?_, ?_, ?_⟩
  · let env : Environment := [("PORTLOCK_WAIT_TIMEOUT_MS", encode "-1"),
      ("PORTLOCK_CHALLENGE_TIMEOUT_MS", encode "soon"), ("PORTLOCK_PORT", encode " +00443"),
      ("PORTLOCK_HOST", [0xFF])]
    have hport : env.Holds .port " +00443" := ⟨_, rfl, rfl, by decide⟩
    have hbefore : ∀ g ∈ [Field.host, Field.port], ∀ text, env.Holds g text → g.Readable text := by
      intro g hg text hholds
      obtain rfl | rfl : g = .host ∨ g = .port := by simpa using hg
      · obtain ⟨name, hname, hbytes, -⟩ := hholds
        obtain rfl := Option.some.inj hname
        have hnone : decode? [0xFF] = some text.toList :=
          decode?_eq_some_iff_encode.mpr (Option.some.inj hbytes)
        simp [decode?, items, item, form?] at hnone
      · obtain rfl := holds_unique hholds hport
        exact ⟨"+00443", trims_iff.mpr (by decide), 443, by decide, "00443".toList,
          .inr (by decide), by decide, List.all_eq_true.mp (by decide), by decide⟩
    have hno : ¬Field.challengeTimeout.Readable "soon" := by
      rintro ⟨core, htrims, n, -, ds, h, -, hall, -⟩
      obtain rfl : "soon" = core := by
        rw [← trims_iff.mp htrims]
        decide
      rcases h with h | h
      · exact absurd (hall 's' (by rw [← h]; decide)) (by decide)
      · exact absurd (List.cons_eq_cons.mp h).1 (by decide)
    obtain ⟨why, -, herror⟩ := ofEnvironment_spec.2.1 env _ .challengeTimeout _ "soon" rfl hbefore
      ⟨_, rfl, rfl, by decide⟩ hno
    exact ⟨why, herror⟩
  · let env : Environment := [("PORTLOCK_ON_HOLDER_VANISHED", encode "\tAssUME ")]
    have htrims : Trims "\tAssUME " "AssUME" := trims_iff.mpr (by decide)
    have hset : env.Holds .onVanished "\tAssUME " := ⟨_, rfl, rfl, by decide⟩
    have hunset : ∀ f ≠ Field.onVanished, ∀ text, ¬env.Holds f text := by
      rintro f hf text ⟨name, hname, hbytes, -⟩
      cases f <;> cases hname <;> first | cases hbytes | exact hf rfl
    obtain ⟨s, hs, hfields⟩ := ofEnvironment_spec.2.2.1 env fun f text hholds => by
      by_cases hf : f = .onVanished
      · subst hf
        obtain rfl := holds_unique hholds hset
        exact ⟨_, htrims, .inr (by decide)⟩
      · exact absurd hholds (hunset f hf text)
    obtain ⟨core, htrims', hword⟩ := (hfields .onVanished).1 _ hset
    obtain rfl := (trims_iff.mp htrims).symm.trans (trims_iff.mp htrims')
    have hassume : s.onVanished = .assume := by
      cases hp : s.onVanished
      · rw [Field.Says, hp] at hword
        exact absurd hword (by decide)
      · rfl
    have heq : s = { onVanished := .assume } := Field.eq_of_agree fun f => by
      by_cases hf : f = .onVanished
      · subst hf
        exact hassume
      · have hsame := (hfields f).2 (hunset f hf)
        cases f <;> first | exact hsame | exact absurd rfl hf
    rw [hs, heq]
    rfl
  · let s : Settings := ⟨.v4 127 0 0 2, 443, 60, 7, 25, .rebind⟩
    refine ofEnvironment_spec.2.2.2 _ s rfl ?_
    rintro (_ | _ | _ | _ | _ | _) name ⟨⟩
    · exact ⟨"\t", " ", by decide, by decide, by decide +kernel⟩
    · exact ⟨"", "", by decide, by decide, by decide +kernel⟩
    · exact ⟨"", "", by decide, by decide, by decide +kernel⟩
    · exact ⟨"", "\n", by decide, by decide, by decide +kernel⟩
    · exact ⟨" ", "", by decide, by decide, by decide⟩

end Settings

end LoopbackLock
