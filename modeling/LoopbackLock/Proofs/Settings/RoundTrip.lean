import LoopbackLock.Proofs.Settings.Overriding
import Mathlib.Tactic.Tauto

/-!
# Written settings read back

Settings whose times a document can hold are written as a document of six lines, and each line is
read as the value of its field. Taking the fields over one by one leaves nothing of the defaults, so
what is validated after reading is what was written (`readDocument_written?`): the settings
themselves if they are valid, and else the same error that they give without a document.
-/

namespace LoopbackLock

open Toml Text

namespace Settings

variable {s : Settings}

theorem fits_of_isWritable (h : s.isWritable = true) (f : Field) : s.Fits f := by
  obtain ⟨⟨hc, hw⟩, ha⟩ : (s.challengeTimeout.toNat ≤ maxInteger ∧
      s.waitTimeout.toNat ≤ maxInteger) ∧ s.acceptPoll.toNat ≤ maxInteger := by
    simpa [isWritable] using h
  cases f with
  | challengeTimeout => exact hc
  | waitTimeout => exact hw
  | acceptPoll => exact ha
  | _ => trivial

/-- The pair of a field as it is written. -/
def pair (f : Field) (h : s.Fits f) : Pair :=
  ⟨f.name, f.name.toList, (s.valueText f).toList, isKey_name f,
    (readsValue_valueText h).mono fun _ _ => trivial⟩

/-- The document of written settings. -/
def sheet (h : s.isWritable = true) : Sheet where
  rows := Field.all.map fun f => ({
    pair? := some (pair f (fits_of_isWritable h f)), before := [' '], behind := [' ']
    isGap := by simp [IsGap, isSpace] }, .feed)

theorem pairs_sheet (h : s.isWritable = true) :
    (sheet h).pairs = Field.all.map fun f => pair f (fits_of_isWritable h f) := rfl

theorem text_sheet (h : s.isWritable = true) :
    (sheet h).text = String.join (Field.all.map s.fieldLine) := by
  apply String.toList_inj.mp
  simp [sheet, Sheet.text, Row.chars, Row.body, pair, LineBreak.chars, Field.all, fieldLine,
    String.join, String.toList_append]

theorem given_sheet (h : s.isWritable = true) : Field.given (sheet h).pairs = Field.all := by
  rw [pairs_sheet, Field.given, List.filterMap_map]
  simp [Function.comp_def, pair, Field.ofName?_name]

theorem toldBy_sheet (h : s.isWritable = true) : s.ToldBy (sheet h).pairs := by
  intro p hp f hf
  rw [pairs_sheet] at hp
  obtain ⟨g, -, rfl⟩ := List.mem_map.mp hp
  obtain rfl : g = f := Option.some.inj ((Field.ofName?_name g).symm.trans hf)
  exact ⟨rfl, fits_of_isWritable h g⟩

/-- A document of written settings says exactly these settings. -/
theorem readDocument_written? {text : String} (h : s.written? = some text) :
    readDocument text = .ok s := by
  unfold written? at h
  split at h
  · rename_i hw
    obtain rfl := Option.some.inj h
    have hnodup : ((sheet hw).pairs.map Pair.name).Nodup := by
      rw [pairs_sheet, List.map_map]
      exact show (Field.all.map Field.name).Nodup by decide
    have hread := readDocument_sheet hnodup (toldBy_sheet hw)
    rwa [text_sheet, given_sheet, foldl_withField] at hread
  · cases h

/-- Settings can be written unless one of the times needs all the sixty-four bits. -/
theorem written?_eq_none_iff (s : Settings) : s.written? = none ↔
    2 ^ 63 ≤ s.challengeTimeout.toNat ∨ 2 ^ 63 ≤ s.waitTimeout.toNat ∨
      2 ^ 63 ≤ s.acceptPoll.toNat := by
  have hmax (n : Nat) : n ≤ maxInteger ↔ ¬2 ^ 63 ≤ n := by
    have : maxInteger = 2 ^ 63 - 1 := rfl
    omega
  simp only [written?, isWritable, ite_eq_right_iff, reduceCtorEq, Bool.and_eq_true,
    decide_eq_true_eq, hmax]
  tauto

/-- Writing settings fails exactly if a time is too long for a document. Else reading what was
written gives the settings back if they are valid, and if not, the error that validating them
gives; the document itself is never found wrong. -/
theorem ofDocument_written? (s : Settings) :
    (s.written? = none ↔ 2 ^ 63 ≤ s.challengeTimeout.toNat ∨ 2 ^ 63 ≤ s.waitTimeout.toNat ∨
      2 ^ 63 ≤ s.acceptPoll.toNat) ∧
    ∀ text, s.written? = some text →
      ofDocument text =
        match s.validate with
        | .ok _ => .ok s
        | .error e => .error (.invalid e) := by
  refine ⟨written?_eq_none_iff s, fun text h => ?_⟩
  have hread := readDocument_written? h
  unfold ofDocument
  rw [hread]
  cases hv : s.firstInvalid? <;> simp [validate, hv, Except.mapError, bind, Except.bind]

/-- Settings with an IPv6 host that is not of this machine and no time to wait can be written, and
what was written is refused for the host. -/
theorem ofDocument_written?_refused :
    ∃ (s : Settings) (text : String), s.written? = some text ∧ s.waitTimeout = 0 ∧ ofDocument text =
      .error (.invalid ⟨.host, .notLoopback (.v6 #v[0x2001, 0xDB8, 0, 0, 0, 0, 0, 1])⟩) := by
  let s : Settings := { host := .v6 #v[0x2001, 0xDB8, 0, 0, 0, 0, 0, 1], waitTimeout := 0 }
  obtain ⟨hnone, hread⟩ := ofDocument_written? s
  obtain ⟨text, htext⟩ := Option.ne_none_iff_exists'.mp (mt hnone.mp (by decide))
  exact ⟨s, text, htext, rfl, hread text htext⟩

example : ({ host := .loopback6, onVanished := .assume } : Settings).written? =
    some ("host = \"::1\"\nport = 32172\nchallenge_timeout_ms = 300\nwait_timeout_ms = 1000\n" ++
      "accept_poll_interval_ms = 25\non_holder_vanished = \"assume\"\n") := by decide +kernel

end Settings

end LoopbackLock
