import LoopbackLock.Address.Reader
import LoopbackLock.Settings.Basic
import LoopbackLock.Toml.Diagnostic
import LoopbackLock.Toml.Document
import LoopbackLock.Wire.Fault

/-!
# Settings in a document

The keys of a document that name fields override the defaults; other keys are ignored. The fields
are read in the order in which the document gives them, and the first that cannot be read is the
error. Settings that can be read are validated after that.
-/

namespace LoopbackLock

/-- Why settings cannot be had. -/
inductive SettingsError
  /-- The file cannot be read. -/
  | unreadable (path : String) (fault : Fault)
  /-- The document is not well-formed. -/
  | malformed
  /-- The document says something else than settings; the text is the diagnostic. -/
  | mistyped (diagnostic : String)
  /-- The settings are none a lock can work with. -/
  | invalid (e : InvalidValue)
  deriving DecidableEq, Repr

namespace Settings

open Toml

/-- What a reader of an item gives: a value, or what is wrong. -/
abbrev Reading := Except Problem

/-- Complains about an item as a whole. -/
def refuse {α : Type} (x : Item) (complaint : Complaint) : Reading α :=
  .error ⟨complaint, x.span?⟩

/-- Reads an address. -/
def hostOf (x : Item) : Reading Host :=
  match x with
  | .scalar (.string s) _ =>
    match Host.parse? s with
    | some h => .ok h
    | none => refuse x (.badText Refused.addressMessage)
  | _ => refuse x (.wrongType x.description "IP address")

/-- Reads a whole number from zero to a limit. -/
def numberOf (wanted : String) (limit : Nat) (x : Item) : Reading Nat :=
  match x with
  | .scalar (.integer n) _ =>
    if 0 ≤ n ∧ n ≤ limit then .ok n.toNat else refuse x (.outOfRange n wanted)
  | _ => refuse x (.wrongType x.description wanted)

/-- Reads a port. -/
def portOf (x : Item) : Reading UInt16 := (numberOf "u16" 65535 x).map Nat.toUInt16

/-- Reads a time. -/
def timeOf (x : Item) : Reading UInt64 := (numberOf "u64" (Nat.pow 2 64 - 1) x).map Nat.toUInt64

/-- The policy of a word; `span` is where the word stands. -/
def policyOfWord (word : String) (span : Option Span) : Reading VanishedPolicy :=
  match VanishedPolicy.ofName? word with
  | some p => .ok p
  | none => .error ⟨.unknownWord word ["rebind", "assume"], span⟩

/-- A policy has no contents: what stands behind its word in a table must be empty. -/
def checkEmpty (x : Item) : Reading Unit :=
  match x with
  | .table t | .inlineTable t =>
    if t.entries.isEmpty then .ok () else refuse x .notEmptyTable
  | .array xs _ => if xs.isEmpty then .ok () else refuse x .notEmptyTable
  | .tables ts => if ts.isEmpty then .ok () else refuse x .notEmptyArray
  | .scalar .. => refuse x (.notEmptiable x.typeName)

/-- Reads a policy: its word, or a table whose only key is the word. -/
def policyOf (x : Item) : Reading VanishedPolicy :=
  match x with
  | .scalar (.string s) span => policyOfWord s (some span)
  | .table t | .inlineTable t =>
    match t.entries with
    | [] => refuse x (.notOneEntry true)
    | [(key, inner)] => do
      let p ← policyOfWord key.name (some key.span)
      checkEmpty inner
      return p
    | _ => refuse x (.notOneEntry false)
  | _ => refuse x .notWordOrTable

/-- The settings with one field replaced by what an item says. -/
def assignItem (s : Settings) (field : Field) (x : Item) : Reading Settings :=
  match field with
  | .host => (hostOf x).map fun host => { s with host }
  | .port => (portOf x).map fun port => { s with port }
  | .challengeTimeout => (timeOf x).map fun t => { s with challengeTimeout := t }
  | .waitTimeout => (timeOf x).map fun t => { s with waitTimeout := t }
  | .acceptPoll => (timeOf x).map fun t => { s with acceptPoll := t }
  | .onVanished => (policyOf x).map fun p => { s with onVanished := p }

/-- Takes in one entry of a document. A problem without a place is one of the entry, or of its
key. -/
def takeEntry (s : Settings) : Key × Item → Reading Settings
  | (key, x) =>
    match Field.ofName? key.name with
    | none => .ok s
    | some field =>
      (s.assignItem field x).mapError fun p => { p with span := p.span.or (x.span?.or key.span) }

/-- The settings a document says, valid or not. -/
def readDocument (text : String) : Except SettingsError Settings :=
  match document? text with
  | none => .error .malformed
  | some t => (t.entries.foldlM takeEntry {}).mapError fun p => .mistyped (p.render text)

/-- The settings a document says, if a lock can work with them. -/
def ofDocument (text : String) : Except SettingsError Settings := do
  let s ← readDocument text
  s.validate.mapError .invalid

end Settings

end LoopbackLock
