import LoopbackLock.Settings.Basic

/-!
# Settings as a document

All fields in their order, one to a line. Documents hold integers of sixty-four bits with a sign, so
settings with a longer time cannot be written.
-/

namespace LoopbackLock.Settings

/-- The greatest integer a document can hold. -/
def maxInteger : Nat := Nat.pow 2 63 - 1

/-- Whether a document can hold the times. -/
def isWritable (s : Settings) : Bool :=
  s.challengeTimeout.toNat ≤ maxInteger && s.waitTimeout.toNat ≤ maxInteger &&
    s.acceptPoll.toNat ≤ maxInteger

/-- What stands behind the equals sign of a field. -/
def valueText (s : Settings) : Field → String
  | .host => "\"" ++ s.host.text ++ "\""
  | .port => Text.decimal s.port.toNat
  | .challengeTimeout => Text.decimal s.challengeTimeout.toNat
  | .waitTimeout => Text.decimal s.waitTimeout.toNat
  | .acceptPoll => Text.decimal s.acceptPoll.toNat
  | .onVanished => "\"" ++ s.onVanished.name ++ "\""

/-- The line of a field. -/
def fieldLine (s : Settings) (f : Field) : String := f.name ++ " = " ++ s.valueText f ++ "\n"

/-- The document that says the settings, if there is one. -/
def written? (s : Settings) : Option String :=
  if s.isWritable then some (String.join (Field.all.map s.fieldLine)) else none

end LoopbackLock.Settings
