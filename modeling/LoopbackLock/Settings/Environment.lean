import LoopbackLock.Address.Reader
import LoopbackLock.Settings.Basic
import LoopbackLock.Text.Utf8

/-!
# Settings from the environment

Five variables override five of the defaults. A variable whose value is not UTF-8 or is blank acts
as if it were not set. The first variable that cannot be read, in the order host, port, challenge
time, wait time, policy, is the error; only then are the settings validated.
-/

namespace LoopbackLock

/-- The variables of an environment by name. -/
abbrev Environment := List (String × Bytes)

namespace Environment

/-- The text of a variable that counts as set. -/
def value? (env : Environment) (name : String) : Option String := do
  let text ← Text.decode? (← env.lookup name)
  let text := String.ofList text
  if Text.isBlankText text then none else some text

end Environment

namespace Field

/-- The variable that overrides a field; the poll interval has none. -/
def envName? : Field → Option String
  | host => some "PORTLOCK_HOST"
  | port => some "PORTLOCK_PORT"
  | challengeTimeout => some "PORTLOCK_CHALLENGE_TIMEOUT_MS"
  | waitTimeout => some "PORTLOCK_WAIT_TIMEOUT_MS"
  | acceptPoll => none
  | onVanished => some "PORTLOCK_ON_HOLDER_VANISHED"

end Field

namespace Settings

/-- Reads an address, blanks around it aside. -/
def readHost (raw : String) : Except InvalidValue Host :=
  match Host.parse? (Text.trim raw) with
  | some h => .ok h
  | none => .error ⟨.host, .badAddress raw⟩

/-- Reads a number up to a limit, blanks around it aside. -/
def readNumber (field : Field) (limit : Nat) (raw : String) : Except InvalidValue Nat :=
  match Text.readNat limit (Text.trim raw) with
  | .ok n => .ok n
  | .error why => .error ⟨field, .badNumber raw why⟩

/-- Reads a port. -/
def readPort (raw : String) : Except InvalidValue UInt16 :=
  (readNumber .port 65535 raw).map Nat.toUInt16

/-- Reads a time. -/
def readTime (field : Field) (raw : String) : Except InvalidValue UInt64 :=
  (readNumber field (Nat.pow 2 64 - 1) raw).map Nat.toUInt64

/-- The settings with one field replaced by what a text says. -/
def assign (s : Settings) (field : Field) (raw : String) : Except InvalidValue Settings :=
  match field with
  | .host => (readHost raw).map fun host => { s with host }
  | .port => (readPort raw).map fun port => { s with port }
  | .challengeTimeout => (readTime field raw).map fun t => { s with challengeTimeout := t }
  | .waitTimeout => (readTime field raw).map fun t => { s with waitTimeout := t }
  | .acceptPoll => (readTime field raw).map fun t => { s with acceptPoll := t }
  | .onVanished => (VanishedPolicy.parse raw).map fun p => { s with onVanished := p }

/-- Replaces a field if its variable is set. -/
def override (env : Environment) (s : Settings) (field : Field) : Except InvalidValue Settings :=
  match field.envName?.bind env.value? with
  | some raw => s.assign field raw
  | none => .ok s

/-- The defaults with the fields replaced whose variables are set. -/
def ofEnvironment (env : Environment) : Except InvalidValue Settings := do
  let s ← Field.all.foldlM (override env) {}
  s.validate

/-- The settings of the lock that a whole process shares: those of the environment, or the defaults
when the environment does not give valid ones. -/
def shared (env : Environment) : Settings := (ofEnvironment env).toOption.getD {}

end Settings

end LoopbackLock
