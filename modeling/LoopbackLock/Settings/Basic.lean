import LoopbackLock.Address.Written
import LoopbackLock.Text.Blank

/-!
# Settings of a lock

Where a lock lives, how long it waits at each point, and what a waiter does when the holder stops
answering. Every setting has a default. A document, the environment and code can all supply
settings; `Settings.validate` tells which of them a lock can work with.
-/

namespace LoopbackLock

/-- What a waiter does once the holder stops answering. -/
inductive VanishedPolicy
  /-- Go back to binding the port; never claim the lock without owning it. -/
  | rebind
  /-- Report the lock as acquired without binding the port. -/
  | assume
  deriving DecidableEq, Repr

/-- The settings by which a lock works; times are in milliseconds. -/
structure Settings where
  /-- The address the port is bound on. -/
  host : Host := .loopback
  port : UInt16 := 32172
  /-- How long a challenge waits for its answer. -/
  challengeTimeout : UInt64 := 300
  /-- How long a waiter reads before it checks the holder again. -/
  waitTimeout : UInt64 := 1000
  /-- How long a holder sleeps between two looks for new connections. -/
  acceptPoll : UInt64 := 25
  onVanished : VanishedPolicy := .rebind
  deriving DecidableEq, Repr

/-- The fields of the settings, in the order in which they are written and checked. -/
inductive Field
  | host | port | challengeTimeout | waitTimeout | acceptPoll | onVanished
  deriving DecidableEq, Repr

namespace Field

/-- All fields. -/
def all : List Field := [host, port, challengeTimeout, waitTimeout, acceptPoll, onVanished]

/-- The name of a field in documents and messages. -/
def name : Field → String
  | host => "host"
  | port => "port"
  | challengeTimeout => "challenge_timeout_ms"
  | waitTimeout => "wait_timeout_ms"
  | acceptPoll => "accept_poll_interval_ms"
  | onVanished => "on_holder_vanished"

/-- The field of a name. -/
def ofName? (s : String) : Option Field := all.find? (·.name = s)

theorem ofName?_name (f : Field) : ofName? f.name = some f := by cases f <;> decide

end Field

/-- Why a value is refused. -/
inductive Refused
  /-- The host is not on this machine. -/
  | notLoopback (host : Host)
  /-- Port 0 lets the system choose, so no two parties would meet there. -/
  | portZero
  /-- A time of zero. -/
  | timeZero
  /-- The text is no address. -/
  | badAddress (given : String)
  /-- The text is no number of the field's range. -/
  | badNumber (given : String) (why : Text.NumberError)
  /-- The text, trimmed and in lower case, is no policy. -/
  | badPolicy (given : String)
  deriving DecidableEq, Repr

namespace Refused

/-- What is said of a text that is no address. -/
def addressMessage : String := "invalid IP address syntax"

/-- The wording of a refusal. -/
def message : Refused → String
  | notLoopback host => host.text ++ " is not a loopback address"
  | portZero => "port 0 cannot identify a lock"
  | timeZero => "must be greater than zero"
  | badAddress given => "'" ++ given ++ "': " ++ addressMessage
  | badNumber given why => "'" ++ given ++ "': " ++ why.message
  | badPolicy given => "expected 'rebind' or 'assume', got '" ++ given ++ "'"

end Refused

/-- A field whose value is refused, and why. -/
structure InvalidValue where
  field : Field
  why : Refused
  deriving DecidableEq, Repr

namespace InvalidValue

/-- The wording of an invalid value. -/
def message (e : InvalidValue) : String :=
  "CONFIG_INVALID_VALUE: " ++ e.field.name ++ ": " ++ e.why.message

end InvalidValue

namespace VanishedPolicy

/-- The word for a policy. -/
def name : VanishedPolicy → String
  | rebind => "rebind"
  | assume => "assume"

/-- The policy of a word, if it is spelled exactly so. -/
def ofName? (s : String) : Option VanishedPolicy := [rebind, assume].find? (·.name = s)

/-- Reads a policy, blanks around it and the case of its letters aside. -/
def parse (s : String) : Except InvalidValue VanishedPolicy :=
  let word := Text.lowerAscii (Text.trim s)
  match ofName? word with
  | some p => .ok p
  | none => .error ⟨.onVanished, .badPolicy word⟩

end VanishedPolicy

namespace Settings

/-- The endpoint a lock binds or connects to. -/
def endpoint (s : Settings) : Endpoint := { host := s.host, port := s.port }

/-- The first setting that a lock cannot work with. -/
def firstInvalid? (s : Settings) : Option InvalidValue :=
  if !s.host.isLoopback then some ⟨.host, .notLoopback s.host⟩
  else if s.port = 0 then some ⟨.port, .portZero⟩
  else if s.challengeTimeout = 0 then some ⟨.challengeTimeout, .timeZero⟩
  else if s.waitTimeout = 0 then some ⟨.waitTimeout, .timeZero⟩
  else if s.acceptPoll = 0 then some ⟨.acceptPoll, .timeZero⟩
  else none

/-- The settings as they are, if a lock can work with them. -/
def validate (s : Settings) : Except InvalidValue Settings :=
  match s.firstInvalid? with
  | some e => .error e
  | none => .ok s

end Settings

end LoopbackLock
