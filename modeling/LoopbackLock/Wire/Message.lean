import LoopbackLock.Text.Blank

/-!
# The protocol's messages

Three messages, each a line of its own: a fixed tag, a token and a line feed. A text is read back
as a message when it is exactly tag and token, any run of carriage returns and line feeds at the
end aside.
-/

namespace LoopbackLock

/-- What the two ends of a lock connection say to each other. -/
inductive Message
  /-- From a contender: does a cooperating lock hold this port? -/
  | check
  /-- From the holder: yes. -/
  | success
  /-- From the holder: the lock is being released. -/
  | release
  deriving DecidableEq, Repr

namespace Message

/-- All messages. -/
def all : List Message := [check, success, release]

/-- The tag every line starts with, so that foreign traffic is not taken for a message. -/
def tag : String := "PORT_LOCK::"

/-- The word that tells a message from the others. -/
def token : Message → String
  | check => "CHECK"
  | success => "SUCCESS"
  | release => "RELEASE"

/-- The name of a message in diagnostics. -/
def name : Message → String
  | check => "Check"
  | success => "Success"
  | release => "Release"

/-- The message as it is written: tag, token and a line feed. -/
def line (m : Message) : String := tag ++ m.token ++ "\n"

/-- A character that may end a line. -/
def isLineEnd (c : Char) : Bool := c == '\r' || c == '\n'

/-- The message a received text is, if it is one. -/
def parse (s : String) : Option Message :=
  let body := Text.dropEndWhile isLineEnd s.toList
  all.find? fun m => body = (tag ++ m.token).toList

end Message

end LoopbackLock
