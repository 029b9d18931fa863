import LoopbackLock.Exchange.Request
import LoopbackLock.Settings.Basic
import LoopbackLock.Text.Delay
import LoopbackLock.Wire.LineReader

/-!
# Challenging the occupant of a port

A contender that finds the port taken connects to it, asks whether it is held by a lock, and
expects the holder's answer as the first line within the challenge time. The occupant is confirmed,
or it is refused: it departed (nobody answered at the level of the connection), or it answered, but
not like a lock, or not in time. A refused connection is closed before the verdict is given; a
confirmed one stays open.
-/

namespace LoopbackLock

/-- What an occupant did that no lock does. -/
inductive Mismatch
  /-- It did not take the connection in time. -/
  | unconnected (limit : UInt64)
  /-- It sent another message of the protocol. -/
  | wrongMessage (m : Message)
  /-- It sent a line that is no message. -/
  | foreignLine (text : String)
  /-- It sent no whole line in time. -/
  | silence (limit : UInt64)
  deriving DecidableEq, Repr

/-- The wording of a mismatch. -/
def Mismatch.reason : Mismatch → String
  | unconnected limit => "connect timed out after " ++ Text.delay limit.toNat
  | wrongMessage m => "expected SUCCESS, got " ++ m.name
  | foreignLine text => "unexpected reply '" ++ text ++ "'"
  | silence limit => "no reply within " ++ Text.delay limit.toNat

/-- Why an occupant is not confirmed as a holder. -/
inductive Refusal
  /-- Nobody answered: the connection was refused, reset or closed. -/
  | departed
  /-- Something answered, or stayed silent, as no lock does. -/
  | mismatch (m : Mismatch)
  deriving DecidableEq, Repr

/-- The verdict on an occupant; a confirmed one comes with the open connection and its reader. -/
abbrev Verdict := Except Refusal (LinkId × LineReader)

/-- Where a challenge stands. -/
inductive Challenge
  | connecting
  /-- Connected; the time limits of the connection are to be set. -/
  | limiting (link : LinkId)
  | asking (link : LinkId)
  /-- The answer is being read; `begun` tells whether any byte of it has come. -/
  | listening (link : LinkId) (reader : LineReader) (begun : Bool)
  /-- Refused; the connection is to be closed. -/
  | closing (link : LinkId) (why : Refusal)
  deriving DecidableEq, Repr

namespace Challenge

/-- What the challenge asks of the system next. -/
def request (s : Settings) : Challenge → Request
  | connecting => .connect s.endpoint s.challengeTimeout
  | limiting link => .limit link s.challengeTimeout
  | asking link => .send link .check
  | listening link _ _ => .read link s.challengeTimeout
  | closing link _ => .hangUp link

/-- The first line of the occupant, or what came instead of it, is judged. -/
def judge (s : Settings) (link : LinkId) (reader : LineReader) : Received →
    Progress Challenge Verdict
  | .ok (.message .success) => .over (.ok (link, reader))
  | .ok (.message m) => .going (.closing link (.mismatch (.wrongMessage m)))
  | .ok (.unexpected text) => .going (.closing link (.mismatch (.foreignLine text)))
  | .ok .closed => .going (.closing link .departed)
  | .error k =>
    if k.isTimeout then .going (.closing link (.mismatch (.silence s.challengeTimeout)))
    else .going (.closing link .departed)

/-- Goes on from a turn of the reader. -/
def turn (s : Settings) (link : LinkId) : Turn → Progress Challenge Verdict
  | .done result reader => judge s link reader result
  | .starved reader begun => .going (.listening link reader begun)

/-- The challenge takes the system's reply to its request. -/
def step (s : Settings) : Challenge → Reply → Progress Challenge Verdict
  | connecting, .connected link => .going (.limiting link)
  | connecting, .failed f =>
    if f.kind.isTimeout then .over (.error (.mismatch (.unconnected s.challengeTimeout)))
    else .over (.error .departed)
  | limiting link, .done => .going (.asking link)
  | limiting link, .failed _ => .going (.closing link .departed)
  | asking link, .done => turn s link ({} : LineReader).start
  | asking link, .failed _ => .going (.closing link .departed)
  | listening link reader begun, .heard bytes => turn s link (reader.supply begun (.ok bytes))
  | listening link reader begun, .failed f => turn s link (reader.supply begun (.error f.kind))
  | closing _ why, .done => .over (.error why)
  | c, _ => .going c

end Challenge

end LoopbackLock
