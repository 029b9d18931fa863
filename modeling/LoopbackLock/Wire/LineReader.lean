import LoopbackLock.Text.Utf8
import LoopbackLock.Wire.Fault
import LoopbackLock.Wire.Message

/-!
# Reading lines

A `LineReader` cuts a byte stream into lines. It keeps the bytes the stream has handed out but no
line has taken yet, and the bytes of the line under way; both survive a failed read. It asks for
another read only when it holds no line feed.

One call of the reader is a sequence of turns: it works off what it holds, and while that leaves
it starved, the answer of the next read goes in. `LineReader.receive` runs a call against a list of
reads, after which every read is an end of file.
-/

namespace LoopbackLock

/-- What one line turned out to be. -/
inductive Heard
  /-- A line of the protocol. -/
  | message (m : Message)
  /-- Any other line, decoded, without the blanks at its end. -/
  | unexpected (text : String)
  /-- The stream ended before a line began. -/
  | closed
  deriving DecidableEq, Repr

/-- What one read of a stream delivers: bytes, none of them at an end of file, or a failure. -/
abbrev ReadAnswer := Except FaultKind Bytes

/-- The result of one call of the reader. -/
abbrev Received := Except FaultKind Heard

/-- The line feed. -/
def lineFeed : UInt8 := 10

/-- A whole line, with the line feed that ended it if there was one. -/
def Heard.ofLine (bytes : Bytes) : Heard :=
  let text := String.ofList (Text.decodeLossy bytes)
  match Message.parse text with
  | some m => .message m
  | none => .unexpected (Text.trimEnd text)

/-- The bytes between a stream and its lines: `buffered` were handed out and not looked at yet,
`pending` belong to the line under way. -/
structure LineReader where
  buffered : Bytes := []
  pending : Bytes := []
  deriving DecidableEq, Repr

/-- Where a call of the reader stands. -/
inductive Turn
  /-- The call is over. -/
  | done (result : Received) (next : LineReader)
  /-- A read is due; `begun` tells whether this call has taken any byte. -/
  | starved (next : LineReader) (begun : Bool)

namespace LineReader

/-- The bytes up to and with the first line feed, and the bytes after it. -/
def splitLine : Bytes → Option (Bytes × Bytes)
  | [] => none
  | b :: bs =>
    if b = lineFeed then some ([b], bs)
    else (splitLine bs).map fun (line, rest) => (b :: line, rest)

/-- Takes the buffered bytes, up to the first line feed if there is one. -/
def work (r : LineReader) (begun : Bool) : Turn :=
  match splitLine r.buffered with
  | some (line, rest) => .done (.ok (.ofLine (r.pending ++ line))) ⟨rest, []⟩
  | none => .starved ⟨[], r.pending ++ r.buffered⟩ (begun || !r.buffered.isEmpty)

/-- A call begins with what is at hand. -/
def start (r : LineReader) : Turn := r.work false

/-- The answer of a read goes in. An interrupted read is repeated; any other failure ends the call
and loses nothing. An end of file ends the line under way when this call has taken bytes for it,
and is reported as such when it has not. -/
def supply (r : LineReader) (begun : Bool) : ReadAnswer → Turn
  | .error .interrupted => .starved r begun
  | .error k => .done (.error k) r
  | .ok [] =>
    if begun then .done (.ok (.ofLine r.pending)) { r with pending := [] }
    else .done (.ok .closed) r
  | .ok (b :: bs) => { r with buffered := b :: bs }.work begun

/-- Goes on from a turn with the reads to come, and gives back those it did not use. -/
def finish : Turn → List ReadAnswer → Received × LineReader × List ReadAnswer
  | .done result next, reads => (result, next, reads)
  | .starved next begun, read :: reads => finish (next.supply begun read) reads
  | .starved next begun, [] =>
    match next.supply begun (.ok []) with
    | .done result next => (result, next, [])
    | .starved next _ => (.ok .closed, next, [])
termination_by t reads => (reads.length, match t with | .done .. => 0 | .starved .. => 1)

/-- One call of the reader. -/
def receive (r : LineReader) (reads : List ReadAnswer) :
    Received × LineReader × List ReadAnswer :=
  finish r.start reads

/-- The results of a number of calls in a row, and the reads left over. -/
def receiveTimes : Nat → LineReader → List ReadAnswer → List Received × List ReadAnswer
  | 0, _, reads => ([], reads)
  | n + 1, r, reads =>
    let (result, r, reads) := r.receive reads
    let (results, reads) := receiveTimes n r reads
    (result :: results, reads)

end LineReader

/-! ## Scripted streams -/

/-- The most bytes one read hands out. -/
def readLimit : Nat := 8192

/-- The reads that deliver one chunk: a long chunk takes several, an empty one is an end of
file. -/
def readsOfChunk (chunk : Bytes) : List ReadAnswer :=
  if chunk.length ≤ readLimit then [.ok chunk]
  else .ok (chunk.take readLimit) :: readsOfChunk (chunk.drop readLimit)
termination_by chunk.length
decreasing_by simp [readLimit] at *; omega

/-- The reads of a script of chunks and failures, chunk by chunk. -/
def readsOfScript (script : List ReadAnswer) : List (List ReadAnswer) :=
  script.map fun
    | .ok chunk => readsOfChunk chunk
    | .error k => [.error k]

/-- How many chunks are not handed out in full when `left` reads remain. -/
def unreadChunks (script : List ReadAnswer) (left : Nat) : Nat :=
  go (readsOfScript script).reverse left
where
  /-- Counts chunks from the last one until the reads left over are used up. -/
  go : List (List ReadAnswer) → Nat → Nat
    | [], _ => 0
    | reads :: rest, left => if left = 0 then 0 else 1 + go rest (left - reads.length)

end LoopbackLock
