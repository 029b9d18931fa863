import LoopbackLock.Exchange.Request

/-!
# Dismantling a holder

An orderly release takes all connections out of the registry and, on each in turn, announces the
release, ends both directions and gives the connection up, whatever fails on the way. Then it tells
the holder's workers to stop, waits for the accepting worker, and gives up the connections that
were registered meanwhile; those see the end of the stream and no announcement.

A lock that is dropped only stops the workers and waits for the accepting one.
-/

namespace LoopbackLock

/-- Where the dismantling of a holder stands. -/
inductive Dismantling
  | draining
  /-- The release is being announced; `rest` is not written yet. -/
  | notifying (link : LinkId) (rest : Bytes) (queue : List LinkId)
  | shutting (link : LinkId) (queue : List LinkId)
  | discarding (link : LinkId) (queue : List LinkId)
  | stopping
  | joining
  /-- The registry is to be emptied once more. -/
  | sweeping
  | clearing (link : LinkId) (queue : List LinkId)
  | abandoning
  deriving DecidableEq, Repr

namespace Dismantling

/-- The line that announces a release. -/
def announcement : Bytes := Text.encode Message.release.line

/-- What is asked of the system next. -/
def request (holder : HolderId) : Dismantling → Request
  | draining | sweeping => .drain holder
  | notifying link rest _ => .write link rest
  | shutting link _ => .shut link
  | discarding link _ | clearing link _ => .discard link
  | stopping => .stop holder
  | joining => .join holder
  | abandoning => .abandon holder

/-- The next connection gets its announcement; after the last one the workers are stopped. -/
def notify : List LinkId → Dismantling
  | [] => stopping
  | link :: queue => notifying link announcement queue

/-- The next late connection is given up; after the last one the holder is. -/
def clear : List LinkId → Dismantling
  | [] => abandoning
  | link :: queue => clearing link queue

/-- Takes the system's reply; `orderly` tells a release from a drop. -/
def step (orderly : Bool) : Dismantling → Reply → Progress Dismantling Unit
  | draining, .drained links => .going (notify links)
  | notifying link rest queue, .took count =>
    if count = 0 || rest.length ≤ count then .going (shutting link queue)
    else .going (notifying link (rest.drop count) queue)
  | notifying link rest queue, .failed f =>
    if f.kind = .interrupted then .going (notifying link rest queue)
    else .going (shutting link queue)
  | shutting link queue, .done | shutting link queue, .failed _ => .going (discarding link queue)
  | discarding _ queue, .done => .going (notify queue)
  | stopping, .done => .going joining
  | joining, .done => .going (if orderly then sweeping else abandoning)
  | sweeping, .drained links => .going (clear links)
  | clearing _ queue, .done => .going (clear queue)
  | abandoning, .done => .over ()
  | d, _ => .going d

end Dismantling

end LoopbackLock
