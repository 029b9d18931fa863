import LoopbackLock.World.Basic

/-!
# The calling ends that a call owns

A challenge owns the calling end of its connection, and a waiter that of the connection it keeps. A
step of a call gains the end of a connection it makes, loses the one it hangs up, and changes
nothing else (`Call.links_step`).
-/

namespace LoopbackLock

variable {s : Settings} {r : Reply} {x : LinkId}

/-- A step that asks for a connection and gets it gains its calling end. -/
def Request.gain : Request → Reply → LinkId → Nat
  | connect .., .connected y, x => if y = x then 1 else 0
  | _, _, _ => 0

/-- A step that hangs up loses the calling end. -/
def Request.loss : Request → Reply → LinkId → Nat
  | hangUp y, .done, x => if y = x then 1 else 0
  | _, _, _ => 0

/-- The connections whose calling ends a challenge owns. -/
def Challenge.links : Challenge → List LinkId
  | connecting => []
  | limiting x | asking x | listening x _ _ | closing x _ => [x]

namespace Vigil

/-- The connections whose calling ends a waiter owns. -/
def links : Vigil → List LinkId
  | probing c | joining c => c.links
  | dismissing x | limiting x _ | listening x _ | awaiting x _ _ | closing x _ | failing x _ => [x]
  | rechecking x _ c => x :: c.links
  | excusing x _ y => [x, y]

end Vigil

namespace Challenge

variable {c : Challenge}

/-- What a challenge that goes on or is over owns. -/
def left : Progress Challenge Verdict → List LinkId
  | .going c => c.links
  | .over (.ok p) => [p.1]
  | .over (.error _) => []

theorem left_turn (t : Turn) : left (turn s x t) = [x] := by
  rcases t with ⟨result, reader⟩ | ⟨reader, begun⟩
  · show left (judge s x reader result) = [x]
    unfold judge
    split
    case h_5 => split <;> rfl
    all_goals rfl
  · rfl

theorem links_step (s : Settings) (c : Challenge) (r : Reply) (x : LinkId) :
    (left (c.step s r)).count x + (c.request s).loss r x =
      c.links.count x + (c.request s).gain r x := by
  rcases c with _ | y | y | ⟨y, reader, begun⟩ | ⟨y, why⟩ <;> rcases r
  case connecting.connected y =>
    show [y].count x + 0 = 0 + if y = x then 1 else 0
    simp [List.count_singleton]
  case connecting.failed f =>
    simp only [step]
    split <;> rfl
  case asking.done =>
    show (left (turn s y ({} : LineReader).start)).count x + 0 = [y].count x + 0
    rw [left_turn]
  case listening.heard bytes =>
    show (left (turn s y (reader.supply begun (.ok bytes)))).count x + 0 = [y].count x + 0
    rw [left_turn]
  case listening.failed f =>
    show (left (turn s y (reader.supply begun (.error f.kind)))).count x + 0 = [y].count x + 0
    rw [left_turn]
  case closing.done =>
    show 0 + (if y = x then 1 else 0) = [y].count x + 0
    simp [List.count_singleton]
  all_goals rfl

end Challenge

namespace Vigil

/-- What a waiter that goes on or is done waiting owns. -/
def left : Progress Vigil (Except LockError WaitOutcome) → List LinkId
  | .going v => v.links
  | .over _ => []

theorem links_turn (t : Turn) : (turn x t).links = [x] := by
  rcases t with ⟨result, reader⟩ | ⟨reader, begun⟩
  · show (hear x reader result).links = [x]
    unfold hear
    split
    case h_4 => split <;> rfl
    all_goals rfl
  · rfl

theorem links_step (s : Settings) (v : Vigil) (r : Reply) (x : LinkId) :
    (left (v.step s r)).count x + (v.request s).loss r x =
      v.links.count x + (v.request s).gain r x := by
  rcases v with c | y | c | ⟨y, reader⟩ | ⟨y, reader⟩ | ⟨y, reader, begun⟩ | ⟨y, reader, c⟩ |
    ⟨y, reader, z⟩ | ⟨y, outcome⟩ | ⟨y, why⟩
  case probing =>
    have hc := c.links_step s r x
    simp only [step]
    rcases hs : c.step s r with c' | ⟨why | ⟨z, reader⟩⟩ <;> rw [hs] at hc <;> exact hc
  case joining =>
    have hc := c.links_step s r x
    simp only [step]
    rcases hs : c.step s r with c' | ⟨why | ⟨z, reader⟩⟩ <;> rw [hs] at hc <;> exact hc
  case rechecking =>
    have hc := c.links_step s r x
    have hcons : ∀ xs : List LinkId, (y :: xs).count x = [y].count x + xs.count x := by
      intro xs
      rw [← List.count_append]
      rfl
    have hkept : ∀ xs : List LinkId, xs.count x + (c.request s).loss r x =
        c.links.count x + (c.request s).gain r x → (y :: xs).count x + (c.request s).loss r x =
        (y :: c.links).count x + (c.request s).gain r x := by
      intro xs hxs
      rw [hcons, hcons c.links]
      omega
    simp only [step]
    rcases hs : c.step s r with c' | ⟨why | ⟨z, reader'⟩⟩ <;> rw [hs] at hc
    · exact hkept c'.links hc
    · exact hkept [] hc
    · exact hkept [z] hc
  case awaiting =>
    rcases r
    case heard bytes =>
      show (turn y (reader.supply begun (.ok bytes))).links.count x + 0 = [y].count x + 0
      rw [links_turn]
    case failed f =>
      show (turn y (reader.supply begun (.error f.kind))).links.count x + 0 = [y].count x + 0
      rw [links_turn]
    all_goals rfl
  case listening =>
    rcases r
    case done =>
      show (turn y reader.start).links.count x + 0 = [y].count x + 0
      rw [links_turn]
    all_goals rfl
  case dismissing | closing | failing =>
    rcases r
    case done =>
      show 0 + (if y = x then 1 else 0) = [y].count x + 0
      simp [List.count_singleton]
    all_goals rfl
  case excusing =>
    rcases r
    case done =>
      show [y].count x + (if z = x then 1 else 0) = [y, z].count x + 0
      simp [List.count_cons, List.count_nil]
      omega
    all_goals rfl
  case limiting => rcases r <;> rfl

end Vigil

namespace Contention

/-- The connections whose calling ends a contender owns. -/
def links : Contention → List LinkId
  | watching v => v.links
  | _ => []

/-- What a contender that goes on or is done owns. -/
def left : Progress Contention (Except LockError Acquisition) → List LinkId
  | .going c => c.links
  | .over _ => []

theorem links_step (s : Settings) (c : Contention) (r : Reply) (x : LinkId) :
    (left (c.step s r)).count x + (c.request s).loss r x =
      c.links.count x + (c.request s).gain r x := by
  rcases c with _ | _ | ℓ | ℓ | ⟨ℓ, why⟩ | h | _ | v | _
  case watching =>
    have hv := v.links_step s r x
    simp only [step]
    rcases hs : v.step s r with v' | ⟨why | outcome⟩ <;> rw [hs] at hv
    · exact hv
    · exact hv
    · have hnone : (resume s outcome).links = [] := by
        rcases outcome
        case vanished =>
          unfold resume
          cases s.onVanished <;> rfl
        all_goals rfl
      show (resume s outcome).links.count x + _ = _
      rw [hnone]
      exact hv
  case binding =>
    rcases r
    case failed f =>
      simp only [step]
      split <;> rfl
    all_goals rfl
  all_goals rcases r <;> rfl

end Contention

/-- The connections whose calling ends a call owns. -/
def Call.links : Call → List LinkId
  | contending c => c.links
  | _ => []

/-- What a call that goes on or is over owns. -/
def Call.left : Progress Call Ending → List LinkId
  | .going c => c.links
  | .over _ => []

theorem Dismantling.gains_nothing (d : Dismantling) (h : HolderId) (r : Reply) (x : LinkId) :
    (d.request h).gain r x = 0 ∧ (d.request h).loss r x = 0 := by
  rcases d <;> exact ⟨rfl, rfl⟩

/-- A step of a call changes what it owns by what it gains and loses. -/
theorem Call.links_step (l : PortLock) (t : ThreadId) (c : Call) (r : Reply) (x : LinkId) :
    (left (l.step t c r).2).count x + (c.request l.settings).loss r x =
      c.links.count x + (c.request l.settings).gain r x := by
  have hidle : (left (l.step t c r).2).count x = 0 → c.links = [] →
      (c.request l.settings).gain r x = 0 → (c.request l.settings).loss r x = 0 →
      (left (l.step t c r).2).count x + (c.request l.settings).loss r x =
        c.links.count x + (c.request l.settings).gain r x := by
    intro hleft hlinks hgain hloss
    rw [hleft, hlinks, hgain, hloss]
    rfl
  rcases c with _ | _ | c | why | why | _ | _ | ⟨h, d⟩ | _ | _ | ⟨h, d⟩
  case contending =>
    have hc := c.links_step l.settings r x
    simp only [PortLock.step, PortLock.contend]
    rcases hs : c.step l.settings r with c' | ⟨why | how⟩ <;> rw [hs] at hc <;> exact hc
  case entering =>
    rcases r
    case done =>
      simp only [PortLock.step, PortLock.enter]
      rcases l.gate.enter t with ⟨_ | _ | _, _⟩ <;> rfl
    all_goals rfl
  case counting =>
    rcases r
    case done =>
      simp only [PortLock.step, PortLock.count]
      split <;> rfl
    all_goals rfl
  case resetting =>
    rcases r
    case done =>
      simp only [PortLock.step]
      split <;> rfl
    all_goals rfl
  case retiring =>
    rcases r
    case done =>
      simp only [PortLock.step]
      split <;> rfl
    all_goals rfl
  case dismantling =>
    refine hidle ?_ rfl (d.gains_nothing h r x).1 (d.gains_nothing h r x).2
    simp only [PortLock.step]
    rcases d.step true r with d' | _ <;> rfl
  case dropping =>
    refine hidle ?_ rfl (d.gains_nothing h r x).1 (d.gains_nothing h r x).2
    simp only [PortLock.step]
    rcases d.step false r with d' | _ <;> rfl
  all_goals rcases r <;> rfl

end LoopbackLock
