import LoopbackLock.Proofs.Wire.FirstLine
import LoopbackLock.Proofs.World.Calling
import LoopbackLock.Proofs.World.Wholeness

/-!
# What a challenge hears

On a connection on which nothing is said but a holder's script, and where no answer is cut short, a
challenge hears the answer, or that nobody is there. `Challenge.Fares` says what it has heard so far;
a step keeps that (`Challenge.Fares.step`), unless a time limit runs out or a limit cannot be set
(`Challenge.Suits`).
-/

namespace LoopbackLock

variable {n n' : Network} {x : LinkId} {s : Settings} {r : Reply} {chance : Chance}
variable {calls : LinkId → Prop} {w w₁ : World}

namespace Network

/-- A read fails by chance, or because the connection was reset. -/
theorem hear?_failed {side : Side} {f : Fault}
    (h : n.hear? x side chance = some (.failed f, n')) :
    f = .connectionReset ∨ chance = .expire ∨ chance = .fail f := by
  have hread : ∀ most, (n.read? x side most).map (fun p => (replyOf p.1, p.2)) =
      some (.failed f, n') → f = .connectionReset := by
    intro most h
    obtain ⟨⟨answer, n₁⟩, hr, heq⟩ := Option.map_eq_some_iff.mp h
    obtain ⟨l, -, hr⟩ := Option.bind_eq_some_iff.mp hr
    obtain ⟨answer', hfound, hr⟩ := Option.bind_eq_some_iff.mp hr
    unfold End.found at hfound
    split at hfound
    · cases hfound; cases hr; cases heq
    · split at hfound
      · cases hfound; cases hr; cases heq
      · split at hfound <;> cases hfound
        cases hr
        cases heq
        rfl
  unfold Network.hear? at h
  split at h
  · exact .inl (hread _ h)
  · exact .inl (hread _ h)
  · exact .inr (.inl rfl)
  · cases h; exact .inr (.inr rfl)
  · cases h

end Network

/-! ## The first line of a holder's script -/

/-- The answer without its line feed. -/
def Attendance.answerBody : Bytes := Attendance.answer.dropLast

theorem Attendance.answer_eq : Attendance.answer = Attendance.answerBody ++ [lineFeed] := by
  decide +kernel

theorem Attendance.lineFeed_not_mem_answerBody : lineFeed ∉ Attendance.answerBody := by
  decide +kernel

theorem Heard.ofLine_answer : Heard.ofLine Attendance.answer = .message .success := by
  decide +kernel

namespace Challenge

/-- Nothing speaks against a lock: all that was read is in the reader, and no line is over yet. -/
def Fares (n : Network) : Challenge → Prop
  | connecting => True
  | limiting x | asking x => n.Delivered x []
  | listening x reader begun =>
    reader.buffered = [] ∧ lineFeed ∉ reader.pending ∧ (begun = true → reader.pending ≠ []) ∧
      n.Delivered x reader.pending
  | closing _ why => why = .departed

/-- The reply is no time-out, and no failure to set a time limit. -/
def Suits : Challenge → Reply → Prop
  | connecting, .failed f | listening .., .failed f => f.kind.isTimeout = false
  | limiting _, .failed _ => False
  | _, _ => True

variable {c : Challenge}

/-- What others do leaves a challenge as it is. -/
theorem Fares.evolves (hf : c.Fares n) (he : n.Evolves calls n')
    (hmine : ∀ x ∈ c.links, ¬ calls x ∧ n.callers x ≠ 0) : c.Fares n' := by
  have hkeeps : ∀ {x read}, x ∈ c.links → n.Delivered x read → n'.Delivered x read :=
    fun hx hd => he.delivered (hmine _ hx).1 (hmine _ hx).2 hd
  rcases c with _ | y | y | ⟨y, reader, begun⟩ | ⟨y, why⟩
  case connecting => trivial
  case limiting | asking => exact hkeeps List.mem_cons_self hf
  case listening =>
    obtain ⟨hbuffered, hnone, hbegun, hd⟩ := hf
    exact ⟨hbuffered, hnone, hbegun, hkeeps List.mem_cons_self hd⟩
  case closing => exact hf

/-- A verdict that is no mismatch, or a challenge that goes on without one in sight. -/
def Goes (n : Network) : Progress Challenge Verdict → Prop
  | .going c => c.Fares n
  | .over v => v.isOk = true ∨ v = .error .departed

/-- The bytes of a read go in: the first line is the answer, or it is not over yet. -/
theorem goes_heard {reader : LineReader} {begun : Bool} {bytes : Bytes} (hc : n.Candid)
    (hf : (listening x reader begun).Fares n)
    (hh : n.hear? x .caller chance = some (.heard bytes, n')) :
    Goes n' (turn s x (reader.supply begun (.ok bytes))) := by
  obtain ⟨buffered, pending⟩ := reader
  obtain ⟨rfl, hnone, hbegun, hd⟩ := hf
  obtain ⟨hd', hend⟩ := Network.delivered_hear? hh hd
  have hsaid : n'.said = n.said := (Network.like_hear? hh).said
  have hread : pending ++ bytes <+: script := hd'.said.trans (hsaid ▸ hc.said x)
  have hfirst : Attendance.answerBody ++ [lineFeed] <+: script :=
    Attendance.answer_eq ▸ List.prefix_append ..
  by_cases hne : bytes = []
  · -- The stream is over: a whole answer would have been heard already.
    subst hne
    obtain ⟨hover, hall⟩ := hend rfl
    have hempty : pending = [] := by
      rcases hc.whole x hover with hnil | hanswer
      · exact hall.trans hnil
      · rw [← hall, Attendance.answer_eq] at hanswer
        exact absurd (hanswer.subset (by simp)) hnone
    have hbegun : begun = false := by
      rcases begun with _ | _
      · rfl
      · exact absurd hempty (hbegun rfl)
    subst hbegun
    exact rfl
  · rcases LineReader.supply_piece begun hfirst
      Attendance.lineFeed_not_mem_answerBody hnone hread hne with ⟨hnone', hstarved⟩ | ⟨next, hdone⟩
    · rw [hstarved]
      exact ⟨rfl, hnone', fun _ => by simp [hne], hd'⟩
    · rw [hdone, ← Attendance.answer_eq, Heard.ofLine_answer]
      exact .inl rfl

/-- A failed read that is no time-out ends the challenge quietly, or is repeated. -/
theorem goes_failed {reader : LineReader} {begun : Bool} {k : FaultKind}
    (hf : (listening x reader begun).Fares n) (hk : k.isTimeout = false) :
    Goes n (turn s x (reader.supply begun (.error k))) := by
  have hjudged : Goes n (judge s x reader (.error k)) := by
    simp only [judge, hk]
    exact rfl
  cases k
  case interrupted => exact hf
  all_goals exact hjudged

/-- A step of a challenge whose request was served. -/
theorem Fares.step (hf : c.Fares w.network) (hc : w.network.Candid)
    (hs : w.Served s (c.request s) r w₁) (hsuits : c.Suits r)
    (hmine : ∀ x ∈ c.links, w.network.callers x ≠ 0) : Goes w₁.network (c.step s r) := by
  rcases c with _ | y | y | ⟨y, reader, begun⟩ | ⟨y, why⟩ <;> cases hs
  case connecting.failed f =>
    simp only [step, show f.kind.isTimeout = false from hsuits]
    exact .inr rfl
  case connecting.connected hx => exact Network.delivered_connect hx
  case limiting.failed => exact hsuits.elim
  case limiting.limited => exact hf
  case asking.failed => exact rfl
  case asking.sent n hw =>
    have hev : w.network.Evolves (fun _ => False) n := Network.evolves_write hw
    exact ⟨rfl, List.not_mem_nil, fun h => Bool.noConfusion h,
      hev.delivered id (hmine y List.mem_cons_self) hf⟩
  case listening.failed f => exact goes_failed hf hsuits
  case listening.heard chance n hh =>
    rcases Network.hear?_cases hh with ⟨f, rfl, rfl⟩ | ⟨_, _, _, _, _, _, rfl, _⟩
    · exact goes_failed hf hsuits
    · exact goes_heard hc hf hh
  case closing.failed => exact hf
  case closing.hungUp => exact .inr (by rw [show why = .departed from hf])

end Challenge

/-! ## Waiters, contenders and calls -/

namespace Vigil

/-- The challenge that a waiter is making. -/
def challenge? : Vigil → Option Challenge
  | probing c | joining c | rechecking _ _ c => some c
  | _ => none

/-- Nothing speaks against a lock, and nothing has failed. -/
def Fares (n : Network) : Vigil → Prop
  | probing c | joining c | rechecking _ _ c => c.Fares n
  | failing .. => False
  | _ => True

/-- A reply that suits the challenge under way, and no failure to set the time limit. -/
def Suits : Vigil → Reply → Prop
  | probing c, r | joining c, r | rechecking _ _ c, r => c.Suits r
  | limiting .., .failed _ => False
  | _, _ => True

variable {v : Vigil}

theorem Fares.evolves (hf : v.Fares n) (he : n.Evolves calls n')
    (hmine : ∀ x ∈ v.links, ¬ calls x ∧ n.callers x ≠ 0) : v.Fares n' := by
  cases v
  case probing | joining => exact Challenge.Fares.evolves hf he hmine
  case rechecking =>
    exact Challenge.Fares.evolves hf he fun x hx => hmine x (List.mem_cons_of_mem _ hx)
  case failing => exact hf.elim
  all_goals trivial

/-- A waiter that goes on fares well, and one that is done has not failed. -/
def Goes (n : Network) : Progress Vigil (Except LockError WaitOutcome) → Prop
  | .going v => v.Fares n
  | .over result => result.isOk = true

theorem fares_turn (t : Turn) : (turn x t).Fares n := by
  rcases t with ⟨result, reader⟩ | ⟨reader, begun⟩
  · show (hear x reader result).Fares n
    unfold hear
    split
    case h_4 => split <;> trivial
    all_goals trivial
  · trivial

theorem Fares.step (hf : v.Fares w.network) (hc : w.network.Candid)
    (hs : w.Served s (v.request s) r w₁) (hsuits : v.Suits r)
    (hmine : ∀ x ∈ v.links, w.network.callers x ≠ 0) : Goes w₁.network (v.step s r) := by
  have hchallenge : ∀ {c : Challenge}, c.Fares w.network → w.Served s (c.request s) r w₁ →
      c.Suits r → (∀ x ∈ c.links, w.network.callers x ≠ 0) →
      (∃ c', c.step s r = .going c' ∧ c'.Fares w₁.network) ∨
        (∃ p, c.step s r = .over (.ok p)) ∨ c.step s r = .over (.error .departed) := by
    intro c hf hs hsuits hmine
    have hgoes := hf.step hc hs hsuits hmine
    rcases hstep : c.step s r with c' | ⟨why | p⟩ <;> rw [hstep] at hgoes
    · exact .inl ⟨c', rfl, hgoes⟩
    · rcases hgoes with hok | heq
      · cases hok
      · exact .inr (.inr (by rw [heq]))
    · exact .inr (.inl ⟨p, rfl⟩)
  rcases v with c | y | c | ⟨y, reader⟩ | ⟨y, reader⟩ | ⟨y, reader, begun⟩ | ⟨y, reader, c⟩ |
    ⟨y, reader, z⟩ | ⟨y, outcome⟩ | ⟨y, why⟩
  case probing | joining =>
    rcases hchallenge hf hs hsuits hmine with ⟨c', hstep, hf'⟩ | ⟨p, hstep⟩ | hstep <;>
      simp only [step, hstep]
    · exact hf'
    · trivial
    · rfl
  case rechecking =>
    have hmine : ∀ x ∈ c.links, w.network.callers x ≠ 0 :=
      fun x hx => hmine x (List.mem_cons_of_mem _ hx)
    rcases hchallenge hf hs hsuits hmine with ⟨c', hstep, hf'⟩ | ⟨p, hstep⟩ | hstep <;>
      simp only [step, hstep]
    · exact hf'
    · trivial
    · trivial
  case failing => exact hf.elim
  case limiting =>
    cases r
    case failed => exact hsuits.elim
    all_goals trivial
  case listening =>
    cases r
    case done => exact fares_turn _
    all_goals trivial
  case awaiting =>
    cases r
    case heard | failed => exact fares_turn _
    all_goals trivial
  case closing =>
    cases r
    case done => rfl
    all_goals trivial
  case dismissing | excusing => cases r <;> trivial

end Vigil

namespace Contention

/-- Nothing has failed so far. -/
def Fares (n : Network) : Contention → Prop
  | unbinding .. => False
  | watching v => v.Fares n
  | _ => True

/-- The system fails a contender only where the port is taken. -/
def Suits : Contention → Reply → Prop
  | binding, .failed f => f.kind = .addrInUse
  | unblocking _, .failed _ | founding _, .failed _ => False
  | watching v, r => v.Suits r
  | _, _ => True

variable {c : Contention}

theorem Fares.evolves (hf : c.Fares n) (he : n.Evolves calls n')
    (hmine : ∀ x ∈ c.links, ¬ calls x ∧ n.callers x ≠ 0) : c.Fares n' := by
  cases c
  case watching => exact Vigil.Fares.evolves hf he hmine
  case unbinding => exact hf.elim
  all_goals trivial

/-- A contender that goes on fares well, and one that is done has the lock. -/
def Goes (n : Network) : Progress Contention (Except LockError Acquisition) → Prop
  | .going c => c.Fares n
  | .over result => result.isOk = true

theorem Fares.step (hf : c.Fares w.network) (hc : w.network.Candid)
    (hs : w.Served s (c.request s) r w₁) (hsuits : c.Suits r)
    (hmine : ∀ x ∈ c.links, w.network.callers x ≠ 0) : Goes w₁.network (c.step s r) := by
  cases c
  case watching v =>
    have hgoes := Vigil.Fares.step hf hc hs hsuits hmine
    simp only [step]
    rcases hstep : v.step s r with v' | ⟨why | outcome⟩ <;> rw [hstep] at hgoes
    · exact hgoes
    · cases hgoes
    · show (resume s outcome).Fares w₁.network
      cases outcome
      case vanished =>
        unfold resume
        cases s.onVanished <;> trivial
      all_goals trivial
  case binding =>
    cases r
    case failed f =>
      simp only [step]
      rw [if_pos (show f.kind = .addrInUse from hsuits)]
      trivial
    all_goals trivial
  case unblocking | founding =>
    cases r
    case failed => exact hsuits.elim
    all_goals trivial
  case unbinding => exact hf.elim
  case installing | assuming =>
    cases r
    case done => rfl
    all_goals trivial
  case announcing | yielding => cases r <;> trivial

end Contention

namespace Call

/-- The challenge that a call is making. -/
def challenge? : Call → Option Challenge
  | contending (.watching v) => v.challenge?
  | _ => none

theorem challenge?_cases {c : Call} {ch : Challenge} (h : c.challenge? = some ch) :
    ∃ v, c = contending (.watching v) ∧
      (v = .probing ch ∨ v = .joining ch ∨ ∃ y reader, v = .rechecking y reader ch) := by
  rcases c with _ | _ | c | _ | _ | _ | _ | _ | _ | _ | _
  case contending =>
    cases c
    case watching v =>
      refine ⟨v, rfl, ?_⟩
      cases v <;> cases h
      · exact .inl rfl
      · exact .inr (.inl rfl)
      · exact .inr (.inr ⟨_, _, rfl⟩)
    all_goals cases h
  all_goals cases h

/-- No acquisition is failing. -/
def Fares (n : Network) : Call → Prop
  | contending c => c.Fares n
  | failing _ | quitting _ => False
  | _ => True

/-- The reply suits the contender, if the call is one. -/
def Suits : Call → Reply → Prop
  | contending c, r => c.Suits r
  | _, _ => True

theorem Fares.evolves {c : Call} (hf : c.Fares n) (he : n.Evolves calls n')
    (hmine : ∀ x ∈ c.links, ¬ calls x ∧ n.callers x ≠ 0) : c.Fares n' := by
  cases c
  case contending => exact Contention.Fares.evolves hf he hmine
  case failing | quitting => exact hf.elim
  all_goals trivial

end Call

/-- No acquisition is failing, or has failed last. -/
def Activity.Fares (n : Network) : Activity → Prop
  | free (some (.failed _)) => False
  | free _ => True
  | busy _ c => c.Fares n

/-- A step of a call that fares well leads to no failure. -/
theorem Call.Fares.step {l : PortLock} {t : ThreadId} {i : LockId} {c : Call}
    (hf : c.Fares w.network) (hc : w.network.Candid)
    (hs : w.Served l.settings (c.request l.settings) r w₁) (hsuits : c.Suits r)
    (hmine : ∀ x ∈ c.links, w.network.callers x ≠ 0) :
    ((l.step t c r).2.activity i).Fares w₁.network := by
  rcases c with _ | _ | c | why | why | _ | _ | ⟨h, d⟩ | _ | _ | ⟨h, d⟩
  case contending =>
    have hgoes := Contention.Fares.step hf hc hs hsuits hmine
    simp only [PortLock.step, PortLock.contend]
    rcases hstep : c.step l.settings r with c' | ⟨why | how⟩ <;> rw [hstep] at hgoes
    · exact hgoes
    · cases hgoes
    · trivial
  case failing | quitting => exact hf.elim
  case entering =>
    cases r
    case done =>
      simp only [PortLock.step, PortLock.enter]
      rcases l.gate.enter t with ⟨_ | _ | _, _⟩ <;> trivial
    all_goals trivial
  case counting =>
    cases r
    case done =>
      simp only [PortLock.step, PortLock.count]
      split <;> trivial
    all_goals trivial
  case resetting | retiring =>
    cases r
    case done =>
      simp only [PortLock.step]
      split <;> trivial
    all_goals trivial
  case dismantling =>
    simp only [PortLock.step]
    rcases d.step true r with d' | _ <;> trivial
  case dropping =>
    simp only [PortLock.step]
    rcases d.step false r with d' | _ <;> trivial
  case rejoining | leaving => cases r <;> trivial

end LoopbackLock
