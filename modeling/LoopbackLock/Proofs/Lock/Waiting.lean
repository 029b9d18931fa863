import LoopbackLock.Proofs.Lock.Standing
import LoopbackLock.Proofs.Wire.Announced

/-!
# Waiting for an announcement

Wherever a call stands, no reader it has holds back a line that is over (`Call.Tidy.step`). So a
waiter that listens while an announcement is ahead of it, in its reader or in what has arrived, goes
on to hear it or finds the connection gone, unless a read runs out of time (`Vigil.Heeds`).
-/

namespace LoopbackLock

open Framing

variable {s : Settings} {r : Reply} {x : LinkId} {inbox : Bytes}

/-! ## Readers hold no line back -/

namespace Challenge

variable {c : Challenge}

/-- The reader of a challenge has at most the line under way. -/
def Tidy : Challenge → Prop
  | listening _ reader _ => reader.Drained
  | _ => True

/-- A challenge that goes on is tidy, and so is the reader of a confirmed one. -/
def Leaves : Progress Challenge Verdict → Prop
  | .going c => c.Tidy
  | .over (.ok p) => lineFeed ∉ p.2.pending
  | .over (.error _) => True

theorem leaves_turn {t : Turn} (h : t.Tidy) : Leaves (turn s x t) := by
  rcases t with ⟨result, reader⟩ | ⟨reader, begun⟩
  · show Leaves (judge s x reader result)
    unfold judge
    split
    case h_1 => exact h
    case h_5 => split <;> trivial
    all_goals trivial
  · exact h

theorem Tidy.step (h : c.Tidy) : Leaves (c.step s r) := by
  fun_cases Challenge.step s c r
  case case6 x => exact leaves_turn (LineReader.tidy_work List.not_mem_nil false)
  case case8 | case9 => exact leaves_turn (LineReader.Drained.tidy_supply h _ _)
  case case11 => exact h
  all_goals trivial

end Challenge

namespace Vigil

variable {v v' : Vigil}

/-- No reader of a waiter holds back a line that is over. -/
def Tidy : Vigil → Prop
  | probing c | joining c => c.Tidy
  | limiting _ reader | listening _ reader | excusing _ reader _ => lineFeed ∉ reader.pending
  | awaiting _ reader _ => reader.Drained
  | rechecking _ reader c => lineFeed ∉ reader.pending ∧ c.Tidy
  | _ => True

theorem tidy_turn {t : Turn} (h : t.Tidy) : (turn x t).Tidy := by
  rcases t with ⟨result, reader⟩ | ⟨reader, begun⟩
  · show (hear x reader result).Tidy
    unfold hear
    split
    case h_3 => exact h
    case h_4 => split <;> first | exact ⟨h, trivial⟩ | trivial
    all_goals trivial
  · exact h

theorem Tidy.step (h : v.Tidy) (hv' : v.step s r = .going v') : v'.Tidy := by
  have hchallenge : ∀ {c : Challenge} {p}, c.Tidy → c.step s r = p → Challenge.Leaves p :=
    fun hc hp => hp ▸ hc.step
  revert hv'
  fun_cases Vigil.step s v r
  case case1 hc | case5 hc => intro hv'; cases hv'; exact hchallenge h hc
  case case6 hc => intro hv'; cases hv'; exact hchallenge h hc
  case case10 => intro hv'; cases hv'; exact tidy_turn (LineReader.tidy_work h false)
  case case11 | case12 => intro hv'; cases hv'; exact tidy_turn (h.tidy_supply _ _)
  case case13 hc => intro hv'; cases hv'; exact ⟨h.1, hchallenge h.2 hc⟩
  case case14 => intro hv'; cases hv'; exact h.1
  case case8 | case16 | case19 => intro hv'; cases hv'; exact h
  all_goals intro hv'; cases hv' <;> trivial

end Vigil

namespace Call

/-- No reader of a call holds back a line that is over. -/
def Tidy : Call → Prop
  | contending (.watching v) => v.Tidy
  | _ => True

theorem tidy_of_not_watching {c : Call} (h : ∀ v, c ≠ contending (.watching v)) : c.Tidy := by
  unfold Tidy
  split
  · exact absurd rfl (h _)
  · trivial

end Call

/-- A contender begins to wait with a challenge, or goes on waiting. -/
theorem Contention.watching_of_step {c : Contention} {v' : Vigil}
    (h : c.step s r = .going (.watching v')) :
    v' = .probing .connecting ∨ ∃ v, c = .watching v ∧ v.step s r = .going v' := by
  cases c
  case watching v =>
    simp only [step] at h
    rcases hv : v.step s r with v₁ | _ | outcome <;> rw [hv] at h
    · cases h; exact .inr ⟨v, rfl, hv⟩
    · cases h
    · cases outcome
      case vanished => rcases hpolicy : s.onVanished with _ | _ <;> simp [resume, hpolicy] at h
      all_goals cases h
  case binding =>
    cases r
    case failed =>
      simp only [step] at h
      split at h <;> cases h
    all_goals cases h
  case yielding =>
    cases r
    case done => cases h; exact .inl rfl
    all_goals cases h
  all_goals cases r <;> cases h

theorem Call.watching_of_step {l : PortLock} {t : ThreadId} {c : Call} {v' : Vigil}
    (h : (l.step t c r).2 = .going (contending (.watching v'))) :
    v' = .probing .connecting ∨
      ∃ v, c = contending (.watching v) ∧ v.step l.settings r = .going v' := by
  revert h
  fun_cases PortLock.step l t c r <;> intro h
  case case1 =>
    obtain ⟨_, _, heq, rfl | rfl | rfl⟩ := l.enter_cases t <;> rw [heq] at h <;> cases h
  case case3 k =>
    simp only [PortLock.contend] at h
    rcases hstep : k.step l.settings r with k' | _ | _ <;> rw [hstep] at h <;> cases h
    obtain hnew | ⟨v, rfl, hv⟩ := Contention.watching_of_step hstep
    · exact .inl hnew
    · exact .inr ⟨v, rfl, hv⟩
  case case6 =>
    rcases l.count_cases t with heq | heq | heq <;> rw [heq] at h <;> cases h
  case case7 next => rcases hs : l.state <;> simp only [next, hs] at h <;> cases h
  case case15 hcontending _ _ _ _ _ _ _ _ _ _ =>
    cases h
    exact (hcontending _ rfl).elim
  all_goals cases h

theorem Call.Tidy.step {l : PortLock} {t : ThreadId} {c c' : Call} (h : c.Tidy)
    (hc' : (l.step t c r).2 = .going c') : c'.Tidy := by
  by_cases hwatch : ∃ v', c' = contending (.watching v')
  · obtain ⟨v', rfl⟩ := hwatch
    rcases watching_of_step hc' with rfl | ⟨v, rfl, hv⟩
    · trivial
    · exact Vigil.Tidy.step h hv
  · exact tidy_of_not_watching fun v heq => hwatch ⟨v, heq⟩

/-! ## Announcements that are ahead -/

namespace Vigil

variable {v : Vigil} {reader : LineReader} {begun : Bool}

/-- The connection a waiter keeps. -/
def kept? : Vigil → Option LinkId
  | limiting x _ | listening x _ | awaiting x _ _ | rechecking x _ _ | excusing x _ _ | closing x _
  | failing x _ => some x
  | _ => none

/-- The connection a waiter keeps, and its reader, from the first look for the release on. -/
def attends? : Vigil → Option (LinkId × LineReader)
  | listening x reader | awaiting x reader _ | rechecking x reader _ | excusing x reader _ =>
    some (x, reader)
  | _ => none

/-- With this in the inbox the announcement is ahead of the waiter, whatever it is about. -/
def IsTold (x : LinkId) (inbox : Bytes) (v : Vigil) : Prop :=
  ∃ reader, v.attends? = some (x, reader) ∧
    Announces (reader.pending ++ reader.buffered ++ inbox)

/-- With this in the inbox the announcement is ahead of a waiter that makes no challenge, or its
waiting is over and the holder has not vanished. -/
def Heeds (x : LinkId) (inbox : Bytes) : Vigil → Prop
  | listening y reader | awaiting y reader _ | excusing y reader _ =>
    y = x ∧ Announces (reader.pending ++ reader.buffered ++ inbox)
  | closing y outcome => y = x ∧ outcome ≠ .vanished
  | _ => False

theorem heeds_hear {line rest : Bytes}
    (h : Heard.ofLine line = .message .release ∨ Announces (rest ++ inbox)) :
    (hear x ⟨rest, []⟩ (.ok (.ofLine line))).Heeds x inbox := by
  by_cases hrelease : Heard.ofLine line = .message .release
  · rw [hrelease]
    exact ⟨rfl, WaitOutcome.noConfusion⟩
  · have hahead := h.resolve_left hrelease
    unfold hear
    split
    case h_1 heq => exact absurd (Except.ok.inj heq) hrelease
    case h_2 => exact ⟨rfl, WaitOutcome.noConfusion⟩
    case h_3 => exact ⟨rfl, hahead⟩
    case h_4 heq => cases heq

/-- A waiter that works on what it has hears the announcement, or has it ahead. -/
theorem heeds_work (hopen : lineFeed ∉ reader.pending)
    (h : Announces (reader.pending ++ reader.buffered ++ inbox)) (begun : Bool) :
    (turn x (reader.work begun)).Heeds x inbox := by
  rcases LineReader.work_cases hopen begun with
    ⟨body, rest, hbody, heq, hdone⟩ | ⟨-, begun', hstarved⟩
  · rw [heq, List.append_assoc, List.cons_append, announces_line hbody] at h
    rw [hdone]
    exact heeds_hear h
  · rw [hstarved]
    exact ⟨rfl, by rwa [List.append_nil]⟩

/-- A read that brings bytes takes no announcement away. -/
theorem heeds_heard {bytes : Bytes} (hd : reader.Drained) (hne : bytes ≠ [])
    (h : Announces (reader.pending ++ (bytes ++ inbox))) :
    (turn x (reader.supply begun (.ok bytes))).Heeds x inbox := by
  obtain ⟨b, bs, rfl⟩ := List.exists_cons_of_ne_nil hne
  rw [← List.append_assoc] at h
  exact @heeds_work x inbox { reader with buffered := b :: bs } hd.pending h begun

/-- A read that fails, but does not run out of time, takes no announcement away. -/
theorem heeds_failed {k : FaultKind} (hk : k.isTimeout = false)
    (h : Announces (reader.pending ++ reader.buffered ++ inbox)) :
    (turn x (reader.supply begun (.error k))).Heeds x inbox := by
  cases k
  case interrupted => exact ⟨rfl, h⟩
  case wouldBlock | timedOut => cases hk
  all_goals exact ⟨rfl, WaitOutcome.noConfusion⟩

/-- What arrives takes no announcement away. -/
theorem Heeds.append (h : v.Heeds x inbox) (more : Bytes) : v.Heeds x (inbox ++ more) := by
  cases v
  case listening | awaiting | excusing =>
    refine ⟨h.1, ?_⟩
    rw [← List.append_assoc]
    exact h.2.append more
  all_goals exact h

/-- A waiter that has the announcement ahead is making a challenge, or has it ahead with none. -/
theorem IsTold.cases (h : v.IsTold x inbox) :
    v.Heeds x inbox ∨ ∃ reader c, v = rechecking x reader c ∧
      Announces (reader.pending ++ reader.buffered ++ inbox) := by
  obtain ⟨reader, hattends, hahead⟩ := h
  cases v <;> cases hattends
  case rechecking c => exact .inr ⟨reader, c, rfl, hahead⟩
  all_goals exact .inl ⟨rfl, hahead⟩

end Vigil

end LoopbackLock
