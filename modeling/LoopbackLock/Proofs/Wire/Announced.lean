import LoopbackLock.Proofs.Wire.Lines

/-!
# A release in a stream

A stream announces a release when one of its whole lines does (`Framing.Announces`). A reader that
works on what it has takes the first line of its stream, or leaves the stream as it is
(`LineReader.work_cases`), so an announcement that is ahead of it stays ahead or is heard.
-/

namespace LoopbackLock

namespace Framing

variable {body bytes bytes' : Bytes}

/-- A whole line of the stream announces a release. -/
def Announces (stream : Bytes) : Prop :=
  ∃ line ∈ lines stream, Heard.ofLine line = .message .release

instance (stream : Bytes) : Decidable (Announces stream) :=
  inferInstanceAs (Decidable (∃ line ∈ lines stream, Heard.ofLine line = .message .release))

theorem announces_line (h : lineFeed ∉ body) : Announces (body ++ lineFeed :: bytes) ↔
    Heard.ofLine (body ++ [lineFeed]) = .message .release ∨ Announces bytes := by
  unfold Announces
  rw [lines_line h]
  simp only [List.mem_cons, exists_eq_or_imp]

/-- More data takes no announcement away. -/
theorem Announces.append (h : Announces bytes) (more : Bytes) : Announces (bytes ++ more) := by
  obtain ⟨line, hmem, hline⟩ := h
  refine ⟨line, ?_, hline⟩
  rw [lines_append]
  exact List.mem_append_left _ hmem

/-- An announcement that is not over lies in what is still to come. -/
theorem Announces.ne_nil (h : Announces (bytes ++ bytes')) (hopen : lineFeed ∉ bytes) :
    bytes' ≠ [] := by
  rintro rfl
  obtain ⟨line, hmem, -⟩ := h
  rw [List.append_nil, lines_open hopen] at hmem
  cases hmem

end Framing

namespace LineReader

variable {r : LineReader} {k : FaultKind}

/-- A reader between two reads: all it has is of the line under way. -/
structure Drained (r : LineReader) : Prop where
  buffered : r.buffered = []
  pending : lineFeed ∉ r.pending

/-- A reader takes the first line of what it has, or finds none in it. -/
theorem work_cases (hopen : lineFeed ∉ r.pending) (begun : Bool) :
    (∃ body rest, lineFeed ∉ body ∧ r.pending ++ r.buffered = body ++ lineFeed :: rest ∧
      r.work begun = .done (.ok (.ofLine (body ++ [lineFeed]))) ⟨rest, []⟩) ∨
    (⟨[], r.pending ++ r.buffered⟩ : LineReader).Drained ∧
      ∃ begun', r.work begun = .starved ⟨[], r.pending ++ r.buffered⟩ begun' := by
  unfold work
  rcases hsplit : splitLine r.buffered with _ | ⟨line, rest⟩
  · refine .inr ⟨⟨rfl, ?_⟩, _, rfl⟩
    simpa [hopen] using splitLine_eq_none hsplit
  · obtain ⟨heq, body, rfl, hbody⟩ := splitLine_eq_some hsplit
    refine .inl ⟨r.pending ++ body, rest, by simp [hopen, hbody], ?_, by simp⟩
    rw [heq]
    simp

end LineReader

/-- A turn leaves a reader whose line under way is not over. -/
def Turn.Tidy : Turn → Prop
  | .done _ next => lineFeed ∉ next.pending
  | .starved next _ => next.Drained

namespace LineReader

variable {r : LineReader}

theorem tidy_work (hopen : lineFeed ∉ r.pending) (begun : Bool) : (r.work begun).Tidy := by
  rcases work_cases hopen begun with ⟨_, _, -, -, hdone⟩ | ⟨hdrained, begun', hstarved⟩
  · rw [hdone]
    exact List.not_mem_nil
  · rw [hstarved]
    exact hdrained

theorem Drained.tidy_supply (h : r.Drained) (begun : Bool) (read : ReadAnswer) :
    (r.supply begun read).Tidy := by
  rcases read with k | (_ | ⟨b, bs⟩)
  · cases k
    case interrupted => exact h
    all_goals exact h.pending
  · cases begun
    case false => exact h.pending
    case true => exact List.not_mem_nil
  · exact tidy_work (r := { r with buffered := b :: bs }) h.pending begun

end LineReader

end LoopbackLock
