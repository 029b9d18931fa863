import LoopbackLock.Proofs.Wire.Framing

/-!
# End of file

An end of file is to end the line under way. A reader ends the line only if the call that meets the
end of file has taken bytes of it; a failure reported since the last byte stalls the line. Then the
reader says that the stream is closed, keeps the bytes, and joins them to what comes later. A reader
brings what a script is to bring if and only if no line of the script stalls
(`LineReader.end_of_file_iff`).
-/

namespace LoopbackLock

namespace Framing

/-- The reads leave a line under way, and one has failed since its last byte. -/
def Stalls (reads : List ReadAnswer) : Prop :=
  reads.foldl feed [] ≠ [] ∧ reads.foldl lapsed false = true

theorem Stalls.resolve {reads : List ReadAnswer} (h : ¬Stalls reads) :
    reads.foldl feed [] = [] ∨ reads.foldl lapsed false = false := by
  unfold Stalls at h
  by_cases hnil : reads.foldl feed [] = []
  · exact .inl hnil
  · exact .inr (by simpa [hnil] using h)

/-- From the end of file on nothing is under way. -/
theorem transcript_ends (reads : List ReadAnswer) (n : Nat) :
    transcript (reads ++ .ok [] :: List.replicate n (.ok [])) =
      transcript (reads ++ [.ok []]) ++ List.replicate n (.ok .closed) := by
  have hends : ∀ n, outputs feed results [] (List.replicate n (.ok [])) =
      List.replicate n (.ok .closed) := by
    intro n
    induction n with
    | zero => rfl
    | succ n ih => exact congrArg (.ok .closed :: ·) ih
  rw [List.append_cons, transcript_append, List.foldl_append, ← hends n]
  rfl

end Framing

namespace LineReader

open Framing

variable {script before after : List ReadAnswer}

/-- A script is followed by ends of file. -/
theorem script_ends (n : Nat) : script ++ ends (n + 1) = (script ++ [.ok []]) ++ ends n := by
  rw [List.append_assoc]
  rfl

/-- Where no line stalls, the calls return what the script is to bring. -/
theorem receiveTimes_of_whole
    (h : ∀ before after, script ++ [.ok []] = before ++ .ok [] :: after → ¬Stalls before) (n : Nat) :
    (receiveTimes n {} (readsOfScript script).flatten).1 =
      (transcript (script ++ ends n)).take n := by
  rcases n with _ | n
  · rfl
  obtain ⟨htold, hlast⟩ := Held.Agrees.start.run fun before after heq =>
    Stalls.resolve (h before after heq)
  have hnil : (script ++ [(.ok [] : ReadAnswer)]).foldl feed [] = [] := by
    rw [List.foldl_append]
    rfl
  rw [hnil] at hlast
  rw [receiveTimes_script, script_ends, Held.told_append, htold, hlast.eq_start, told_ends,
    List.append_assoc]
  exact congrArg (List.take _) (transcript_ends script n).symm

/-- At the first stall the calls say that the stream is closed, and go on with the line. -/
theorem receiveTimes_of_stall (heq : script ++ [.ok []] = before ++ .ok [] :: after)
    (hstall : Stalls before) (hfirst : ∀ b a, before = b ++ .ok [] :: a → ¬Stalls b) (n : Nat) :
    (receiveTimes (n + 1) {} (readsOfScript script).flatten).1 =
      (transcript before ++ .ok .closed ::
        Held.told ⟨before.foldl feed [], false⟩ (after ++ ends n)).take (n + 1) := by
  obtain ⟨htold, hlast⟩ := Held.Agrees.start.run fun b a heq => Stalls.resolve (hfirst b a heq)
  have hheld : before.foldl Held.feed {} = ⟨before.foldl feed [], false⟩ := by
    generalize before.foldl Held.feed {} = h at hlast
    obtain ⟨bytes, fresh⟩ := h
    obtain ⟨hbytes, hfresh⟩ := hlast
    rw [hstall.2, Bool.not_true, Bool.and_false] at hfresh
    exact congr (congrArg Held.mk hbytes) hfresh
  rw [receiveTimes_script, script_ends, heq, List.append_assoc, Held.told_append, htold, hheld]
  rfl

/-- What is to come of a line that stalls is not that the stream is closed. -/
theorem transcript_at_stall (heq : script ++ [.ok []] = before ++ .ok [] :: after)
    (hstall : Stalls before) (n : Nat) :
    ∃ rest, transcript (script ++ ends (n + 1)) =
      transcript before ++ .ok (.ofLine (before.foldl feed [])) :: rest := by
  refine ⟨outputs feed results [] (after ++ ends n), ?_⟩
  rw [script_ends, heq, List.append_assoc, transcript_append]
  have hresult : results (before.foldl feed []) (.ok []) =
      [.ok (.ofLine (before.foldl feed []))] := by
    unfold results
    rw [if_neg hstall.1]
  rw [List.cons_append, outputs, hresult]
  rfl

theorem ofLine_ne_closed (line : Bytes) : Heard.ofLine line ≠ .closed := by
  unfold Heard.ofLine
  simp only
  split <;> exact fun h => nomatch h

/-- The calls of a reader return what the script is to bring, an end of file ending the line under
way, if and only if no end of file comes upon a line that has stalled. At the first that does, the
reader says that the stream is closed and keeps the bytes for the next line. -/
theorem end_of_file_iff (script : List ReadAnswer) :
    ((∀ n, (receiveTimes n {} (readsOfScript script).flatten).1 =
        (transcript (script ++ ends n)).take n) ↔
      ∀ before after, script ++ [.ok []] = before ++ .ok [] :: after → ¬Stalls before) ∧
    ∀ before after, script ++ [.ok []] = before ++ .ok [] :: after → Stalls before →
      (∀ b a, before = b ++ .ok [] :: a → ¬Stalls b) →
      ∀ n, (receiveTimes (n + 1) {} (readsOfScript script).flatten).1 =
        (transcript before ++ .ok .closed ::
          Held.told ⟨before.foldl feed [], false⟩ (after ++ ends n)).take (n + 1) := by
  refine ⟨⟨fun h => ?_, receiveTimes_of_whole⟩, fun before after => receiveTimes_of_stall⟩
  -- A first stall would show: the results at its end of file differ.
  intro before
  induction hlength : before.length using Nat.strongRecOn generalizing before with
  | ind length ih =>
    subst hlength
    intro after heq hstall
    have hfirst : ∀ b a, before = b ++ .ok [] :: a → ¬Stalls b := by
      rintro b a rfl
      exact ih b.length (by simp) b rfl (a ++ .ok [] :: after) (by rw [heq]; simp)
    have hgot := receiveTimes_of_stall heq hstall hfirst (transcript before).length
    obtain ⟨rest, hdue⟩ := transcript_at_stall heq hstall (transcript before).length
    rw [h, hdue, List.take_append, List.take_append] at hgot
    have hsame := List.append_cancel_left hgot
    simp only [Nat.add_sub_cancel_left, List.take_succ_cons, List.cons.injEq, Except.ok.injEq]
      at hsame
    exact ofLine_ne_closed _ hsame.1

/-- A last line without a line feed, and a time-out before the end of file: the line is not
reported. -/
example : (receiveTimes 3 {} (readsOfScript
    [.ok (Text.encode "PORT_LOCK::RELEASE"), .error .wouldBlock, .ok []]).flatten).1 =
    [.error .wouldBlock, .ok .closed, .ok .closed] := by
  rw [receiveTimes_script]
  decide +kernel

end LineReader

end LoopbackLock
