import LoopbackLock.Wire.LineReader

/-!
# The first line of a stream

A reader that has nothing buffered and is given a stream piece by piece stays starved until the
first line feed, and then reports the first line, however the stream is cut into pieces
(`LineReader.supply_piece`).
-/

namespace LoopbackLock

namespace LineReader

variable {bytes piece line rest stream first pending : Bytes}

theorem splitLine_eq_none (h : splitLine bytes = none) : lineFeed ∉ bytes := by
  induction bytes with
  | nil => simp
  | cons b bs ih =>
    unfold splitLine at h
    split at h
    · cases h
    · next hb =>
      intro hmem
      rcases List.mem_cons.mp hmem with heq | hmem
      · exact hb heq.symm
      · exact ih (Option.map_eq_none_iff.mp h) hmem

theorem splitLine_eq_some (h : splitLine bytes = some (line, rest)) :
    bytes = line ++ rest ∧ ∃ body, line = body ++ [lineFeed] ∧ lineFeed ∉ body := by
  induction bytes generalizing line with
  | nil => cases h
  | cons b bs ih =>
    unfold splitLine at h
    split at h
    · next hb =>
      cases h
      exact ⟨rfl, [], by rw [hb]; rfl, by simp⟩
    · next hb =>
      obtain ⟨⟨line', rest'⟩, hsplit, heq⟩ := Option.map_eq_some_iff.mp h
      cases heq
      obtain ⟨rfl, body, rfl, hbody⟩ := ih hsplit
      refine ⟨rfl, b :: body, rfl, fun hmem => ?_⟩
      rcases List.mem_cons.mp hmem with heq | hmem
      · exact hb heq.symm
      · exact hbody hmem

/-- A stream has one first line. -/
theorem first_unique {body body' : Bytes} (h : body ++ [lineFeed] <+: stream)
    (h' : body' ++ [lineFeed] <+: stream) (hbody : lineFeed ∉ body) (hbody' : lineFeed ∉ body') :
    body = body' := by
  induction body generalizing body' stream with
  | nil =>
    rcases body' with _ | ⟨b, bs⟩
    · rfl
    · obtain ⟨s, rfl⟩ := h
      obtain ⟨heq, -⟩ := List.cons_prefix_cons.mp h'
      exact absurd (heq ▸ List.mem_cons_self) hbody'
  | cons b bs ih =>
    obtain ⟨s, rfl⟩ := h
    rcases body' with _ | ⟨b', bs'⟩
    · obtain ⟨heq, -⟩ := List.cons_prefix_cons.mp h'
      exact absurd (heq ▸ List.mem_cons_self) hbody
    · obtain ⟨rfl, htail⟩ := List.cons_prefix_cons.mp h'
      rw [ih ⟨s, rfl⟩ htail (fun hmem => hbody (List.mem_cons_of_mem _ hmem))
        fun hmem => hbody' (List.mem_cons_of_mem _ hmem)]

/-- What is read of a stream before its first line is over, and what ends that line. -/
theorem supply_piece (begun : Bool) (hfirst : first ++ [lineFeed] <+: stream) (hnone : lineFeed ∉ first)
    (hpending : lineFeed ∉ pending) (hread : pending ++ piece <+: stream) (hne : piece ≠ []) :
    (lineFeed ∉ pending ++ piece ∧
      supply ⟨[], pending⟩ begun (.ok piece) = .starved ⟨[], pending ++ piece⟩ true) ∨
    ∃ next, supply ⟨[], pending⟩ begun (.ok piece) =
      .done (.ok (.ofLine (first ++ [lineFeed]))) next := by
  obtain ⟨b, bs, rfl⟩ := List.exists_cons_of_ne_nil hne
  show (_ ∧ work ⟨b :: bs, pending⟩ begun = _) ∨ ∃ next, work ⟨b :: bs, pending⟩ begun = _
  unfold work
  rcases hsplit : splitLine (b :: bs) with _ | ⟨line, rest⟩
  · refine .inl ⟨fun hmem => ?_, by simp⟩
    rcases List.mem_append.mp hmem with hmem | hmem
    · exact hpending hmem
    · exact splitLine_eq_none hsplit hmem
  · obtain ⟨heq, body, rfl, hbody⟩ := splitLine_eq_some hsplit
    refine .inr ⟨⟨rest, []⟩, ?_⟩
    have hline : (pending ++ body) ++ [lineFeed] <+: stream := by
      refine List.IsPrefix.trans ⟨rest, ?_⟩ hread
      rw [heq]
      simp only [List.append_assoc]
    have hsame : pending ++ body = first := by
      refine first_unique hline hfirst (fun hmem => ?_) hnone
      rcases List.mem_append.mp hmem with hmem | hmem
      · exact hpending hmem
      · exact hbody hmem
    show Turn.done (.ok (.ofLine (pending ++ (body ++ [lineFeed])))) _ = _
    rw [← List.append_assoc, hsame]

end LineReader

end LoopbackLock
