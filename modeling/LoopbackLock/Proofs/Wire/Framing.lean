import LoopbackLock.Proofs.Wire.Transcript

/-!
# Framing

The results of the calls of a reader are told from the line under way alone, however the bytes are
cut into reads (`LineReader.receiveTimes_script`). Where no end of file comes before the end of the
script and its data ends with a line, they are those the script is to have (`LineReader.framing`).
-/

namespace LoopbackLock

namespace LineReader

open Framing

variable {r : LineReader} {reads : List ReadAnswer}

/-- What a reader has of the line under way when it has taken what it holds. -/
def held (r : LineReader) : Held :=
  ⟨rest (r.pending ++ r.buffered), r.buffered ≠ [] && rest (r.pending ++ r.buffered) ≠ []⟩

/-- The results of a reader: of the lines it holds, and of the reads to come. -/
def ahead (r : LineReader) (reads : List ReadAnswer) : List Received :=
  (lines (r.pending ++ r.buffered)).map (fun line => .ok (.ofLine line)) ++ r.held.told reads

/-- An end of file on end, so many times. -/
abbrev ends (n : Nat) : List ReadAnswer := List.replicate n (.ok [])

/-- A reader that holds no buffered bytes has none of its line from this call. -/
theorem ahead_of_pending {pending : Bytes} (h : lineFeed ∉ pending) :
    ahead ⟨[], pending⟩ reads = Held.told ⟨pending, false⟩ reads := by
  unfold ahead held
  rw [List.append_nil, lines_open h, rest_open h]
  rfl

/-- After a line a reader has what came behind it. -/
theorem held_after (after : Bytes) : held ⟨after, []⟩ = ⟨rest after, rest after ≠ []⟩ := by
  unfold held
  rcases after with _ | ⟨c, cs⟩ <;> rfl

/-- The end of file ends the call of a starved reader. -/
theorem supply_end {pending : Bytes} (fresh : Bool) (hopen : lineFeed ∉ pending)
    (reads : List ReadAnswer) :
    ∃ result next, supply ⟨[], pending⟩ fresh (.ok []) = .done result next ∧
      lineFeed ∉ next.pending ∧
      Held.told ⟨pending, fresh⟩ (.ok [] :: reads) = result :: next.ahead reads := by
  rcases fresh with _ | _
  · exact ⟨.ok .closed, ⟨[], pending⟩, rfl, hopen, by rw [ahead_of_pending hopen]; rfl⟩
  · exact ⟨.ok (.ofLine pending), {}, rfl, List.not_mem_nil, rfl⟩

/-- Data ends the call of a starved reader with the first line that it ends, if it ends one. -/
theorem supply_data {pending bytes : Bytes} (fresh : Bool) (hopen : lineFeed ∉ pending)
    (hne : bytes ≠ []) (reads : List ReadAnswer) :
    (∃ result next, supply ⟨[], pending⟩ fresh (.ok bytes) = .done result next ∧
      lineFeed ∉ next.pending ∧
      Held.told ⟨pending, fresh⟩ (.ok bytes :: reads) = result :: next.ahead reads) ∨
    lineFeed ∉ pending ++ bytes ∧
      supply ⟨[], pending⟩ fresh (.ok bytes) = .starved ⟨[], pending ++ bytes⟩ true ∧
      Held.told ⟨pending, fresh⟩ (.ok bytes :: reads) =
        Held.told ⟨pending ++ bytes, true⟩ reads := by
  obtain ⟨b, bs, rfl⟩ := List.exists_cons_of_ne_nil hne
  have htold : Held.told ⟨pending, fresh⟩ (.ok (b :: bs) :: reads) =
      (lines (pending ++ b :: bs)).map (fun line => .ok (.ofLine line)) ++
        Held.told ⟨rest (pending ++ b :: bs), rest (pending ++ b :: bs) ≠ []⟩ reads := rfl
  have hwork : supply ⟨[], pending⟩ fresh (.ok (b :: bs)) = work ⟨b :: bs, pending⟩ fresh := rfl
  rcases hsplit : splitLine (b :: bs) with _ | ⟨line, after⟩
  · right
    have hnone : lineFeed ∉ pending ++ b :: bs := by
      simpa [hopen] using splitLine_eq_none hsplit
    refine ⟨hnone, ?_, ?_⟩
    · rw [hwork, work, hsplit]
      simp
    · rw [htold, lines_open hnone, rest_open hnone]
      simp
  · left
    obtain ⟨heq, body, rfl, hbody⟩ := splitLine_eq_some hsplit
    refine ⟨.ok (.ofLine (pending ++ (body ++ [lineFeed]))), ⟨after, []⟩, ?_, List.not_mem_nil, ?_⟩
    · rw [hwork, work, hsplit]
    · have hline : pending ++ b :: bs = (pending ++ body) ++ lineFeed :: after := by
        rw [heq]
        simp
      have hnone : lineFeed ∉ pending ++ body := by simp [hopen, hbody]
      rw [htold, hline, lines_line hnone, rest_line hnone, ahead, held_after]
      simp

/-- The next result of a starved reader, and what is ahead of it after that. -/
theorem finish_starved {pending : Bytes} {fresh : Bool} (hopen : lineFeed ∉ pending) (m : Nat) :
    ∃ result next reads' m', finish (.starved ⟨[], pending⟩ fresh) reads = (result, next, reads') ∧
      lineFeed ∉ next.pending ∧ m ≤ m' ∧
      Held.told ⟨pending, fresh⟩ (reads ++ ends (m + 1)) =
        result :: next.ahead (reads' ++ ends m') := by
  induction reads generalizing pending fresh with
  | nil =>
    obtain ⟨result, next, hs, hopen', htold⟩ := supply_end fresh hopen (ends m)
    refine ⟨result, next, [], m, ?_, hopen', Nat.le_refl m, htold⟩
    rw [finish, hs]
  | cons read reads ih =>
    rw [finish]
    have hdone : ∀ {result next}, supply ⟨[], pending⟩ fresh read = .done result next →
        finish (supply ⟨[], pending⟩ fresh read) reads = (result, next, reads) := by
      intro result next hs
      rw [hs, finish]
    rcases read with k | (_ | ⟨b, bs⟩)
    · by_cases hk : k = .interrupted
      · subst hk
        exact ih hopen
      · have hs : supply ⟨[], pending⟩ fresh (.error k) = .done (.error k) ⟨[], pending⟩ := by
          cases k <;> first | exact absurd rfl hk | rfl
        have hresults : Held.told ⟨pending, fresh⟩ (.error k :: (reads ++ ends (m + 1))) =
            .error k :: Held.told ⟨pending, false⟩ (reads ++ ends (m + 1)) := by
          cases k <;> first | exact absurd rfl hk | rfl
        refine ⟨_, _, reads, m + 1, hdone hs, hopen, Nat.le_succ m, ?_⟩
        rw [ahead_of_pending hopen]
        exact hresults
    · obtain ⟨result, next, hs, hopen', htold⟩ :=
        supply_end fresh hopen (reads ++ ends (m + 1))
      exact ⟨result, next, reads, m + 1, hdone hs, hopen', Nat.le_succ m, htold⟩
    · rcases supply_data fresh hopen (List.cons_ne_nil b bs)
        (reads ++ ends (m + 1)) with ⟨result, next, hs, hopen', htold⟩ | ⟨hopen', hs, htold⟩
      · exact ⟨result, next, reads, m + 1, hdone hs, hopen', Nat.le_succ m, htold⟩
      · rw [hs, List.cons_append, htold]
        exact ih hopen'

/-- A call of a reader returns the next result that is ahead of it. -/
theorem receive_ahead (reads : List ReadAnswer) (hopen : lineFeed ∉ r.pending) (m : Nat) :
    ∃ result next reads' m', r.receive reads = (result, next, reads') ∧
      lineFeed ∉ next.pending ∧ m ≤ m' ∧
      r.ahead (reads ++ ends (m + 1)) = result :: next.ahead (reads' ++ ends m') := by
  obtain ⟨buffered, pending⟩ := r
  unfold receive start work
  simp only
  rcases hsplit : splitLine buffered with _ | ⟨line, after⟩
  · have hnone : lineFeed ∉ pending ++ buffered := by
      simpa [show lineFeed ∉ pending from hopen] using splitLine_eq_none hsplit
    have hahead : ahead ⟨buffered, pending⟩ (reads ++ ends (m + 1)) =
        Held.told ⟨pending ++ buffered, !buffered.isEmpty⟩ (reads ++ ends (m + 1)) := by
      unfold ahead held
      simp only
      rw [lines_open hnone, rest_open hnone]
      rcases buffered with _ | ⟨b, bs⟩ <;> simp
    rw [hahead]
    exact finish_starved hnone m
  · obtain ⟨rfl, body, rfl, hbody⟩ := splitLine_eq_some hsplit
    have hnone : lineFeed ∉ pending ++ body := by
      simpa [hbody] using hopen
    refine ⟨_, ⟨after, []⟩, reads, m + 1, by rw [finish], List.not_mem_nil, Nat.le_succ m, ?_⟩
    have hline : pending ++ (body ++ [lineFeed] ++ after) =
        (pending ++ body) ++ lineFeed :: after := by
      simp
    have hheld : held ⟨body ++ [lineFeed] ++ after, pending⟩ = ⟨rest after, rest after ≠ []⟩ := by
      unfold held
      simp only
      rw [hline, rest_line hnone]
      simp
    unfold ahead
    rw [hheld, held_after]
    simp only
    rw [hline, lines_line hnone]
    simp

/-- The results of the calls of a reader are those that are ahead of it. -/
theorem receiveTimes_eq (hopen : lineFeed ∉ r.pending) {n m : Nat} (hle : n ≤ m) :
    (receiveTimes n r reads).1 = (r.ahead (reads ++ ends m)).take n := by
  induction n generalizing r reads m with
  | zero => rfl
  | succ n ih =>
    obtain ⟨m, rfl⟩ : ∃ k, m = k + 1 := ⟨m - 1, by omega⟩
    obtain ⟨result, next, reads', m', hreceive, hopen', hle', hahead⟩ :=
      receive_ahead reads hopen m
    rw [receiveTimes, hreceive, hahead]
    exact congrArg (result :: ·) (ih hopen' (by omega))

theorem told_ends (n : Nat) : Held.told {} (ends n) = List.replicate n (.ok .closed) := by
  induction n with
  | zero => rfl
  | succ n ih => exact congrArg (.ok .closed :: ·) ih

/-- The results of a new reader are told from the script, however its chunks are cut. -/
theorem receiveTimes_script (script : List ReadAnswer) (n : Nat) :
    (receiveTimes n {} (readsOfScript script).flatten).1 =
      (Held.told {} (script ++ ends n)).take n := by
  rw [receiveTimes_eq List.not_mem_nil (Nat.le_refl n), ahead_of_pending List.not_mem_nil,
    Held.told_readsOfScript]

/-- A script of data and failures whose data is empty or ends with a line: its calls return the
transcript, and from then on that the stream is closed. Up to any place the transcript has the lines
and the failures of the script up to there, so each failure stands between the lines ended before it
and those ended behind it. The lines are the data, cut behind its line feeds. -/
theorem framing {script : List ReadAnswer} (hdata : (.ok [] : ReadAnswer) ∉ script)
    (hend : data script = [] ∨ ∃ body, data script = body ++ [lineFeed]) :
    (∀ n, (receiveTimes n {} (readsOfScript script).flatten).1 =
        (transcript script ++ List.replicate n (.ok .closed : Received)).take n) ∧
      (∀ before after, script = before ++ after →
        transcript before <+: transcript script ∧
        heard (transcript before) = (lines (data before)).map .ofLine ∧
        faults (transcript before) = (faults before).filter (· ≠ .interrupted)) ∧
      (∀ before k after, script = before ++ .error k :: after → k ≠ .interrupted →
        transcript before ++ [.error k] <+: transcript script) ∧
      (lines (data script)).flatten = data script ∧ ∀ line ∈ lines (data script), IsLine line := by
  refine ⟨fun n => ?_, ?_, ?_, ?_, fun _ => isLine_of_mem⟩
  · have hnone : ∀ before after, script ≠ before ++ .ok [] :: after := by
      rintro before after rfl
      exact hdata (List.mem_append_right _ List.mem_cons_self)
    obtain ⟨htold, hlast⟩ := Held.Agrees.start.run fun before after heq =>
      absurd heq (hnone before after)
    have hnil : script.foldl feed [] = [] :=
      (foldl_feed hdata List.not_mem_nil).trans (rest_eq_nil hend)
    rw [hnil] at hlast
    rw [receiveTimes_script, Held.told_append, hlast.eq_start, told_ends, htold]
    rfl
  · rintro before after rfl
    have hbefore : (.ok [] : ReadAnswer) ∉ before := fun hmem => hdata (List.mem_append_left _ hmem)
    exact ⟨transcript_append before after ▸ List.prefix_append ..,
      heard_outputs hbefore List.not_mem_nil, faults_outputs before⟩
  · rintro before k after rfl hk
    refine ⟨outputs feed results (before.foldl feed []) after, ?_⟩
    have hone : results (before.foldl feed []) (.error k) = [.error k] := by
      cases k <;> first | exact absurd rfl hk | rfl
    rw [transcript_append, outputs, hone, List.append_assoc]
    rfl
  · have hall := flatten_lines (data script)
    rwa [rest_eq_nil hend, List.append_nil] at hall

/-- Two lines in three pieces, with a time-out and an interruption between them. -/
def brokenScript : List ReadAnswer :=
  [.ok (Text.encode "PORT_LOCK::REL"), .error .wouldBlock, .ok (Text.encode "EASE\nhel"),
    .error .interrupted, .ok (Text.encode "lo\n")]

theorem broken_script_framed :
    (receiveTimes 4 {} (readsOfScript brokenScript).flatten).1 =
      [.error .wouldBlock, .ok (.message .release), .ok (.unexpected "hello"), .ok .closed] := by
  have hframed := (@framing brokenScript (by simp [brokenScript]; decide +kernel)
    (.inr ⟨Text.encode "PORT_LOCK::RELEASE\nhello", by decide +kernel⟩)).1 4
  rw [hframed]
  decide +kernel

end LineReader

end LoopbackLock
