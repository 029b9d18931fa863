import LoopbackLock.Proofs.Wire.Announced
import LoopbackLock.Proofs.Wire.EndOfFile

/-!
# How a stream opens

A stream opens with its first line, with an end of file, or with a read that fails before the line
is over (`Framing.Opens`); interrupted reads do not count. `LineReader.Takes` relates the reads that
a call of a reader uses to the turn they bring it to. The first call ends with what the stream opens
with (`Framing.Opens.takes`), and where it ended so has the stream opened, however it goes on
(`Framing.opens_of_takes`). In any call, a line is made of the bytes that the reader had and read
(`LineReader.line_of_receive`).
-/

namespace LoopbackLock

/-- What a stream opens with. -/
inductive Opening
  /-- A line, ended by a line feed or by the end of the stream. -/
  | line (bytes : Bytes)
  /-- The end of the stream. -/
  | nothing
  /-- A failing read, before the first line is over. -/
  | broken (k : FaultKind)
  deriving DecidableEq, Repr

/-- What the first call of a reader returns. -/
def Opening.received : Opening → Received
  | line bytes => .ok (.ofLine bytes)
  | nothing => .ok .closed
  | broken k => .error k

namespace Framing

/-- Reads that bring data or are interrupted. -/
def Flowing (reads : List ReadAnswer) : Prop :=
  ∀ read ∈ reads, read = .error .interrupted ∨ ∃ bytes, bytes ≠ [] ∧ read = .ok bytes

/-- What reads open with: the first line that their data ends, if none fails before; the data, if
the end of the stream comes upon it; else the end of the stream, or a failure. -/
inductive Opens : List ReadAnswer → Opening → Prop
  | whole {before after : List ReadAnswer} {body rest : Bytes} (hflow : Flowing before)
    (hbody : lineFeed ∉ body) (hdata : data before = body ++ lineFeed :: rest) :
    Opens (before ++ after) (.line (body ++ [lineFeed]))
  | last {before after : List ReadAnswer} (hflow : Flowing before)
    (hopen : lineFeed ∉ data before) (hne : data before ≠ []) :
    Opens (before ++ .ok [] :: after) (.line (data before))
  | nothing {before after : List ReadAnswer} (hflow : Flowing before)
    (hnone : data before = []) : Opens (before ++ .ok [] :: after) .nothing
  | broken {before after : List ReadAnswer} {k : FaultKind} (hflow : Flowing before)
    (hopen : lineFeed ∉ data before) (hk : k ≠ .interrupted) :
    Opens (before ++ .error k :: after) (.broken k)

variable {before reads after : List ReadAnswer} {taken body : Bytes}

theorem flowing_nil : Flowing [] := fun _ h => nomatch h

theorem flowing_cons {read : ReadAnswer} : Flowing (read :: reads) ↔
    (read = .error .interrupted ∨ ∃ bytes, bytes ≠ [] ∧ read = .ok bytes) ∧ Flowing reads :=
  List.forall_mem_cons

theorem Flowing.append (h : Flowing before) (h' : Flowing after) : Flowing (before ++ after) :=
  fun read hmem => (List.mem_append.mp hmem).elim (h read) (h' read)

theorem data_append (before after : List ReadAnswer) :
    data (before ++ after) = data before ++ data after := by
  induction before with
  | nil => rfl
  | cons read before ih =>
    rcases read with k | bytes
    · exact ih
    · rw [List.cons_append, data, data, ih, List.append_assoc]

/-- A stream is cut at its first line feed in one way. -/
theorem line_unique {body' rest rest' : Bytes}
    (h : body ++ lineFeed :: rest = body' ++ lineFeed :: rest') (hbody : lineFeed ∉ body)
    (hbody' : lineFeed ∉ body') : body = body' ∧ rest = rest' := by
  have hline : body ++ [lineFeed] <+: body ++ lineFeed :: rest := ⟨rest, by simp⟩
  have hline' : body' ++ [lineFeed] <+: body ++ lineFeed :: rest := ⟨rest', by rw [h]; simp⟩
  obtain rfl := LineReader.first_unique hline hline' hbody hbody'
  exact ⟨rfl, (List.cons.inj (List.append_cancel_left h)).2⟩

/-- Reads that flow end no line, or end one with a certain piece of data. -/
theorem Flowing.split {rest : Bytes} (h : Flowing reads) (htaken : lineFeed ∉ taken)
    (hbody : lineFeed ∉ body) (hdata : taken ++ data reads = body ++ lineFeed :: rest) :
    ∃ before piece after behind, reads = before ++ .ok piece :: after ∧ piece ≠ [] ∧
      lineFeed ∉ taken ++ data before ∧
      (taken ++ data before) ++ piece = body ++ lineFeed :: behind ∧ behind ++ data after = rest := by
  induction reads generalizing taken with
  | nil =>
    refine absurd ?_ htaken
    rw [data, List.append_nil] at hdata
    rw [hdata]
    exact List.mem_append_right _ List.mem_cons_self
  | cons read reads ih =>
    obtain ⟨rfl | ⟨piece, hne, rfl⟩, hrest⟩ := flowing_cons.mp h
    · obtain ⟨before, piece, after, behind, rfl, hpiece⟩ := ih hrest htaken hdata
      exact ⟨.error .interrupted :: before, piece, after, behind, rfl, hpiece⟩
    · rw [data, ← List.append_assoc] at hdata
      by_cases hopen : lineFeed ∈ taken ++ piece
      · rcases hsplit : LineReader.splitLine (taken ++ piece) with _ | ⟨line, behind⟩
        · exact absurd hopen (LineReader.splitLine_eq_none hsplit)
        obtain ⟨heq, first, rfl, hfirst⟩ := LineReader.splitLine_eq_some hsplit
        have hline : taken ++ piece = first ++ lineFeed :: behind := by
          rw [heq, List.append_assoc]
          rfl
        rw [hline, List.append_assoc, List.cons_append] at hdata
        obtain ⟨rfl, hrest⟩ := line_unique hdata hfirst hbody
        exact ⟨[], piece, reads, behind, rfl, hne, by simpa [data] using htaken,
          by simpa [data] using hline, hrest⟩
      · obtain ⟨before, piece', after, behind, rfl, hpiece', hopen', hline, hrest⟩ :=
          ih hrest hopen hdata
        refine ⟨.ok piece :: before, piece', after, behind, rfl, hpiece', ?_⟩
        rw [data, ← List.append_assoc]
        exact ⟨hopen', hline, hrest⟩

/-- Reads to which the end of the stream comes open with something. -/
theorem exists_opens (reads : List ReadAnswer) : ∃ o, Opens (reads ++ [.ok []]) o := by
  suffices h : ∀ before, Flowing before → lineFeed ∉ data before →
      ∃ o, Opens (before ++ (reads ++ [.ok []])) o from h [] flowing_nil List.not_mem_nil
  induction reads with
  | nil =>
    intro before hflow hopen
    by_cases hnone : data before = []
    · exact ⟨_, .nothing hflow hnone⟩
    · exact ⟨_, .last hflow hopen hnone⟩
  | cons read reads ih =>
    intro before hflow hopen
    rcases read with k | (_ | ⟨b, bs⟩)
    · by_cases hk : k = .interrupted
      · have hflow' : Flowing (before ++ [.error k]) :=
          hflow.append (flowing_cons.mpr ⟨.inl (by rw [hk]), flowing_nil⟩)
        have hone := ih _ hflow' (by rwa [data_append, data, data, List.append_nil])
        rwa [List.append_assoc] at hone
      · exact ⟨_, .broken hflow hopen hk⟩
    · by_cases hnone : data before = []
      · exact ⟨_, .nothing hflow hnone⟩
      · exact ⟨_, .last hflow hopen hnone⟩
    · have hflow' : Flowing (before ++ [.ok (b :: bs)]) :=
        hflow.append (flowing_cons.mpr ⟨.inr ⟨_, List.cons_ne_nil b bs, rfl⟩, flowing_nil⟩)
      have hdata : data (before ++ [.ok (b :: bs)]) = data before ++ b :: bs := by
        rw [data_append, data, data, List.append_nil]
      have hsplit : before ++ (.ok (b :: bs) :: reads ++ [.ok []]) =
          (before ++ [.ok (b :: bs)]) ++ (reads ++ [.ok []]) := by simp
      rw [hsplit]
      rcases h : LineReader.splitLine (data before ++ b :: bs) with _ | ⟨line, rest⟩
      · exact ih _ hflow' (hdata ▸ LineReader.splitLine_eq_none h)
      · obtain ⟨heq, body, rfl, hbody⟩ := LineReader.splitLine_eq_some h
        have hline : data (before ++ [.ok (b :: bs)]) = body ++ lineFeed :: rest := by
          rw [hdata, heq, List.append_assoc]
          rfl
        exact ⟨_, .whole hflow' hbody hline⟩

end Framing

/-! ## The reads of a call -/

namespace LineReader

open Framing

/-- The reads, one by one, bring a call from one turn to another. -/
inductive Takes : Turn → List ReadAnswer → Turn → Prop
  | none {t : Turn} : Takes t [] t
  | read {r : LineReader} {begun : Bool} {read : ReadAnswer} {reads : List ReadAnswer} {t : Turn}
    (htail : Takes (r.supply begun read) reads t) : Takes (.starved r begun) (read :: reads) t

variable {r next : LineReader} {begun : Bool} {t t' : Turn} {used reads left : List ReadAnswer}
  {taken body bytes rest : Bytes} {result : Received} {h : Heard}

theorem Takes.trans {t'' : Turn} (h : Takes t used t') (h' : Takes t' reads t'') :
    Takes t (used ++ reads) t'' := by
  induction h with
  | none => exact h'
  | read _ ih => exact .read (ih h')

/-- A call that is over takes no more reads. -/
theorem Takes.of_done (h : Takes (.done result next) used t) : used = [] ∧ t = .done result next := by
  cases h
  exact ⟨rfl, rfl⟩

/-- A call that some reads bring to its end takes no more than these. -/
theorem Takes.unique {more : List ReadAnswer} (h : Takes t used (.done result next))
    (h' : Takes t (used ++ more) t') : more = [] ∧ t' = .done result next := by
  generalize hend : Turn.done result next = e at h
  induction h with
  | none =>
    subst hend
    exact h'.of_done
  | read _ ih =>
    cases h'
    case read htail => exact ih htail hend

theorem Takes.finish (h : Takes t used t') (rest : List ReadAnswer) :
    finish t (used ++ rest) = LineReader.finish t' rest := by
  induction h with
  | none => rfl
  | read _ ih => rw [List.cons_append, LineReader.finish, ih]

/-- The end of the stream ends a call. -/
theorem supply_nil (r : LineReader) (begun : Bool) :
    ∃ result next, r.supply begun (.ok []) = .done result next := by
  cases begun
  · exact ⟨_, _, rfl⟩
  · exact ⟨_, _, rfl⟩

/-- A call has taken the reads that are not left, and the end of the stream if it had to. -/
theorem takes_of_finish (h : finish t reads = (result, next, left)) :
    ∃ used, (used ++ left = reads ∨ left = [] ∧ used = reads ++ [.ok []]) ∧
      Takes t used (.done result next) := by
  induction reads generalizing t with
  | nil =>
    rcases t with ⟨result', next'⟩ | ⟨r, begun⟩
    · rw [finish] at h
      cases h
      exact ⟨[], .inl rfl, .none⟩
    · obtain ⟨result', next', hsupply⟩ := supply_nil r begun
      rw [finish, hsupply] at h
      cases h
      exact ⟨[.ok []], .inr ⟨rfl, rfl⟩, .read (hsupply ▸ .none)⟩
  | cons read reads ih =>
    rcases t with ⟨result', next'⟩ | ⟨r, begun⟩
    · rw [finish] at h
      cases h
      exact ⟨[], .inl rfl, .none⟩
    · rw [finish] at h
      obtain ⟨used, hused | ⟨hleft, hused⟩, htakes⟩ := ih h
      · exact ⟨read :: used, .inl (by rw [List.cons_append, hused]), .read htakes⟩
      · exact ⟨read :: used, .inr ⟨hleft, by rw [hused]; rfl⟩, .read htakes⟩

/-- Behind its last read a stream is at its end. -/
theorem finish_append_nil (t : Turn) (reads : List ReadAnswer) :
    (LineReader.finish t (reads ++ [.ok []])).1 = (LineReader.finish t reads).1 := by
  rcases t with ⟨result, next⟩ | ⟨r, begun⟩
  · rw [LineReader.finish, LineReader.finish]
  · induction reads generalizing r begun with
    | nil =>
      obtain ⟨result, next, hsupply⟩ := supply_nil r begun
      simp only [List.nil_append, LineReader.finish, hsupply]
    | cons read reads ih =>
      rw [List.cons_append, LineReader.finish, LineReader.finish]
      rcases r.supply begun read with ⟨result, next⟩ | ⟨r', begun'⟩
      · rw [LineReader.finish, LineReader.finish]
      · exact ih r' begun'

/-- Data ends the line under way, or goes on with it. -/
theorem supply_cases (hopen : lineFeed ∉ taken) (hne : bytes ≠ []) (begun : Bool) :
    (∃ body rest, lineFeed ∉ body ∧ taken ++ bytes = body ++ lineFeed :: rest ∧
      supply ⟨[], taken⟩ begun (.ok bytes) =
        .done (.ok (.ofLine (body ++ [lineFeed]))) ⟨rest, []⟩) ∨
    lineFeed ∉ taken ++ bytes ∧
      supply ⟨[], taken⟩ begun (.ok bytes) = .starved ⟨[], taken ++ bytes⟩ true := by
  obtain ⟨b, bs, rfl⟩ := List.exists_cons_of_ne_nil hne
  rcases work_cases (r := ⟨b :: bs, taken⟩) hopen begun with hline | ⟨hdrained, begun', hstarved⟩
  · exact .inl hline
  · refine .inr ⟨hdrained.pending, ?_⟩
    show work ⟨b :: bs, taken⟩ begun = _
    unfold work at hstarved ⊢
    split at hstarved
    · cases hstarved
    · simp

theorem supply_of_line (hopen : lineFeed ∉ taken) (hne : bytes ≠ []) (hbody : lineFeed ∉ body)
    (hdata : taken ++ bytes = body ++ lineFeed :: rest) (begun : Bool) :
    supply ⟨[], taken⟩ begun (.ok bytes) =
      .done (.ok (.ofLine (body ++ [lineFeed]))) ⟨rest, []⟩ := by
  rcases supply_cases hopen hne begun with ⟨body', rest', hbody', heq, hsupply⟩ | ⟨hnone, -⟩
  · obtain ⟨rfl, rfl⟩ := line_unique (heq.symm.trans hdata) hbody' hbody
    exact hsupply
  · refine absurd ?_ hnone
    rw [hdata]
    exact List.mem_append_right _ List.mem_cons_self

/-- Reads that flow and end no line go on with the line under way. -/
theorem takes_flowing (hflow : Flowing reads) (hopen : lineFeed ∉ taken ++ data reads) :
    Takes (.starved ⟨[], taken⟩ begun) reads
      (.starved ⟨[], taken ++ data reads⟩ (begun || !(data reads).isEmpty)) := by
  induction reads generalizing taken begun with
  | nil =>
    rw [data, List.append_nil, List.isEmpty_nil, Bool.not_true, Bool.or_false]
    exact .none
  | cons read reads ih =>
    obtain ⟨rfl | ⟨piece, hne, rfl⟩, hrest⟩ := flowing_cons.mp hflow
    · exact .read (ih hrest hopen)
    · rw [data, ← List.append_assoc] at hopen ⊢
      have hpiece : lineFeed ∉ taken ++ piece := fun hmem => hopen (List.mem_append_left _ hmem)
      have htaken : lineFeed ∉ taken := fun hmem => hpiece (List.mem_append_left _ hmem)
      rcases supply_cases htaken hne begun with ⟨body, rest, -, heq, -⟩ | ⟨-, hsupply⟩
      · refine absurd ?_ hpiece
        rw [heq]
        exact List.mem_append_right _ List.mem_cons_self
      · have hbegun : (begun || !(piece ++ data reads).isEmpty) = true := by simp [hne]
        have htail := @ih true (taken ++ piece) hrest hopen
        rw [Bool.true_or] at htail
        rw [hbegun]
        exact .read (hsupply ▸ htail)

/-- Reads that flow until their data ends a line. -/
theorem takes_line (hflow : Flowing reads) (hopen : lineFeed ∉ taken) (hbody : lineFeed ∉ body)
    (hdata : taken ++ data reads = body ++ lineFeed :: rest) :
    ∃ used left behind, reads = used ++ left ∧ behind ++ data left = rest ∧
      Takes (.starved ⟨[], taken⟩ begun) used
        (.done (.ok (.ofLine (body ++ [lineFeed]))) ⟨behind, []⟩) := by
  obtain ⟨before, piece, after, behind, rfl, hne, hopen', hline, hrest⟩ :=
    hflow.split hopen hbody hdata
  refine ⟨before ++ [.ok piece], after, behind, by simp, hrest, ?_⟩
  refine (takes_flowing (fun read hmem => hflow read (List.mem_append_left _ hmem)) hopen').trans ?_
  exact .read (supply_of_line hopen' hne hbody hline _ ▸ .none)

/-- A line is made of what the call had and what it read, and the rest of that stays. -/
theorem Takes.line (htakes : Takes (.starved ⟨[], taken⟩ begun) used (.done (.ok h) next))
    (hopen : lineFeed ∉ taken) (hbegun : begun = true → taken ≠ []) (hclosed : h ≠ .closed) :
    ∃ line, h = .ofLine line ∧ line ≠ [] ∧ lineFeed ∉ line.dropLast ∧ next.pending = [] ∧
      taken ++ data used = line ++ next.buffered := by
  induction used generalizing taken begun with
  | nil => cases htakes
  | cons read used ih =>
    cases htakes
    case read htail =>
    rcases read with k | (_ | ⟨b, bs⟩)
    · by_cases hk : k = .interrupted
      · subst hk
        exact ih htail hopen hbegun
      · have hsupply : supply ⟨[], taken⟩ begun (.error k) = .done (.error k) ⟨[], taken⟩ := by
          cases k <;> first | exact absurd rfl hk | rfl
        rw [hsupply] at htail
        cases htail
    · cases begun
      · cases htail
        exact absurd rfl hclosed
      · cases htail
        refine ⟨taken, rfl, hbegun rfl, fun hmem => hopen (List.dropLast_subset _ hmem), rfl, ?_⟩
        simp [data]
    · rcases supply_cases hopen (List.cons_ne_nil b bs) begun with
        ⟨body, rest, hbody, heq, hsupply⟩ | ⟨hopen', hsupply⟩
      · rw [hsupply] at htail
        obtain ⟨rfl, hdone⟩ := htail.of_done
        cases hdone
        refine ⟨body ++ [lineFeed], rfl, by simp, by simpa using hbody, rfl, ?_⟩
        rw [data, data, List.append_nil, heq]
        simp
      · rw [hsupply] at htail
        obtain ⟨line, hline, hne, hfeed, hpending, heq⟩ := ih htail hopen' fun _ => by simp
        exact ⟨line, hline, hne, hfeed, hpending, by rw [data, ← heq, List.append_assoc]⟩

/-- Every call that does not find the stream closed, nor a failure, takes a line off its stream. -/
theorem line_of_receive (hopen : lineFeed ∉ r.pending)
    (hreceive : r.receive reads = (.ok h, next, left)) (hclosed : h ≠ .closed) :
    ∃ used line, reads = used ++ left ∧ h = .ofLine line ∧ line ≠ [] ∧ lineFeed ∉ line.dropLast ∧
      next.pending = [] ∧ r.pending ++ r.buffered ++ data used = line ++ next.buffered := by
  obtain ⟨used, hused, htakes⟩ := takes_of_finish hreceive
  -- The end of the stream behind the last read brings no data.
  obtain ⟨read, hread, hdata⟩ : ∃ read, reads = read ++ left ∧ data read = data used := by
    rcases hused with rfl | ⟨rfl, rfl⟩
    · exact ⟨used, rfl, rfl⟩
    · refine ⟨reads, by simp, ?_⟩
      rw [data_append]
      simp [data]
  refine ⟨read, ?_⟩
  rw [hdata]
  rcases work_cases hopen false with ⟨body, rest, hbody, heq, hdone⟩ | ⟨hdrained, begun, hstarved⟩
  · rw [start, hdone] at htakes
    obtain ⟨rfl, hend⟩ := htakes.of_done
    cases hend
    refine ⟨body ++ [lineFeed], hread, rfl, by simp, by simpa using hbody, rfl, ?_⟩
    rw [heq]
    simp [data]
  · have hbegun : begun = true → r.pending ++ r.buffered ≠ [] := by
      unfold work at hstarved
      split at hstarved
      · cases hstarved
      · cases hstarved
        intro hsome hnone
        rw [(List.append_eq_nil_iff.mp hnone).2] at hsome
        cases hsome
    rw [start, hstarved] at htakes
    obtain ⟨line, hline⟩ := htakes.line hdrained.pending hbegun hclosed
    exact ⟨line, hread, hline⟩

end LineReader

/-! ## The first call -/

namespace Framing

open LineReader

variable {reads used : List ReadAnswer} {o : Opening} {result : Received} {next : LineReader}

/-- The first call ends with what the stream opens with, and has seen as much of it as it takes. -/
theorem Opens.takes (h : Opens reads o) :
    ∃ used left next, reads = used ++ left ∧
      Takes ({} : LineReader).start used (.done o.received next) ∧
      ∀ after, Opens (used ++ after) o := by
  have hstart : ({} : LineReader).start = .starved ⟨[], []⟩ false := rfl
  rw [hstart]
  cases h with
  | @whole before after body rest hflow hbody hdata =>
    obtain ⟨used, left, behind, rfl, hbehind, htakes⟩ :=
      takes_line hflow List.not_mem_nil hbody hdata
    have hused : data used = body ++ lineFeed :: behind := by
      rw [data_append, ← hbehind] at hdata
      rw [← List.cons_append, ← List.append_assoc] at hdata
      exact List.append_cancel_right hdata
    exact ⟨used, _, _, List.append_assoc .., htakes, fun after =>
      .whole (fun read hmem => hflow read (List.mem_append_left _ hmem)) hbody hused⟩
  | @last before after hflow hopen hne =>
    refine ⟨before ++ [.ok []], after, {}, by simp,
      (takes_flowing hflow hopen).trans (.read ?_), fun after => ?_⟩
    · rw [List.nil_append, Bool.false_or, List.isEmpty_eq_false_iff.mpr hne]
      exact .none
    · rw [List.append_assoc]
      exact .last hflow hopen hne
  | @nothing before after hflow hnone =>
    refine ⟨before ++ [.ok []], after, {}, by simp,
      (takes_flowing hflow (by simp [hnone])).trans (.read ?_), fun after => ?_⟩
    · rw [hnone]
      exact .none
    · rw [List.append_assoc]
      exact .nothing hflow hnone
  | @broken before after k hflow hopen hk =>
    refine ⟨before ++ [.error k], after, ⟨[], data before⟩, by simp,
      (takes_flowing hflow hopen).trans (.read ?_), fun after => ?_⟩
    · cases k <;> first | exact absurd rfl hk | exact .none
    · rw [List.append_assoc]
      exact .broken hflow hopen hk

/-- A new reader is told what its stream opens with. -/
theorem receive_of_opens (h : Opens (reads ++ [.ok []]) o) : (receive {} reads).1 = o.received := by
  obtain ⟨used, left, next, hreads, htakes, -⟩ := h.takes
  rw [receive, ← finish_append_nil, hreads, htakes.finish, LineReader.finish]

/-- A line that a stream opens with has no line feed but at its end. -/
theorem Opens.line {line : Bytes} (h : Opens reads (.line line)) :
    line ≠ [] ∧ lineFeed ∉ line.dropLast := by
  cases h with
  | whole _ hbody _ => exact ⟨by simp, by simpa using hbody⟩
  | last _ hopen hne => exact ⟨hne, fun hmem => hopen (List.dropLast_subset _ hmem)⟩

/-- What the first call ended with is what the stream opened with, however it goes on. -/
theorem opens_of_takes (h : Takes ({} : LineReader).start used (.done result next)) :
    ∃ o, o.received = result ∧ ∀ after, Opens (used ++ after) o := by
  obtain ⟨o, hopens⟩ := exists_opens used
  obtain ⟨used', left, next', hreads, htakes, hall⟩ := hopens.takes
  -- Of two calls on one stream neither ends before the other.
  obtain ⟨more, hmore⟩ | ⟨more, hmore⟩ :=
    List.prefix_or_prefix_of_prefix (⟨_, rfl⟩ : used <+: used ++ [.ok []]) ⟨left, hreads.symm⟩
  · subst hmore
    obtain ⟨rfl, hdone⟩ := h.unique htakes
    rw [List.append_nil] at hall
    exact ⟨o, (Turn.done.inj hdone).1, hall⟩
  · subst hmore
    obtain ⟨rfl, hdone⟩ := htakes.unique h
    rw [List.append_nil]
    exact ⟨o, (Turn.done.inj hdone).1.symm, hall⟩

/-- A call that waits for a read has not met what its stream opens with. -/
theorem not_opens_of_starved {r : LineReader} {begun : Bool}
    (h : Takes ({} : LineReader).start reads (.starved r begun)) : ¬ Opens reads o := by
  intro hopens
  obtain ⟨used, left, next, rfl, htakes, -⟩ := hopens.takes
  cases (htakes.unique h).2

/-- The first line is a check. -/
def Checks (reads : List ReadAnswer) : Prop :=
  ∃ line, Opens reads (.line line) ∧ Heard.ofLine line = .message .check

/-- The first line is a check when the first call says so. -/
theorem checks_iff_of_takes (h : Takes ({} : LineReader).start reads (.done result next)) :
    Checks reads ↔ result = .ok (.message .check) := by
  constructor
  · rintro ⟨line, hopens, hcheck⟩
    obtain ⟨used, left, next', rfl, htakes, -⟩ := hopens.takes
    rw [(Turn.done.inj (htakes.unique h).2).1, Opening.received, hcheck]
  · rintro rfl
    obtain ⟨o, hreceived, hall⟩ := opens_of_takes h
    have hopens := hall []
    rw [List.append_nil] at hopens
    cases o
    case line line => exact ⟨line, hopens, by simpa [Opening.received] using hreceived⟩
    all_goals cases hreceived

end Framing

end LoopbackLock
