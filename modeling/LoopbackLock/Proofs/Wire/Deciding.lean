import LoopbackLock.Proofs.Wire.Demand
import Mathlib.Order.Bounds.Basic

/-!
# What results depend on

The results of calls depend on the reads that they issue: they are the same however the stream goes
on behind these (`LineReader.receiveTimes_answers`), and differ when it breaks in two ways before
the last of them (`LineReader.receiveTimes_cut`). So a number of calls take as many chunks off a
script as decide their results, and not one more (`LineReader.reads_on_demand`).
-/

namespace LoopbackLock

namespace LineReader

open Framing

variable {t : Turn} {read : ReadAnswer} {reads : List ReadAnswer} {n : Nat}

/-! ## What calls use of a stream -/

/-- A call depends on the reads that it issues, and on no other. -/
theorem finish_answers (t : Turn) (reads more : List ReadAnswer) :
    finish t (answers (issuedFrom t reads) ++ more) =
      ((finish t reads).1, (finish t reads).2.1, more) := by
  induction reads generalizing t with
  | nil =>
    rcases t with ⟨result, next⟩ | ⟨r, begun⟩
    · simp only [issuedFrom, answers, List.map_nil, List.nil_append, finish]
    · obtain ⟨result, next, hsupply⟩ := supply_nil r begun
      simp only [issuedFrom, answers, List.map_cons, List.map_nil, List.cons_append,
        List.nil_append, finish, hsupply]
  | cons read reads ih =>
    rcases t with ⟨result, next⟩ | ⟨r, begun⟩
    · simp only [issuedFrom, answers, List.map_nil, List.nil_append, finish]
    · rw [issuedFrom, answers, List.map_cons, List.cons_append, finish, finish, ← ih]

theorem receiveTimes_answers (n : Nat) (r : LineReader) (reads more : List ReadAnswer) :
    receiveTimes n r (answers (issued n r reads) ++ more) = ((receiveTimes n r reads).1, more) := by
  induction n generalizing r reads with
  | zero => rfl
  | succ n ih =>
    have hcall := finish_answers r.start reads
      (answers (issued n (r.receive reads).2.1 (r.receive reads).2.2) ++ more)
    rw [issued, answers, List.map_append, List.append_assoc, receiveTimes, receive, hcall]
    simp only [receiveTimes]
    rw [← receive, ih]

/-- A call uses up to one end of file behind the reads of a stream. -/
theorem finish_ends (t : Turn) (reads : List ReadAnswer) (m : Nat) :
    ∃ left, (finish t (reads ++ ends (m + 1))).2.2 = left ++ ends m ∧
      answers (issuedFrom t (reads ++ ends (m + 1))) ++ left = reads ++ ends 1 := by
  induction reads generalizing t with
  | nil =>
    rw [List.nil_append, ends, List.replicate_succ]
    rcases t with ⟨result, next⟩ | ⟨r, begun⟩
    · exact ⟨ends 1, by rw [finish]; rfl, by rw [issuedFrom]; rfl⟩
    · obtain ⟨result, next, hsupply⟩ := supply_nil r begun
      exact ⟨[], by rw [finish, hsupply, finish]; rfl, by rw [issuedFrom, hsupply, issuedFrom]; rfl⟩
  | cons read reads ih =>
    rw [List.cons_append]
    rcases t with ⟨result, next⟩ | ⟨r, begun⟩
    · refine ⟨read :: reads ++ ends 1, ?_, by rw [issuedFrom]; rfl⟩
      rw [finish, List.append_assoc, List.cons_append]
      simp only [List.append_cancel_left_eq, List.cons.injEq, true_and]
      rfl
    · obtain ⟨left, hleft, hissued⟩ := ih (r.supply begun read)
      refine ⟨left, by rw [finish, hleft], ?_⟩
      rw [issuedFrom, answers, List.map_cons, List.cons_append, hissued]
      rfl

/-- A number of calls on a stream with as many ends of file behind it use what they issue. -/
theorem answers_issued (n : Nat) (r : LineReader) (reads : List ReadAnswer) :
    answers (issued n r (reads ++ ends n)) ++ (receiveTimes n r (reads ++ ends n)).2 =
      reads ++ ends n := by
  induction n generalizing r reads with
  | zero => rfl
  | succ n ih =>
    obtain ⟨left, hleft, hissued⟩ := finish_ends r.start reads n
    rw [← receive] at hleft
    have hrest := ih (r.receive (reads ++ ends (n + 1))).2.1 left
    simp only [receiveTimes, issued]
    rw [hleft, answers, List.map_append, List.append_assoc, hrest, ← List.append_assoc, hissued,
      List.append_assoc]
    rfl

/-! ## What results depend on -/

/-- A stream that breaks before the last read that a call issues breaks the call. -/
theorem finish_cut {k : FaultKind} (hk : k ≠ .interrupted) {cut rest : List ReadAnswer}
    (hcut : answers (issuedFrom t reads) = cut ++ read :: rest) (more : List ReadAnswer) :
    (finish t (cut ++ .error k :: more)).1 = .error k := by
  induction cut generalizing t reads with
  | nil =>
    rcases t with ⟨result, next⟩ | ⟨r, begun⟩
    · simp [issuedFrom] at hcut
    · rw [List.nil_append, finish]
      have hsupply : r.supply begun (.error k) = .done (.error k) r := by
        cases k <;> first | exact absurd rfl hk | rfl
      rw [hsupply, finish]
  | cons a cut ih =>
    rcases t with ⟨result, next⟩ | ⟨r, begun⟩
    · simp [issuedFrom] at hcut
    · cases reads with
      | nil => simp [issuedFrom] at hcut
      | cons a' reads =>
        rw [issuedFrom, answers, List.map_cons, List.cons_append] at hcut
        obtain ⟨rfl, hrest⟩ := List.cons.inj hcut
        rw [List.cons_append, finish]
        exact ih hrest

/-- Two streams that break in two ways before the last read that is issued give two results. -/
theorem receiveTimes_cut {r : LineReader} {cut rest : List ReadAnswer}
    (hcut : answers (issued n r reads) = cut ++ read :: rest) :
    (receiveTimes n r (cut ++ [.error .wouldBlock])).1 ≠
      (receiveTimes n r (cut ++ [.error .timedOut])).1 := by
  induction n generalizing r reads cut with
  | zero => simp [issued] at hcut
  | succ n ih =>
    rw [issued, answers, List.map_append] at hcut
    simp only [receiveTimes]
    intro heq
    rcases List.append_eq_append_iff.mp hcut with
      ⟨cut', rfl, hrest⟩ | ⟨_ | ⟨a, rest'⟩, hfirst, hrest⟩
    · -- the first call is the same on both
      rw [List.append_assoc, List.append_assoc, receive, receive, finish_answers,
        finish_answers] at heq
      exact ih hrest (List.cons.inj heq).2
    · rw [List.append_nil] at hfirst
      have hsame (k : FaultKind) := finish_answers r.start reads [.error k]
      rw [← hfirst, receive, receive, hsame, hsame] at heq
      have hcut' : answers (issued n (r.receive reads).2.1 (r.receive reads).2.2) =
          [] ++ read :: rest := hrest.symm
      exact ih hcut' (List.cons.inj heq).2
    · have hbreak {k : FaultKind} (hk : k ≠ .interrupted) := finish_cut hk hfirst []
      have hhead := (List.cons.inj heq).1
      rw [receive, receive, hbreak (by decide), hbreak (by decide)] at hhead
      cases hhead

/-- The results of so many calls are the same however the stream goes on behind these chunks. -/
def Decides (n : Nat) (chunks : List ReadAnswer) : Prop :=
  ∀ more more', (receiveTimes n {} (readsOfScript (chunks ++ more)).flatten).1 =
    (receiveTimes n {} (readsOfScript (chunks ++ more')).flatten).1

/-- How many chunks have been handed out, the last of them perhaps in part, by so many reads. -/
def chunksBegun : List (List ReadAnswer) → Nat → Nat
  | [], _ => 0
  | reads :: rest, used => if used = 0 then 0 else chunksBegun rest (used - reads.length) + 1

theorem le_length_chunksBegun {chunks : List (List ReadAnswer)} {used : Nat}
    (h : used ≤ chunks.flatten.length) :
    used ≤ (chunks.take (chunksBegun chunks used)).flatten.length := by
  induction chunks generalizing used with
  | nil => exact h
  | cons reads rest ih =>
    rw [chunksBegun]
    split
    · omega
    · have hleft : used - reads.length ≤ rest.flatten.length := by
        rw [List.flatten_cons, List.length_append] at h
        omega
      have := ih hleft
      rw [List.take_succ_cons, List.flatten_cons, List.length_append]
      omega

theorem length_lt_of_lt_chunksBegun {chunks : List (List ReadAnswer)} {used m : Nat}
    (h : m < chunksBegun chunks used) : (chunks.take m).flatten.length < used := by
  induction chunks generalizing used m with
  | nil => cases h
  | cons reads rest ih =>
    rw [chunksBegun] at h
    split at h
    · cases h
    · cases m with
      | zero =>
        rw [List.take_zero, List.flatten_nil, List.length_nil]
        omega
      | succ m =>
        have := ih (Nat.lt_of_succ_lt_succ h)
        rw [List.take_succ_cons, List.flatten_cons, List.length_append]
        omega

/-! ## Scripts -/

/-- No read of a chunk hands out more than the limit. -/
theorem handedOut_le_of_mem_readsOfChunk (chunk : Bytes) :
    ∀ read ∈ readsOfChunk chunk, handedOut read ≤ readLimit := by
  unfold readsOfChunk
  split
  · next hshort => exact List.forall_mem_singleton.mpr hshort
  · refine List.forall_mem_cons.mpr ⟨List.length_take_le .., ?_⟩
    exact handedOut_le_of_mem_readsOfChunk _
termination_by chunk.length
decreasing_by
  simp only [readLimit, List.length_drop] at *
  omega

theorem handedOut_le_of_mem_readsOfScript {script : List ReadAnswer} :
    ∀ read ∈ (readsOfScript script).flatten, handedOut read ≤ readLimit := by
  intro read hmem
  obtain ⟨reads, hreads, hread⟩ := List.mem_flatten.mp hmem
  obtain ⟨k | chunk, -, rfl⟩ := List.mem_map.mp hreads
  · rw [List.mem_singleton.mp hread]
    exact Nat.zero_le _
  · exact handedOut_le_of_mem_readsOfChunk chunk read hread

theorem readsOfScript_append (script more : List ReadAnswer) :
    readsOfScript (script ++ more) = readsOfScript script ++ readsOfScript more := List.map_append

/-- A chunk that fits into one read is handed out by one. -/
theorem length_reads_of_fits {script : List ReadAnswer}
    (h : ∀ chunk ∈ script, handedOut chunk ≤ readLimit) :
    ∀ reads ∈ readsOfScript script, reads.length = 1 := by
  intro reads hmem
  obtain ⟨k | chunk, hchunk, rfl⟩ := List.mem_map.mp hmem
  · rfl
  · have hfits : chunk.length ≤ readLimit := h _ hchunk
    show (readsOfChunk chunk).length = 1
    rw [readsOfChunk, if_pos hfits]
    rfl

theorem flatten_readsOfScript_ends (n : Nat) : (readsOfScript (ends n)).flatten = ends n := by
  have hend : readsOfChunk [] = [.ok []] := by
    rw [readsOfChunk]
    rfl
  unfold readsOfScript
  rw [List.map_replicate]
  simp only [hend]
  exact List.flatten_replicate_singleton

theorem length_flatten_of_fits {chunks : List (List ReadAnswer)}
    (h : ∀ reads ∈ chunks, reads.length = 1) : chunks.flatten.length = chunks.length := by
  induction chunks with
  | nil => rfl
  | cons reads rest ih =>
    obtain ⟨hone, hrest⟩ := List.forall_mem_cons.mp h
    rw [List.flatten_cons, List.length_append, hone, ih hrest, List.length_cons, Nat.add_comm]

/-- Chunks that fit are begun one by one with the reads. -/
theorem chunksBegun_of_fits {chunks : List (List ReadAnswer)}
    (h : ∀ reads ∈ chunks, reads.length = 1) (used : Nat) :
    chunksBegun chunks used = min chunks.length used := by
  induction chunks generalizing used with
  | nil => rw [chunksBegun, List.length_nil, Nat.zero_min]
  | cons reads rest ih =>
    obtain ⟨hone, hrest⟩ := List.forall_mem_cons.mp h
    rw [chunksBegun, ih hrest, hone, List.length_cons]
    split <;> omega

theorem unreadChunks_go_of_fits {chunks : List (List ReadAnswer)}
    (h : ∀ reads ∈ chunks, reads.length = 1) (left : Nat) :
    unreadChunks.go chunks left = min chunks.length left := by
  induction chunks generalizing left with
  | nil => rw [unreadChunks.go, List.length_nil, Nat.zero_min]
  | cons reads rest ih =>
    obtain ⟨hone, hrest⟩ := List.forall_mem_cons.mp h
    rw [unreadChunks.go, ih hrest, hone, List.length_cons]
    split <;> omega

/-- The reads that calls on a script issue, and those that they leave, are the script's. -/
theorem answers_issued_script (script : List ReadAnswer) (n : Nat) :
    let reads := (readsOfScript (script ++ ends n)).flatten
    answers (issued n {} reads) ++ (receiveTimes n {} reads).2 = reads := by
  intro reads
  have hreads : reads = (readsOfScript script).flatten ++ ends n := by
    show (readsOfScript (script ++ ends n)).flatten = _
    rw [readsOfScript_append, List.flatten_append, flatten_readsOfScript_ends]
  rw [hreads]
  exact answers_issued n {} _

/-- Behind a script every read is an end of file. -/
theorem receiveTimes_ends (script : List ReadAnswer) (n : Nat) :
    (receiveTimes n {} (readsOfScript (script ++ ends n)).flatten).1 =
      (receiveTimes n {} (readsOfScript script).flatten).1 := by
  rw [readsOfScript_append, List.flatten_append, flatten_readsOfScript_ends,
    receiveTimes_eq List.not_mem_nil (Nat.le_refl n),
    receiveTimes_eq List.not_mem_nil (Nat.le_add_right n n), List.append_assoc,
    List.replicate_append_replicate]

theorem flatten_take_append (chunks more : List ReadAnswer) (m : Nat) :
    (readsOfScript (chunks.take m ++ more)).flatten =
      ((readsOfScript chunks).take m).flatten ++ (readsOfScript more).flatten := by
  rw [readsOfScript_append, List.flatten_append]
  simp only [readsOfScript, List.map_take]

theorem flatten_take_isPrefix (chunks : List (List ReadAnswer)) (m : Nat) :
    (chunks.take m).flatten <+: chunks.flatten :=
  ⟨(chunks.drop m).flatten, by rw [← List.flatten_append, List.take_append_drop]⟩

/-- The least number of chunks on which the results of so many calls depend is the number of those
that were handed out, the last of them perhaps in part. -/
theorem isLeast_chunksBegun (chunks : List ReadAnswer)
    (hissued : answers (issued n {} (readsOfScript chunks).flatten) <+:
      (readsOfScript chunks).flatten) :
    IsLeast {m | Decides n (chunks.take m)} (chunksBegun (readsOfScript chunks)
      (issued n {} (readsOfScript chunks).flatten).length) := by
  have hlength : (issued n {} (readsOfScript chunks).flatten).length =
      (answers (issued n {} (readsOfScript chunks).flatten)).length := by rw [List.length_map]
  rw [hlength]
  constructor
  · have hle := le_length_chunksBegun hissued.length_le
    obtain ⟨rest, hrest⟩ :=
      List.prefix_of_prefix_length_le hissued (flatten_take_isPrefix _ _) hle
    intro more more'
    rw [flatten_take_append, flatten_take_append, ← hrest, List.append_assoc, List.append_assoc,
      receiveTimes_answers, receiveTimes_answers]
  · intro m hdecides
    by_contra hlt
    have hshort := length_lt_of_lt_chunksBegun (Nat.lt_of_not_le hlt)
    obtain ⟨rest, hrest⟩ :=
      List.prefix_of_prefix_length_le (flatten_take_isPrefix _ m) hissued hshort.le
    obtain ⟨read, rest', rfl⟩ : ∃ read rest', rest = read :: rest' := by
      apply List.exists_cons_of_ne_nil
      rintro rfl
      rw [← hrest, List.append_nil] at hshort
      exact Nat.lt_irrefl _ hshort
    have hsame := hdecides [.error .wouldBlock] [.error .timedOut]
    rw [flatten_take_append, flatten_take_append] at hsame
    exact receiveTimes_cut hrest.symm hsame

/-- Any number of calls of a new reader on a script of data, failures and ends of file, behind which
every read is an end of file. Their reads are those that they take off the script. Each is due when
the reader has nothing buffered and a line under way that is not over, which is all that was handed
out and not returned; and no more than the limit is ever buffered, right after a read or between
calls. Whatever a reader has, a call issues no read when a line is at hand, and else stops at the
first answer that stops calls. So the chunks handed out are as few as can decide the results; when
each fits into one read, they are all that are not unread. -/
theorem reads_on_demand (script : List ReadAnswer) (n : Nat) :
    let chunks := script ++ ends n
    let reads := (readsOfScript chunks).flatten
    (receiveTimes n {} reads).1 = (receiveTimes n {} (readsOfScript script).flatten).1 ∧
    answers (issued n {} reads) ++ (receiveTimes n {} reads).2 = reads ∧
    (∀ before r read after, issued n {} reads = before ++ (r, read) :: after →
      r = ⟨[], ((answers before).foldl Held.feed {}).bytes⟩ ∧ lineFeed ∉ r.pending ∧
        r.buffered.length + handedOut read ≤ readLimit) ∧
    (∀ k, (afterCalls k {} reads).buffered.length ≤ readLimit) ∧
    (∀ r reads, lineFeed ∈ LineReader.buffered r → issuedFrom r.start reads = [] ∧
      ∃ line next, r.receive reads = (.ok (.ofLine line), next, reads)) ∧
    (∀ r reads, lineFeed ∉ LineReader.buffered r →
      ∃ quiet last, answers (issuedFrom r.start reads) = quiet ++ [last] ∧
        (∀ read ∈ quiet, stopsCall read = false) ∧ stopsCall last = true) ∧
    IsLeast {m | Decides n (chunks.take m)}
      (chunksBegun (readsOfScript chunks) (issued n {} reads).length) ∧
    ((∀ chunk ∈ chunks, handedOut chunk ≤ readLimit) →
      chunksBegun (readsOfScript chunks) (issued n {} reads).length +
        unreadChunks chunks (receiveTimes n {} reads).2.length = chunks.length) := by
  intro chunks reads
  have hissued : answers (issued n {} reads) ++ (receiveTimes n {} reads).2 = reads :=
    answers_issued_script script n
  have hlimit : ∀ read ∈ reads, handedOut read ≤ readLimit := handedOut_le_of_mem_readsOfScript
  refine ⟨receiveTimes_ends script n, hissued, ?_, ?_, fun r reads h => receive_of_line h reads, ?_,
    ?_, ?_⟩
  · intro before r read after heq
    have hdue := due_issued (r := {}) List.not_mem_nil n reads
    rw [heq] at hdue
    obtain ⟨hr, hopen⟩ := hdue.of_append
    have hmem : read ∈ reads := by
      rw [← hissued, heq]
      simp
    have hempty : r.buffered = [] := congrArg LineReader.buffered hr
    refine ⟨hr, hopen, ?_⟩
    rw [hempty, List.length_nil, Nat.zero_add]
    exact hlimit read hmem
  · exact length_buffered_afterCalls (r := {}) (Nat.zero_le _) hlimit
  · intro r reads h
    rw [start_of_no_line h]
    exact issuedFrom_starved ..
  · exact isLeast_chunksBegun chunks ⟨_, hissued⟩
  · intro hfits
    have hone := length_reads_of_fits hfits
    have hreads : reads.length = (readsOfScript chunks).length := length_flatten_of_fits hone
    have hsum := congrArg List.length hissued
    rw [List.length_append, List.length_map] at hsum
    have hchunks : (readsOfScript chunks).length = chunks.length := List.length_map ..
    have hback : ∀ reads ∈ (readsOfScript chunks).reverse, reads.length = 1 := fun reads hmem =>
      hone reads (List.mem_reverse.mp hmem)
    rw [chunksBegun_of_fits hone, unreadChunks, unreadChunks_go_of_fits hback, List.length_reverse]
    omega

/-- A call takes no more of its stream than the chunk with the end of its line, though the script
goes on. -/
example : answers (issuedFrom ({} : LineReader).start
    [.ok (Text.encode "PORT_LOCK::SUC"), .error .interrupted,
      .ok (Text.encode "CESS\nPORT_LOCK::RELEASE\n"), .error .wouldBlock]) =
    [.ok (Text.encode "PORT_LOCK::SUC"), .error .interrupted,
      .ok (Text.encode "CESS\nPORT_LOCK::RELEASE\n")] := by
  decide +kernel

end LineReader

end LoopbackLock
