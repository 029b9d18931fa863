import LoopbackLock.Proofs.Wire.Opening

/-!
# Reads on demand

A reader issues a read only when it has worked off all that earlier reads handed out, and its line
under way is not over (`LineReader.Due`, `LineReader.due_issued`). A call stops at the first read
that can end it (`LineReader.issuedFrom_starved`), and one for which a line is at hand issues none
(`LineReader.receive_of_line`).
-/

namespace LoopbackLock

/-- A call that gets this answer asks for no further read: there is a line feed, or the end of the
stream, or a failure that is no interruption. -/
def stopsCall : ReadAnswer → Bool
  | .ok bytes => bytes.isEmpty || bytes.contains lineFeed
  | .error k => k ≠ .interrupted

/-- How many bytes a read hands out. -/
def handedOut : ReadAnswer → Nat
  | .ok bytes => bytes.length
  | .error _ => 0

namespace LineReader

open Framing

/-! ## The reads that calls issue -/

/-- The reads that a call issues from a turn on, each with what the reader has when it is due. -/
def issuedFrom : Turn → List ReadAnswer → List (LineReader × ReadAnswer)
  | .done .., _ => []
  | .starved r begun, read :: reads => (r, read) :: issuedFrom (r.supply begun read) reads
  | .starved r _, [] => [(r, .ok [])]

/-- The reads that a number of calls in a row issue. -/
def issued : Nat → LineReader → List ReadAnswer → List (LineReader × ReadAnswer)
  | 0, _, _ => []
  | n + 1, r, reads =>
    issuedFrom r.start reads ++ issued n (r.receive reads).2.1 (r.receive reads).2.2

/-- A reader after a number of calls in a row. -/
def afterCalls : Nat → LineReader → List ReadAnswer → LineReader
  | 0, r, _ => r
  | n + 1, r, reads => afterCalls n (r.receive reads).2.1 (r.receive reads).2.2

/-- The answers to reads. -/
abbrev answers (reads : List (LineReader × ReadAnswer)) : List ReadAnswer := reads.map Prod.snd

variable {r next : LineReader} {begun : Bool} {t : Turn} {read : ReadAnswer} {n m : Nat}
  {reads before after more : List ReadAnswer} {k : FaultKind}

/-- A read ends the call of a starved reader if it is one that stops calls, and no other does. -/
theorem supply_of_stopsCall (hread : stopsCall read = true) :
    ∃ result next, r.supply begun read = .done result next := by
  rcases read with k | (_ | ⟨b, bs⟩)
  · have hk : k ≠ .interrupted := by simpa [stopsCall] using hread
    cases k <;> first | exact absurd rfl hk | exact ⟨_, _, rfl⟩
  · exact supply_nil r begun
  · have hmem : lineFeed ∈ b :: bs := by simpa [stopsCall] using hread
    rcases hsplit : splitLine (b :: bs) with _ | ⟨line, rest⟩
    · exact absurd hmem (splitLine_eq_none hsplit)
    · exact ⟨.ok (.ofLine (r.pending ++ line)), ⟨rest, []⟩, by simp [supply, work, hsplit]⟩

theorem supply_of_not_stopsCall (hread : stopsCall read = false) :
    ∃ r' begun', r.supply begun read = .starved r' begun' := by
  rcases read with k | (_ | ⟨b, bs⟩)
  · obtain rfl : k = .interrupted := by simpa [stopsCall] using hread
    exact ⟨r, begun, rfl⟩
  · simp [stopsCall] at hread
  · have hmem : lineFeed ∉ b :: bs := by simpa [stopsCall] using hread
    rcases hsplit : splitLine (b :: bs) with _ | ⟨line, rest⟩
    · exact ⟨⟨[], r.pending ++ b :: bs⟩, begun || true, by simp [supply, work, hsplit]⟩
    · obtain ⟨heq, body, rfl, -⟩ := splitLine_eq_some hsplit
      exact absurd (heq ▸ by simp) hmem

/-- A starved reader reads on until an answer stops its call. -/
theorem issuedFrom_starved (r : LineReader) (begun : Bool) (reads : List ReadAnswer) :
    ∃ quiet last, answers (issuedFrom (.starved r begun) reads) = quiet ++ [last] ∧
      (∀ read ∈ quiet, stopsCall read = false) ∧ stopsCall last = true := by
  induction reads generalizing r begun with
  | nil => exact ⟨[], .ok [], rfl, nofun, rfl⟩
  | cons read reads ih =>
    cases hread : stopsCall read with
    | true =>
      obtain ⟨result, next, hsupply⟩ : ∃ result next, r.supply begun read = .done result next :=
        supply_of_stopsCall hread
      exact ⟨[], read, by simp [issuedFrom, hsupply], nofun, hread⟩
    | false =>
      obtain ⟨r', begun', hsupply⟩ : ∃ r' begun', r.supply begun read = .starved r' begun' :=
        supply_of_not_stopsCall hread
      obtain ⟨quiet, last, hreads, hquiet, hlast⟩ := ih r' begun'
      refine ⟨read :: quiet, last, by simp [issuedFrom, hsupply, hreads], ?_, hlast⟩
      exact List.forall_mem_cons.mpr ⟨hread, hquiet⟩

/-- A call for which a line is at hand returns it without any read. -/
theorem receive_of_line (h : lineFeed ∈ r.buffered) (reads : List ReadAnswer) :
    issuedFrom r.start reads = [] ∧
      ∃ line next, r.receive reads = (.ok (.ofLine line), next, reads) := by
  rcases hsplit : splitLine r.buffered with _ | ⟨line, rest⟩
  · exact absurd h (splitLine_eq_none hsplit)
  · have hstart : r.start = .done (.ok (.ofLine (r.pending ++ line))) ⟨rest, []⟩ := by
      simp [start, work, hsplit]
    refine ⟨by rw [hstart, issuedFrom], r.pending ++ line, ⟨rest, []⟩, ?_⟩
    rw [receive, hstart, finish]

/-- A call for which none is at hand starts starved. -/
theorem start_of_no_line (h : lineFeed ∉ r.buffered) :
    r.start = .starved ⟨[], r.pending ++ r.buffered⟩ !r.buffered.isEmpty := by
  rcases hsplit : splitLine r.buffered with _ | ⟨line, rest⟩
  · simp [start, work, hsplit]
  · obtain ⟨heq, body, rfl, -⟩ := splitLine_eq_some hsplit
    exact absurd (heq ▸ by simp) h

end LineReader

/-! ## When a read is due -/

/-- What the reader of a turn has of the line under way. -/
def Turn.held : Turn → Held
  | .done _ next => next.held
  | .starved r begun => ⟨r.pending, begun⟩

namespace LineReader

open Framing

/-- Reads from a reader that has this much of the line under way: each is due when nothing is
buffered, and the line is not over. -/
def Due : Held → List (LineReader × ReadAnswer) → Prop
  | _, [] => True
  | h, (r, read) :: reads => r = ⟨[], h.bytes⟩ ∧ lineFeed ∉ h.bytes ∧ Due (h.feed read) reads

variable {r next : LineReader} {begun : Bool} {t : Turn} {read : ReadAnswer} {n m : Nat}
  {reads before after more : List ReadAnswer} {k : FaultKind} {h : Held}

theorem Due.append {xs ys : List (LineReader × ReadAnswer)} (hxs : Due h xs)
    (hys : Due ((answers xs).foldl Held.feed h) ys) : Due h (xs ++ ys) := by
  induction xs generalizing h with
  | nil => exact hys
  | cons x xs ih =>
    obtain ⟨hr, hopen, hrest⟩ := hxs
    exact ⟨hr, hopen, ih hrest hys⟩

/-- What was due was due after the reads before it. -/
theorem Due.of_append {xs ys : List (LineReader × ReadAnswer)} {x : LineReader × ReadAnswer}
    (hdue : Due h (xs ++ x :: ys)) :
    x.1 = ⟨[], ((answers xs).foldl Held.feed h).bytes⟩ ∧ lineFeed ∉ x.1.pending := by
  induction xs generalizing h with
  | nil =>
    obtain ⟨hr, hopen, -⟩ := hdue
    exact ⟨hr, by rw [hr]; exact hopen⟩
  | cons x' xs ih => exact ih hdue.2.2

theorem held_start (hopen : lineFeed ∉ r.pending) : r.start.held = r.held := by
  unfold start
  rcases work_cases hopen false with ⟨body, after, hbody, heq, hdone⟩ | ⟨hdrained, -⟩
  · have hbuffered : r.buffered ≠ [] := by
      rintro hnil
      rw [hnil, List.append_nil] at heq
      exact hopen (heq ▸ by simp)
    rw [hdone]
    show held ⟨after, []⟩ = _
    rw [held_after, held, heq, rest_line hbody]
    simp [hbuffered]
  · have hnone : lineFeed ∉ r.buffered := fun hmem =>
      hdrained.pending (List.mem_append_right _ hmem)
    have hstart := start_of_no_line hnone
    unfold start at hstart
    rw [hstart, held, rest_open hdrained.pending]
    simp only [Turn.held, Held.mk.injEq, true_and]
    rcases r.buffered with _ | ⟨b, bs⟩ <;> simp

theorem Drained.held_supply (hd : r.Drained) (begun : Bool) (read : ReadAnswer) :
    (r.supply begun read).held = Held.feed ⟨r.pending, begun⟩ read := by
  obtain ⟨buffered, pending⟩ := r
  obtain ⟨rfl, hopen⟩ := hd
  have hidle : held ⟨[], pending⟩ = ⟨pending, false⟩ := by
    simp [held, rest_open hopen]
  rcases read with k | (_ | ⟨b, bs⟩)
  · cases k
    case interrupted => rfl
    all_goals exact hidle
  · cases begun
    · exact hidle
    · rfl
  · rcases supply_cases hopen (List.cons_ne_nil b bs) begun with
      ⟨body, after, hbody, heq, hsupply⟩ | ⟨hnone, hsupply⟩
    · rw [hsupply]
      show held ⟨after, []⟩ = _
      rw [held_after, Held.feed, heq, rest_line hbody]
    · rw [hsupply, Held.feed, rest_open hnone]
      simp [Turn.held]

/-- The reads of a call are due one by one, and after them the reader has what they left. -/
theorem due_issuedFrom (htidy : t.Tidy) (reads : List ReadAnswer) :
    Due t.held (issuedFrom t reads) ∧ lineFeed ∉ (finish t reads).2.1.pending ∧
      (finish t reads).2.1.held = (answers (issuedFrom t reads)).foldl Held.feed t.held := by
  induction reads generalizing t with
  | nil =>
    rcases t with ⟨result, next⟩ | ⟨r, begun⟩
    · rw [finish]
      exact ⟨trivial, htidy, rfl⟩
    · obtain ⟨result, next, hsupply⟩ := supply_nil r begun
      have htidy' := Drained.tidy_supply htidy begun (.ok [])
      have hheld := Drained.held_supply htidy begun (.ok [])
      rw [hsupply] at htidy' hheld
      rw [finish, hsupply]
      refine ⟨⟨?_, htidy.pending, trivial⟩, htidy', hheld⟩
      rw [← htidy.buffered]
      rfl
  | cons read reads ih =>
    rcases t with ⟨result, next⟩ | ⟨r, begun⟩
    · rw [finish]
      exact ⟨trivial, htidy, rfl⟩
    · obtain ⟨hdue, hopen, hheld⟩ := ih (Drained.tidy_supply htidy begun read)
      rw [Drained.held_supply htidy] at hdue hheld
      rw [finish]
      refine ⟨⟨?_, htidy.pending, hdue⟩, hopen, hheld⟩
      rw [← htidy.buffered]
      rfl

theorem due_issued (hopen : lineFeed ∉ r.pending) (n : Nat) (reads : List ReadAnswer) :
    Due r.held (issued n r reads) := by
  induction n generalizing r reads with
  | zero => trivial
  | succ n ih =>
    obtain ⟨hdue, hopen', hheld⟩ := due_issuedFrom (tidy_work hopen false) reads
    rw [← start, held_start hopen] at hdue hheld
    refine hdue.append ?_
    rw [← hheld]
    exact ih hopen' _

end LineReader

/-! ## What is buffered -/

/-- The bytes that the reader of a turn has buffered. -/
def Turn.buffered : Turn → Bytes
  | .done _ next => next.buffered
  | .starved r _ => r.buffered

namespace LineReader

variable {r : LineReader} {t : Turn} {read : ReadAnswer} {n most : Nat} {reads : List ReadAnswer}

theorem length_buffered_work (r : LineReader) (begun : Bool) :
    (r.work begun).buffered.length ≤ r.buffered.length := by
  unfold work
  rcases hsplit : splitLine r.buffered with _ | ⟨line, rest⟩
  · exact Nat.zero_le _
  · obtain ⟨heq, -⟩ := splitLine_eq_some hsplit
    rw [heq, List.length_append]
    exact Nat.le_add_left ..

theorem length_buffered_supply (hr : r.buffered.length ≤ most) (begun : Bool)
    (hread : handedOut read ≤ most) : (r.supply begun read).buffered.length ≤ most := by
  rcases read with k | (_ | ⟨b, bs⟩)
  · cases k <;> exact hr
  · cases begun <;> exact hr
  · exact Nat.le_trans (length_buffered_work { r with buffered := b :: bs } begun) hread

theorem length_buffered_finish (ht : t.buffered.length ≤ most)
    (hreads : ∀ read ∈ reads, handedOut read ≤ most) :
    (finish t reads).2.1.buffered.length ≤ most ∧ (finish t reads).2.2 ⊆ reads := by
  induction reads generalizing t with
  | nil =>
    rcases t with ⟨result, next⟩ | ⟨r, begun⟩
    · rw [finish]
      exact ⟨ht, fun _ hmem => hmem⟩
    · obtain ⟨result, next, hsupply⟩ := supply_nil r begun
      have hnone : handedOut (.ok []) ≤ most := Nat.zero_le most
      have hlength := length_buffered_supply ht begun hnone
      rw [hsupply] at hlength
      rw [finish, hsupply]
      exact ⟨hlength, fun _ hmem => hmem⟩
  | cons read reads ih =>
    rcases t with ⟨result, next⟩ | ⟨r, begun⟩
    · rw [finish]
      exact ⟨ht, fun _ hmem => hmem⟩
    · obtain ⟨hread, hrest⟩ := List.forall_mem_cons.mp hreads
      obtain ⟨hlength, hleft⟩ := ih (length_buffered_supply ht begun hread) hrest
      rw [finish]
      exact ⟨hlength, fun a hmem => List.mem_cons_of_mem _ (hleft hmem)⟩

theorem length_buffered_afterCalls (hr : r.buffered.length ≤ most)
    (hreads : ∀ read ∈ reads, handedOut read ≤ most) (n : Nat) :
    (afterCalls n r reads).buffered.length ≤ most := by
  induction n generalizing r reads with
  | zero => exact hr
  | succ n ih =>
    obtain ⟨hlength, hleft⟩ :=
      length_buffered_finish (Nat.le_trans (length_buffered_work r false) hr) hreads
    exact ih hlength fun read hmem => hreads read (hleft hmem)

end LineReader

end LoopbackLock
