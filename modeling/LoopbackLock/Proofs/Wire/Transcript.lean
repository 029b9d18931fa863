import LoopbackLock.Proofs.Wire.Lines

/-!
# What a script of reads brings

`Framing.transcript` tells, read by read, which results a script of reads is to have: the lines that
each piece of data ends, the line that an end of file ends, and the failures. `Held` is what a
reader has of the line under way, and `Held.told` which results the reader brings: an end of file
ends the line only if the call under way has taken bytes of it. The two agree until an end of file
comes when a read has failed since the last byte of the line (`Held.Agrees.run`).
-/

namespace LoopbackLock

/-- Results of calls can be compared. -/
instance decidableEqExcept {ε α : Type} [DecidableEq ε] [DecidableEq α] :
    DecidableEq (Except ε α)
  | .ok a, .ok b => decidable_of_iff (a = b) ⟨congrArg _, Except.ok.inj⟩
  | .error e, .error f => decidable_of_iff (e = f) ⟨congrArg _, Except.error.inj⟩
  | .ok _, .error _ => isFalse fun h => by cases h
  | .error _, .ok _ => isFalse fun h => by cases h

namespace Framing

variable {bytes held : Bytes} {reads : List ReadAnswer}

/-! ## What a script is to result in -/

/-- The bytes of the line under way after a read. -/
def feed (held : Bytes) : ReadAnswer → Bytes
  | .ok [] => []
  | .ok (b :: bs) => rest (held ++ b :: bs)
  | .error _ => held

/-- The results that a read is to bring: the lines that the data ends; the line under way that an
end of file ends, if there is one; a failure other than an interruption. -/
def results (held : Bytes) : ReadAnswer → List Received
  | .ok [] => [.ok (if held = [] then .closed else .ofLine held)]
  | .ok (b :: bs) => (lines (held ++ b :: bs)).map fun line => .ok (.ofLine line)
  | .error .interrupted => []
  | .error k => [.error k]

/-- Whether a read has failed since the last data; an interruption is no failure. -/
def lapsed : Bool → ReadAnswer → Bool
  | lapsed, .error .interrupted => lapsed
  | _, .error _ => true
  | _, .ok _ => false

/-- What a machine puts out, input by input. -/
def outputs {σ ι ο : Type} (next : σ → ι → σ) (out : σ → ι → List ο) : σ → List ι → List ο
  | _, [] => []
  | s, i :: is => out s i ++ outputs next out (next s i) is

theorem outputs_append {σ ι ο : Type} {next : σ → ι → σ} {out : σ → ι → List ο} (s : σ)
    (is is' : List ι) : outputs next out s (is ++ is') =
      outputs next out s is ++ outputs next out (is.foldl next s) is' := by
  induction is generalizing s with
  | nil => rfl
  | cons i is ih => rw [List.cons_append, outputs, ih, outputs, List.append_assoc]; rfl

/-- The results that a script of reads is to have. -/
def transcript (reads : List ReadAnswer) : List Received := outputs feed results [] reads

/-- The data of a script. -/
def data : List ReadAnswer → Bytes
  | [] => []
  | .ok bytes :: reads => bytes ++ data reads
  | .error _ :: reads => data reads

/-- The results that are no failures. -/
def heard (results : List Received) : List Heard := results.filterMap Except.toOption

/-- The failures of reads, or of results. -/
def faults {α : Type} : List (Except FaultKind α) → List FaultKind
  | [] => []
  | .ok _ :: rest => faults rest
  | .error k :: rest => k :: faults rest

theorem faults_append {α : Type} (xs ys : List (Except FaultKind α)) :
    faults (xs ++ ys) = faults xs ++ faults ys := by
  induction xs with
  | nil => rfl
  | cons x xs ih => cases x <;> simp [faults, ih]

theorem transcript_append (reads reads' : List ReadAnswer) : transcript (reads ++ reads') =
    transcript reads ++ outputs feed results (reads.foldl feed []) reads' := outputs_append ..

/-- The line under way after a script in which no end of file comes. -/
theorem foldl_feed (hdata : .ok [] ∉ reads) (hopen : lineFeed ∉ held) :
    reads.foldl feed held = rest (held ++ data reads) := by
  induction reads generalizing held with
  | nil => rw [data, List.append_nil, rest_open hopen]; rfl
  | cons read reads ih =>
    have hrest : (.ok [] : ReadAnswer) ∉ reads := fun hmem => hdata (List.mem_cons_of_mem _ hmem)
    rcases read with k | (_ | ⟨b, bs⟩)
    · exact ih hrest hopen
    · exact absurd List.mem_cons_self hdata
    · rw [List.foldl_cons, feed, ih hrest (lineFeed_not_mem_rest _), ← rest_append,
        List.append_assoc]
      rfl

/-- What is heard of a script in which no end of file comes: the lines of its data. -/
theorem heard_outputs (hdata : .ok [] ∉ reads) (hopen : lineFeed ∉ held) :
    heard (outputs feed results held reads) = (lines (held ++ data reads)).map .ofLine := by
  induction reads generalizing held with
  | nil => rw [data, List.append_nil, lines_open hopen]; rfl
  | cons read reads ih =>
    have hrest : (.ok [] : ReadAnswer) ∉ reads := fun hmem => hdata (List.mem_cons_of_mem _ hmem)
    rcases read with k | (_ | ⟨b, bs⟩)
    · rw [data, ← ih hrest hopen]
      cases k <;> rfl
    · exact absurd List.mem_cons_self hdata
    · have hhead : heard (results held (.ok (b :: bs))) =
          (lines (held ++ b :: bs)).map .ofLine := by
        show ((lines (held ++ b :: bs)).map _).filterMap _ = _
        rw [List.filterMap_map, ← List.filterMap_eq_map]
        rfl
      have hsplit : held ++ (b :: bs ++ data reads) = (held ++ b :: bs) ++ data reads := by simp
      rw [outputs, heard, List.filterMap_append, ← heard, ← heard, hhead,
        data, hsplit, lines_append (held ++ b :: bs), List.map_append]
      exact congrArg _ (ih hrest (lineFeed_not_mem_rest _))

/-- Each failure but an interruption is reported once. -/
theorem faults_outputs (reads : List ReadAnswer) :
    faults (outputs feed results held reads) = (faults reads).filter (· ≠ .interrupted) := by
  induction reads generalizing held with
  | nil => rfl
  | cons read reads ih =>
    rw [outputs, faults_append, ih]
    rcases read with k | (_ | ⟨b, bs⟩)
    · cases k <;> rfl
    · rfl
    · have hnone : faults (results held (.ok (b :: bs))) = [] := by
        show faults ((lines (held ++ b :: bs)).map _) = []
        induction lines (held ++ b :: bs) with
        | nil => rfl
        | cons line lines ih => exact ih
      rw [hnone]
      rfl

end Framing

/-! ## What a reader has of a line -/

/-- What a reader has of the line under way. -/
structure Held where
  bytes : Bytes := []
  /-- The call under way has taken some of the bytes. -/
  fresh : Bool := false

namespace Held

open Framing

/-- What a reader has after a read. An end of file takes the line under way only if the call has
taken bytes of it; any failure but an interruption ends the call. -/
def feed (h : Held) : ReadAnswer → Held
  | .ok [] => if h.fresh then {} else h
  | .ok (b :: bs) => ⟨rest (h.bytes ++ b :: bs), rest (h.bytes ++ b :: bs) ≠ []⟩
  | .error .interrupted => h
  | .error _ => ⟨h.bytes, false⟩

/-- The results that a read brings. -/
def results (h : Held) : ReadAnswer → List Received
  | .ok [] => [.ok (if h.fresh then .ofLine h.bytes else .closed)]
  | read => Framing.results h.bytes read

/-- The results that a reader brings of a script of reads. -/
def told (h : Held) (reads : List ReadAnswer) : List Received := outputs feed results h reads

variable {h : Held} {reads : List ReadAnswer}

theorem told_cons (read : ReadAnswer) :
    h.told (read :: reads) = h.results read ++ (h.feed read).told reads := rfl

theorem told_append (reads' : List ReadAnswer) :
    h.told (reads ++ reads') = h.told reads ++ (reads.foldl feed h).told reads' :=
  outputs_append ..

/-- Two pieces of data bring what they bring as one. -/
theorem results_append (h : Held) {a b : Bytes} (ha : a ≠ []) (hb : b ≠ []) :
    h.results (.ok (a ++ b)) = h.results (.ok a) ++ (h.feed (.ok a)).results (.ok b) ∧
      h.feed (.ok (a ++ b)) = (h.feed (.ok a)).feed (.ok b) := by
  obtain ⟨c, cs, rfl⟩ := List.exists_cons_of_ne_nil ha
  obtain ⟨d, ds, rfl⟩ := List.exists_cons_of_ne_nil hb
  constructor
  · show (lines (h.bytes ++ (c :: cs ++ d :: ds))).map _ = _
    rw [← List.append_assoc, lines_append, List.map_append]
    rfl
  · have hrest : rest (h.bytes ++ (c :: cs ++ d :: ds)) =
        rest (rest (h.bytes ++ c :: cs) ++ d :: ds) := by
      rw [← List.append_assoc, rest_append]
    show Held.mk (rest (h.bytes ++ (c :: cs ++ d :: ds)))
      (decide (rest (h.bytes ++ (c :: cs ++ d :: ds)) ≠ [])) = _
    rw [hrest]
    rfl

/-- A chunk brings what it brings in one piece, however long it is. -/
theorem told_readsOfChunk (h : Held) (chunk : Bytes) (reads : List ReadAnswer) :
    h.told (readsOfChunk chunk ++ reads) = h.told (.ok chunk :: reads) := by
  unfold readsOfChunk
  split
  · rfl
  · next hlong =>
    have hfirst : chunk.take readLimit ≠ [] := by
      intro hnil
      rcases List.take_eq_nil_iff.mp hnil with h0 | rfl
      · cases h0
      · exact hlong (Nat.zero_le _)
    have hlast : chunk.drop readLimit ≠ [] := fun hnil => hlong (List.drop_eq_nil_iff.mp hnil)
    obtain ⟨hresults, hfeed⟩ := h.results_append hfirst hlast
    rw [List.take_append_drop] at hresults hfeed
    rw [List.cons_append, told_cons, told_readsOfChunk, told_cons, told_cons, hresults, hfeed,
      List.append_assoc]
termination_by chunk.length
decreasing_by
  simp only [readLimit, List.length_drop] at *
  omega

/-- A script brings what its chunks bring, however they are cut into reads. -/
theorem told_readsOfScript (h : Held) (script reads : List ReadAnswer) :
    h.told ((readsOfScript script).flatten ++ reads) = h.told (script ++ reads) := by
  induction script generalizing h with
  | nil => rfl
  | cons read script ih =>
    rcases read with k | chunk
    · show h.told (.error k :: ((readsOfScript script).flatten ++ reads)) = _
      rw [told_cons, ih]
      rfl
    · show h.told ((readsOfChunk chunk ++ (readsOfScript script).flatten) ++ reads) = _
      rw [List.append_assoc, told_readsOfChunk, told_cons, ih]
      rfl

/-- A reader has the line under way, and has taken bytes of it in this call unless a read has failed
since the last of them. -/
structure Agrees (h : Held) (held : Bytes) (broken : Bool) : Prop where
  bytes : h.bytes = held
  fresh : h.fresh = (held ≠ [] && !broken)

theorem Agrees.start : Agrees {} [] false := ⟨rfl, rfl⟩

/-- A reader that has no line under way is as good as new. -/
theorem Agrees.eq_start {broken : Bool} (ha : h.Agrees [] broken) : h = {} := by
  obtain ⟨bytes, fresh⟩ := h
  obtain ⟨rfl, rfl⟩ := ha
  rfl

/-- A read brings what it is to bring, unless it is an end of file in a line that a failure has
broken. -/
theorem Agrees.step {held : Bytes} {broken : Bool} {read : ReadAnswer} (ha : h.Agrees held broken)
    (hwhole : read = .ok [] → held = [] ∨ broken = false) :
    h.results read = Framing.results held read ∧
      (h.feed read).Agrees (Framing.feed held read) (lapsed broken read) := by
  obtain ⟨bytes, fresh⟩ := h
  obtain ⟨hbytes, hfresh⟩ := ha
  simp only at hbytes hfresh
  subst hbytes hfresh
  rcases read with k | (_ | ⟨b, bs⟩)
  · cases k
    case interrupted => exact ⟨rfl, rfl, rfl⟩
    all_goals exact ⟨rfl, rfl, by simp [feed, lapsed]⟩
  · rcases hwhole rfl with rfl | rfl
    · exact ⟨rfl, rfl, rfl⟩
    · by_cases hnil : bytes = []
      · subst hnil
        exact ⟨rfl, rfl, rfl⟩
      · refine ⟨by simp [results, Framing.results, hnil], ?_⟩
        simp only [feed, hnil, ne_eq, not_false_eq_true, decide_true, Bool.not_false, Bool.and_self,
          if_true]
        exact ⟨rfl, rfl⟩
  · exact ⟨rfl, rfl, (Bool.and_true _).symm⟩

/-- Reads bring what they are to bring, while no end of file comes in a line that a failure has
broken. -/
theorem Agrees.run {held : Bytes} {broken : Bool} (ha : h.Agrees held broken)
    (hwhole : ∀ before after, reads = before ++ .ok [] :: after →
      before.foldl Framing.feed held = [] ∨ before.foldl lapsed broken = false) :
    h.told reads = outputs Framing.feed Framing.results held reads ∧
      (reads.foldl feed h).Agrees (reads.foldl Framing.feed held) (reads.foldl lapsed broken) := by
  induction reads generalizing h held broken with
  | nil => exact ⟨rfl, ha⟩
  | cons read reads ih =>
    obtain ⟨hresults, hnext⟩ := ha.step fun (heq : read = .ok []) =>
      hwhole [] reads (by rw [heq]; rfl)
    obtain ⟨htold, hlast⟩ := ih hnext fun before after heq =>
      hwhole (read :: before) after (by rw [heq]; rfl)
    rw [told_cons, hresults, htold]
    exact ⟨rfl, hlast⟩

end Held

end LoopbackLock
