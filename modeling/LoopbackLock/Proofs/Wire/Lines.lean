import LoopbackLock.Proofs.Wire.FirstLine

/-!
# The lines of a stream

`Framing.cut` is what lines a stream of bytes consists of: those that are over, each with its line
feed, and the bytes after the last of them. More data goes on with the line under way
(`Framing.lines_append`, `Framing.rest_append`), and nothing is lost or moved
(`Framing.flatten_lines`).
-/

namespace LoopbackLock

namespace Framing

variable {bytes body line : Bytes}

/-- The lines of a stream that are over, each with its line feed, and the bytes after the last. -/
def cut : Bytes → List Bytes × Bytes
  | [] => ([], [])
  | b :: bs =>
    if b = lineFeed then ([b] :: (cut bs).1, (cut bs).2)
    else
      match (cut bs).1 with
      | [] => ([], b :: (cut bs).2)
      | line :: lines => ((b :: line) :: lines, (cut bs).2)

/-- The lines of a stream that are over. -/
def lines (bytes : Bytes) : List Bytes := (cut bytes).1

/-- The bytes after the last line feed. -/
def rest (bytes : Bytes) : Bytes := (cut bytes).2

/-- A line that is over: a line feed ends it, and it has no other. -/
def IsLine (line : Bytes) : Prop := ∃ body, line = body ++ [lineFeed] ∧ lineFeed ∉ body

theorem cut_open (h : lineFeed ∉ bytes) : cut bytes = ([], bytes) := by
  induction bytes with
  | nil => rfl
  | cons b bs ih =>
    have hb : b ≠ lineFeed := fun heq => h (heq ▸ List.mem_cons_self)
    unfold cut
    rw [if_neg hb, ih fun hmem => h (List.mem_cons_of_mem _ hmem)]

theorem cut_line (h : lineFeed ∉ body) (bs : Bytes) :
    cut (body ++ lineFeed :: bs) = ((body ++ [lineFeed]) :: lines bs, rest bs) := by
  induction body with
  | nil => rfl
  | cons b body ih =>
    have hb : b ≠ lineFeed := fun heq => h (heq ▸ List.mem_cons_self)
    rw [List.cons_append]
    unfold cut
    rw [if_neg hb, ih fun hmem => h (List.mem_cons_of_mem _ hmem)]
    rfl

theorem lines_open (h : lineFeed ∉ bytes) : lines bytes = [] := by rw [lines, cut_open h]

theorem rest_open (h : lineFeed ∉ bytes) : rest bytes = bytes := by rw [rest, cut_open h]

theorem lines_line (h : lineFeed ∉ body) (bs : Bytes) :
    lines (body ++ lineFeed :: bs) = (body ++ [lineFeed]) :: lines bs := by rw [lines, cut_line h]

theorem rest_line (h : lineFeed ∉ body) (bs : Bytes) :
    rest (body ++ lineFeed :: bs) = rest bs := by rw [rest, cut_line h]

/-- What holds of streams in which no line is over, and of a stream after one more line, holds of
every stream. -/
theorem lines_induction {P : Bytes → Prop} (hopen : ∀ bytes, lineFeed ∉ bytes → P bytes)
    (hline : ∀ body bs, lineFeed ∉ body → P bs → P (body ++ lineFeed :: bs)) (bytes : Bytes) :
    P bytes := by
  rcases h : LineReader.splitLine bytes with _ | ⟨line, bs⟩
  · exact hopen bytes (LineReader.splitLine_eq_none h)
  · obtain ⟨rfl, body, rfl, hbody⟩ := LineReader.splitLine_eq_some h
    rw [List.append_assoc]
    exact hline body bs hbody (lines_induction hopen hline bs)
termination_by bytes.length
decreasing_by
  subst_vars
  simp only [List.length_append, List.length_singleton]
  omega

/-- No byte of a stream is lost, or moved. -/
theorem flatten_lines (bytes : Bytes) : (lines bytes).flatten ++ rest bytes = bytes := by
  induction bytes using lines_induction with
  | hopen bytes h => rw [lines_open h, rest_open h]; rfl
  | hline body bs h ih =>
    rw [lines_line h, rest_line h, List.flatten_cons, List.append_assoc, ih, List.append_assoc]
    rfl

theorem isLine_of_mem (h : line ∈ lines bytes) : IsLine line := by
  induction bytes using lines_induction with
  | hopen bytes hopen => rw [lines_open hopen] at h; cases h
  | hline body bs hbody ih =>
    rw [lines_line hbody] at h
    rcases List.mem_cons.mp h with rfl | hmem
    · exact ⟨body, rfl, hbody⟩
    · exact ih hmem

theorem lineFeed_not_mem_rest (bytes : Bytes) : lineFeed ∉ rest bytes := by
  induction bytes using lines_induction with
  | hopen bytes h => rwa [rest_open h]
  | hline body bs h ih => rwa [rest_line h]

/-- More data ends lines on top of the line under way. -/
theorem lines_append (a b : Bytes) : lines (a ++ b) = lines a ++ lines (rest a ++ b) := by
  induction a using lines_induction with
  | hopen a h => rw [lines_open h, rest_open h]; rfl
  | hline body bs h ih =>
    rw [List.append_assoc, List.cons_append, lines_line h, lines_line h, rest_line h, ih]
    rfl

theorem rest_append (a b : Bytes) : rest (a ++ b) = rest (rest a ++ b) := by
  induction a using lines_induction with
  | hopen a h => rw [rest_open h]
  | hline body bs h ih => rw [List.append_assoc, List.cons_append, rest_line h, rest_line h, ih]

/-- A stream that is empty or ends with a line feed has no line under way. -/
theorem rest_eq_nil (h : bytes = [] ∨ ∃ body, bytes = body ++ [lineFeed]) : rest bytes = [] := by
  rcases h with rfl | ⟨body, rfl⟩
  · rfl
  · rw [rest_append, rest_line (lineFeed_not_mem_rest body)]
    rfl

end Framing

end LoopbackLock
