import LoopbackLock.Proofs.Text.Blank
import LoopbackLock.Proofs.Text.Utf8
import LoopbackLock.Proofs.Wire.Opening

/-!
# Exactly the protocol's lines are recognised

A text is a message if and only if it is the tag and the token of it, with carriage returns and
line feeds behind them (`Message.parse_eq_some_iff`). Lossy decoding puts U+FFFD for what is
ill-formed and no message has one, so a line is a message if and only if its bytes are those of the
tag and the token, then carriage returns, then at most one line feed (`Heard.ofLine_eq_iff`). Any
other line is told as its text, without the blanks at its end. So it is in every call of a reader
that takes a line (`LineReader.recognition`).
-/

namespace LoopbackLock

open Framing

/-! ## Lossy decoding -/

namespace Text

variable {bs : Bytes} {cs : List Char}

theorem mapM_id_of_getD {α : Type} {d : α} {l : List (Option α)} (h : d ∉ l.map (·.getD d)) :
    l.mapM id = some (l.map (·.getD d)) := by
  induction l with
  | nil => rfl
  | cons x l ih =>
    rcases x with _ | a
    · exact absurd List.mem_cons_self h
    · have hl := ih fun hmem => h (List.mem_cons_of_mem _ hmem)
      rw [List.mapM_cons, hl]
      rfl

/-- Lossy decoding that brings no U+FFFD is strict decoding. -/
theorem decode?_of_decodeLossy (h : '\uFFFD' ∉ decodeLossy bs) :
    decode? bs = some (decodeLossy bs) := mapM_id_of_getD h

theorem decodeLossy_flatMap (cs : List Char) :
    decodeLossy (cs.flatMap String.utf8EncodeChar) = cs := by
  induction cs with
  | nil => simp [decodeLossy, items]
  | cons c cs ih =>
    rw [List.flatMap_cons, decodeLossy, items_encodeChar, List.map_cons]
    exact congrArg (c :: ·) ih

theorem flatMap_encodeChar_of_ascii (h : ∀ c ∈ cs, c.toNat < 0x80) :
    cs.flatMap String.utf8EncodeChar = cs.map Char.toUInt8 := by
  induction cs with
  | nil => rfl
  | cons c cs ih =>
    obtain ⟨hc, hcs⟩ := List.forall_mem_cons.mp h
    have hsize : c.utf8Size = 1 :=
      Char.utf8Size_eq_one_iff.mpr (UInt32.le_iff_toNat_le.mpr (Nat.le_of_lt_succ hc))
    rw [List.flatMap_cons, List.map_cons, String.utf8EncodeChar_eq_singleton hsize, ih hcs]
    rfl

/-- Bytes are decoded to an ASCII text exactly if they are its characters' bytes. -/
theorem decodeLossy_eq_iff (h : ∀ c ∈ cs, c.toNat < 0x80) :
    decodeLossy bs = cs ↔ bs = cs.map Char.toUInt8 := by
  rw [← flatMap_encodeChar_of_ascii h]
  constructor
  · rintro rfl
    refine decode?_eq_some_iff.mp (decode?_of_decodeLossy fun hmem => ?_)
    exact absurd (h _ hmem) (by decide)
  · rintro rfl
    exact decodeLossy_flatMap cs

end Text

/-! ## Texts -/

namespace Message

variable {m : Message} {s : String}

/-- The characters of a message, without the end of its line. -/
def body (m : Message) : List Char := (tag ++ m.token).toList

theorem body_ascii (m : Message) : ∀ c ∈ m.body, c.toNat < 0x80 := by
  have hall : m.body.all (fun c => c.toNat < 0x80) = true := by cases m <;> decide
  intro c hc
  exact of_decide_eq_true (List.all_eq_true.mp hall c hc)

theorem body_getLast (m : Message) : ∀ c ∈ m.body.getLast?, isLineEnd c = false := by
  have hlast : m.body.getLast?.any isLineEnd = false := by cases m <;> decide
  intro c hc
  rwa [Option.mem_def.mp hc] at hlast

theorem isLineEnd_iff {c : Char} : isLineEnd c = true ↔ c = '\r' ∨ c = '\n' := by
  simp [isLineEnd]

theorem parse_eq_some_iff_dropEnd :
    parse s = some m ↔ Text.dropEndWhile isLineEnd s.toList = m.body := by
  unfold parse
  constructor
  · intro h
    have hbody := List.find?_some h
    exact of_decide_eq_true hbody
  · intro h
    dsimp only
    rw [h]
    cases m <;> decide

/-- A text is a message exactly if it is its tag and token, with carriage returns and line feeds
behind them. -/
theorem parse_eq_some_iff : parse s = some m ↔
    ∃ ends : List Char, (∀ c ∈ ends, c = '\r' ∨ c = '\n') ∧ s.toList = m.body ++ ends := by
  rw [parse_eq_some_iff_dropEnd]
  constructor
  · intro h
    obtain ⟨ends, hcs, hends, -⟩ := Text.dropEndWhile_spec isLineEnd s.toList
    exact ⟨ends, fun c hc => isLineEnd_iff.mp (hends c hc), by rw [← h]; exact hcs⟩
  · rintro ⟨ends, hends, hs⟩
    rw [hs]
    exact Text.dropEndWhile_append (fun c hc => isLineEnd_iff.mpr (hends c hc)) m.body_getLast

/-- The carriage return. -/
def carriageReturn : UInt8 := 13

/-- The bytes of a line that spells a message: the ASCII bytes of its tag and its token, then
carriage returns, then a line feed or nothing. -/
def Spells (m : Message) (line : Bytes) : Prop :=
  ∃ n, ∃ feed ∈ [[], [lineFeed]],
    line = m.body.map Char.toUInt8 ++ List.replicate n carriageReturn ++ feed

theorem body_append_ascii {ends : List Char} (h : ∀ c ∈ ends, c = '\r' ∨ c = '\n') :
    ∀ c ∈ m.body ++ ends, c.toNat < 0x80 := by
  intro c hc
  rcases List.mem_append.mp hc with hc | hc
  · exact m.body_ascii c hc
  · rcases h c hc with rfl | rfl <;> decide

/-- Ends of lines with no line feed but at the end. -/
theorem ends_eq {ends : List Char} (h : ∀ c ∈ ends, c = '\r' ∨ c = '\n')
    (hone : lineFeed ∉ (ends.map Char.toUInt8).dropLast) :
    ∃ n, ∃ feed ∈ [[], [lineFeed]],
      ends.map Char.toUInt8 = List.replicate n carriageReturn ++ feed := by
  induction ends with
  | nil => exact ⟨0, [], by simp, rfl⟩
  | cons c ends ih =>
    obtain ⟨hc, hends⟩ := List.forall_mem_cons.mp h
    rcases ends with _ | ⟨d, ends⟩
    · rcases hc with rfl | rfl
      · exact ⟨1, [], by simp, rfl⟩
      · exact ⟨0, [lineFeed], by simp, rfl⟩
    · have hdrop : ((c :: d :: ends).map Char.toUInt8).dropLast =
          Char.toUInt8 c :: ((d :: ends).map Char.toUInt8).dropLast := rfl
      rw [hdrop, List.mem_cons, not_or] at hone
      obtain ⟨n, feed, hfeed, heq⟩ := ih hends hone.2
      rcases hc with rfl | rfl
      · exact ⟨n + 1, feed, hfeed, by rw [List.map_cons, heq]; rfl⟩
      · exact absurd rfl hone.1

/-- The bytes of carriage returns and a line feed are those of characters that end lines. -/
theorem exists_ends (n : Nat) {feed : Bytes} (hfeed : feed ∈ [[], [lineFeed]]) :
    ∃ ends : List Char, (∀ c ∈ ends, c = '\r' ∨ c = '\n') ∧
      ends.map Char.toUInt8 = List.replicate n carriageReturn ++ feed := by
  have hreturns : ∀ c ∈ List.replicate n '\r', c = '\r' ∨ c = '\n' :=
    fun c hc => .inl (List.eq_of_mem_replicate hc)
  obtain rfl | rfl : feed = [] ∨ feed = [lineFeed] := by simpa using hfeed
  · exact ⟨List.replicate n '\r', hreturns, by rw [List.map_replicate, List.append_nil]; rfl⟩
  · refine ⟨List.replicate n '\r' ++ ['\n'], fun c hc => ?_, ?_⟩
    · rcases List.mem_append.mp hc with hc | hc
      · exact hreturns c hc
      · exact .inr (List.mem_singleton.mp hc)
    · rw [List.map_append, List.map_replicate]
      rfl

end Message

/-! ## Lines -/

namespace Heard

variable {line : Bytes} {m : Message}

theorem ofLine_eq_message_iff :
    ofLine line = .message m ↔ Message.parse (.ofList (Text.decodeLossy line)) = some m := by
  unfold ofLine
  simp only
  split
  next m' hparse => rw [hparse, Option.some.injEq, message.injEq]
  next hparse => rw [hparse]; simp

/-- A line is a message exactly if its bytes are those of the tag and the token, then carriage
returns, then at most one line feed. -/
theorem ofLine_eq_iff (hone : lineFeed ∉ line.dropLast) :
    ofLine line = .message m ↔ m.Spells line := by
  rw [ofLine_eq_message_iff, Message.parse_eq_some_iff, String.toList_ofList]
  constructor
  · rintro ⟨ends, hends, hline⟩
    rw [Text.decodeLossy_eq_iff (Message.body_append_ascii hends), List.map_append] at hline
    obtain ⟨n, feed, hfeed, heq⟩ : ∃ n, ∃ feed ∈ [[], [lineFeed]],
        ends.map Char.toUInt8 = List.replicate n Message.carriageReturn ++ feed := by
      refine Message.ends_eq hends fun hmem => hone ?_
      rw [hline]
      rcases hnil : ends.map Char.toUInt8 with _ | ⟨b, bs⟩
      · rw [hnil] at hmem
        cases hmem
      · rw [List.dropLast_append_of_ne_nil (List.cons_ne_nil b bs), ← hnil]
        exact List.mem_append_right _ hmem
    exact ⟨n, feed, hfeed, by rw [hline, heq, List.append_assoc]⟩
  · rintro ⟨n, feed, hfeed, rfl⟩
    obtain ⟨ends, hends, heq⟩ := Message.exists_ends n hfeed
    refine ⟨ends, hends, ?_⟩
    rw [Text.decodeLossy_eq_iff (Message.body_append_ascii hends), List.map_append, heq,
      List.append_assoc]

/-- What is told of a line: its message if it spells one, else its text without the blanks at the
end. -/
structure Tells (line : Bytes) (h : Heard) : Prop where
  message : ∀ m, h = .message m ↔ m.Spells line
  foreign : (∀ m : Message, ¬m.Spells line) → ∃ (text : String) (blanks : List Char),
    h = .unexpected text ∧ Text.decodeLossy line = text.toList ++ blanks ∧
      (∀ c ∈ blanks, Text.isBlank c = true) ∧ ∀ c ∈ text.toList.getLast?, Text.isBlank c = false

theorem tells_ofLine (hone : lineFeed ∉ line.dropLast) : Tells line (ofLine line) := by
  refine ⟨fun m => ofLine_eq_iff hone, fun hnone => ?_⟩
  obtain ⟨blanks, hcs, hblanks, hlast⟩ :=
    Text.dropEndWhile_spec Text.isBlank (Text.decodeLossy line)
  refine ⟨Text.trimEnd (.ofList (Text.decodeLossy line)), blanks, ?_, ?_, hblanks, ?_⟩
  · rcases hparse : Message.parse (.ofList (Text.decodeLossy line)) with _ | m
    · simp only [ofLine, hparse]
    · exact absurd ((ofLine_eq_iff hone).mp (ofLine_eq_message_iff.mpr hparse)) (hnone m)
  · rwa [Text.trimEnd, String.toList_ofList, String.toList_ofList]
  · rwa [Text.trimEnd, String.toList_ofList, String.toList_ofList]

end Heard

/-! ## Calls of a reader -/

namespace LineReader

open Heard

/-- A stream that is one line in pieces opens with the line. -/
theorem opens_pieces {pieces : List Bytes} (hpieces : ∀ piece ∈ pieces, piece ≠ [])
    (hne : pieces ≠ []) (hone : lineFeed ∉ pieces.flatten.dropLast) :
    Opens (pieces.map .ok ++ [.ok []]) (.line pieces.flatten) := by
  have hflow : Flowing (pieces.map .ok) := by
    intro read hread
    obtain ⟨piece, hpiece, rfl⟩ := List.mem_map.mp hread
    exact .inr ⟨piece, hpieces piece hpiece, rfl⟩
  have hdata : data (pieces.map .ok) = pieces.flatten := by
    clear hpieces hne hone hflow
    induction pieces with
    | nil => rfl
    | cons piece pieces ih => rw [List.map_cons, data, ih, List.flatten_cons]
  have hsome : pieces.flatten ≠ [] := by
    obtain ⟨piece, pieces, rfl⟩ := List.exists_cons_of_ne_nil hne
    simp [hpieces piece List.mem_cons_self]
  by_cases hfeed : lineFeed ∈ pieces.flatten
  · have hlast : pieces.flatten.dropLast ++ [lineFeed] = pieces.flatten := by
      have hsplit := List.dropLast_concat_getLast hsome
      rw [← hsplit, List.mem_append, List.mem_singleton] at hfeed
      rw [hfeed.resolve_left hone, hsplit]
    have hwhole : data (pieces.map .ok) = pieces.flatten.dropLast ++ lineFeed :: [] :=
      hdata.trans hlast.symm
    rw [← hlast]
    exact .whole hflow hone hwhole
  · rw [← hdata]
    exact .last hflow (hdata ▸ hfeed) (hdata ▸ hsome)

/-- Exactly the protocol's lines are recognised. A text is a message if and only if it is the tag
and the token of that message with carriage returns and line feeds behind them; so the written line
of a message is it, and no text is two messages. A call of a reader that finds neither the stream
closed nor a failure takes one line off the bytes it had and read, and tells it: as a message if and
only if it has the bytes of the tag and the token, then carriage returns, then at most one line
feed; and otherwise as the text, decoded, without the blanks at its end. A new reader tells the line
that its stream opens with, and so any line that comes in any pieces. -/
theorem recognition :
    (∀ (s : String) (m : Message), Message.parse s = some m ↔
      ∃ ends : List Char, (∀ c ∈ ends, c = '\r' ∨ c = '\n') ∧
        s = Message.tag ++ m.token ++ .ofList ends) ∧
    (∀ m : Message, Message.parse m.line = some m) ∧
    (∀ (m m' : Message) (ends ends' : List Char), (∀ c ∈ ends, c = '\r' ∨ c = '\n') →
      (∀ c ∈ ends', c = '\r' ∨ c = '\n') →
      Message.tag ++ m.token ++ .ofList ends = Message.tag ++ m'.token ++ .ofList ends' → m = m') ∧
    (∀ (r next : LineReader) (reads left : List ReadAnswer) (h : Heard), lineFeed ∉ r.pending →
      r.receive reads = (.ok h, next, left) → h ≠ .closed →
      ∃ used line, reads = used ++ left ∧ line ≠ [] ∧ lineFeed ∉ line.dropLast ∧
        next.pending = [] ∧ r.pending ++ r.buffered ++ data used = line ++ next.buffered ∧
        Tells line h) ∧
    (∀ (reads : List ReadAnswer) (line : Bytes), Opens (reads ++ [.ok []]) (.line line) →
      ∃ h, (receive {} reads).1 = .ok h ∧ Tells line h) ∧
    (∀ pieces : List Bytes, (∀ piece ∈ pieces, piece ≠ []) → pieces ≠ [] →
      lineFeed ∉ pieces.flatten.dropLast →
      ∃ h, (receive {} (pieces.map .ok)).1 = .ok h ∧ Tells pieces.flatten h) := by
  have hparse : ∀ {s : String} {m : Message}, Message.parse s = some m ↔
      ∃ ends : List Char, (∀ c ∈ ends, c = '\r' ∨ c = '\n') ∧
        s = Message.tag ++ m.token ++ .ofList ends := by
    intro s m
    rw [Message.parse_eq_some_iff]
    refine exists_congr fun ends => and_congr_right fun _ => ?_
    rw [← String.toList_inj, String.toList_append, String.toList_ofList]
    rfl
  have hopens : ∀ (reads : List ReadAnswer) (line : Bytes),
      Opens (reads ++ [.ok []]) (.line line) →
        ∃ h, (receive {} reads).1 = .ok h ∧ Tells line h :=
    fun reads line hopens => ⟨_, receive_of_opens hopens, tells_ofLine hopens.line.2⟩
  refine ⟨fun s m => hparse, fun m => ?_, ?_, ?_, hopens, fun pieces hpieces hne hone => ?_⟩
  · exact hparse.mpr ⟨['\n'], by simp, by cases m <;> decide⟩
  · intro m m' ends ends' hends hends' heq
    have hm : Message.parse (Message.tag ++ m.token ++ .ofList ends) = some m :=
      hparse.mpr ⟨ends, hends, rfl⟩
    rw [hparse.mpr ⟨ends', hends', heq⟩] at hm
    exact (Option.some.inj hm).symm
  · intro r next reads left h hopen hreceive hclosed
    obtain ⟨used, line, hused, rfl, hne, hone, hpending, hstock⟩ :=
      line_of_receive hopen hreceive hclosed
    exact ⟨used, line, hused, hne, hone, hpending, hstock, tells_ofLine hone⟩
  · exact hopens _ _ (opens_pieces hpieces hne hone)

/-- A check whose first letter is encoded in two bytes, in three pieces. Blanks stand behind it, and
one of them is no ASCII character. -/
def overlong : List Bytes := [[0xC1, 0x90], Text.encode "ORT_LOCK::CHECK \u2003", [lineFeed]]

/-- A release of which two pieces have come, with carriage returns and the beginning of a line
behind it. -/
def crumbs : LineReader := ⟨Text.encode "EASE\r\r\nPORT", Text.encode "PORT_LOCK::REL"⟩

theorem overlong_unrecognised :
    (receive {} (overlong.map .ok)).1 = .ok (.unexpected "\uFFFD\uFFFDORT_LOCK::CHECK") ∧
      lineFeed ∉ crumbs.pending ∧
      crumbs.receive [] = (.ok (.message .release), ⟨Text.encode "PORT", []⟩, []) ∧
      ∃ line, Message.Spells .release line ∧
        crumbs.pending ++ crumbs.buffered = line ++ Text.encode "PORT" := by
  obtain ⟨-, -, -, hcalls, -, hpieces⟩ := recognition
  have hreceive : crumbs.receive [] =
      (.ok (.message .release), ⟨Text.encode "PORT", []⟩, []) := by
    have hsplit : splitLine crumbs.buffered =
        some (Text.encode "EASE\r\r\n", Text.encode "PORT") := by decide +kernel
    have hline : Heard.ofLine (crumbs.pending ++ Text.encode "EASE\r\r\n") = .message .release := by
      decide +kernel
    rw [receive, start, work, hsplit]
    simp only [hline, finish]
  obtain ⟨used, line, hused, -, -, -, hstock, htells⟩ := hcalls crumbs _ [] [] _
    (by decide +kernel) hreceive (by decide)
  obtain ⟨h, hreceive', htells'⟩ := hpieces overlong (by decide +kernel) (by decide)
    (by decide +kernel)
  have hforeign : ∀ m : Message, ¬m.Spells overlong.flatten := by
    rintro m ⟨n, feed, -, hline⟩
    have hhead := congrArg (List.take 1) hline
    rw [List.append_assoc, List.take_append_of_le_length (by cases m <;> decide)] at hhead
    revert hhead
    cases m <;> decide +kernel
  obtain ⟨text, blanks, rfl, htext, hblanks, hlast⟩ := htells'.foreign hforeign
  have hcut : text.toList = "\uFFFD\uFFFDORT_LOCK::CHECK".toList := by
    rw [← Text.dropEndWhile_append hblanks hlast, ← htext]
    decide +kernel
  refine ⟨by rw [hreceive', String.toList_inj.mp hcut], by decide +kernel, hreceive, line,
    (htells.message _).mp rfl, ?_⟩
  rwa [List.append_eq_nil_iff.mp hused.symm |>.1, data, List.append_nil] at hstock

end LineReader

end LoopbackLock
