import LoopbackLock.Proofs.Wire.Framing
import LoopbackLock.Proofs.Wire.Sending

/-!
# Sent and received

The line of a message is one line, and is read as that message (`Message.isLine`,
`Heard.ofLine_line`), so the lines of what is sent are the lines of the messages
(`Framing.lines_wire`). A reader gets them back from any script with the bytes that were written,
however these were taken and are handed out, with a failure for each read that fails
(`LineReader.round_trip`).
-/

namespace LoopbackLock

open Framing

variable {script : List ReadAnswer} {ms : List Message}

theorem Message.isLine (m : Message) : IsLine (Text.encode m.line) := by
  refine ⟨(Text.encode m.line).dropLast, ?_⟩
  cases m <;> decide +kernel

theorem Heard.ofLine_line (m : Message) : Heard.ofLine (Text.encode m.line) = .message m := by
  cases m <;> decide +kernel

namespace Framing

/-- The lines of what is sent are the lines of the messages. -/
theorem lines_wire (ms : List Message) :
    lines (Message.wire ms) = ms.map fun m => Text.encode m.line := by
  induction ms with
  | nil => rfl
  | cons m ms ih =>
    obtain ⟨body, hline, hbody⟩ := m.isLine
    have hwire : Message.wire (m :: ms) = body ++ lineFeed :: Message.wire ms := by
      show Text.encode m.line ++ Message.wire ms = _
      rw [hline, List.append_assoc]
      rfl
    rw [hwire, lines_line hbody, ih, List.map_cons, hline]

/-- No line is under way behind what is sent. -/
theorem rest_wire (ms : List Message) : rest (Message.wire ms) = [] := by
  have hall := flatten_lines (Message.wire ms)
  rw [lines_wire] at hall
  exact List.append_right_eq_self.mp hall

/-- What is heard of messages: the messages. -/
theorem heard_wire (ms : List Message) : (lines (Message.wire ms)).map .ofLine =
    ms.map Heard.message := by
  rw [lines_wire, List.map_map]
  exact List.map_congr_left fun m _ => Heard.ofLine_line m

/-- Every result is heard or is a failure. -/
theorem length_heard_add_faults (results : List Received) :
    (heard results).length + (faults results).length = results.length := by
  induction results with
  | nil => rfl
  | cons result results ih =>
    cases result
    case ok => rw [faults, List.length_cons, ← ih]; exact Nat.succ_add _ _
    case error => rw [faults, List.length_cons, List.length_cons, ← ih]; rfl

theorem heard_append (results results' : List Received) :
    heard (results ++ results') = heard results ++ heard results' := List.filterMap_append

theorem heard_closed (n : Nat) :
    heard (List.replicate n (.ok .closed)) = List.replicate n .closed := by
  unfold heard
  rw [List.filterMap_replicate]
  rfl

end Framing

namespace LineReader

/-- A script whose data ends with a line brings its transcript and then that the stream is
closed. -/
theorem told_of_data (hdata : .ok [] ∉ script) (hrest : rest (data script) = []) (n : Nat) :
    Held.told {} (script ++ ends n) = transcript script ++ List.replicate n (.ok .closed) := by
  have hnone : ∀ before after, script ≠ before ++ .ok [] :: after := by
    rintro before after rfl
    exact hdata (List.mem_append_right _ List.mem_cons_self)
  obtain ⟨htold, hlast⟩ := Held.Agrees.start.run fun before after heq =>
    absurd heq (hnone before after)
  rw [(foldl_feed hdata List.not_mem_nil).trans hrest] at hlast
  rw [Held.told_append, hlast.eq_start, told_ends, htold]
  rfl

/-- Messages are sent to a sink that takes their bytes in any portions, with interruptions at
will, and read from a script that hands out the bytes that were written in any pieces, with failing
reads anywhere. Every sending succeeds, the lines are written one behind the other with a flush for
each, and the calls of a reader return the messages in order and then that the stream is closed,
but for one failure for each failed read that was not interrupted. -/
theorem round_trip {s : Sink} (hs : s.Obliging) (hdata : .ok [] ∉ script)
    (hwire : (s.sendAll ms).1.written = s.written ++ data script) :
    (s.sendAll ms).2 = List.replicate ms.length (.ok ()) ∧
      (s.sendAll ms).1.written = s.written ++ (ms.map fun m => Text.encode m.line).flatten ∧
      (s.sendAll ms).1.flushes = s.flushes + ms.length ∧
      ∀ n,
        let failures := (faults script).filter (· ≠ .interrupted)
        let calls := ms.length + failures.length + n
        let results := (receiveTimes calls {} (readsOfScript script).flatten).1
        heard results = ms.map .message ++ List.replicate n .closed ∧ faults results = failures := by
  obtain ⟨hresults, hwritten, hflushes⟩ := hs.sendAll ms
  refine ⟨hresults, hwritten, hflushes, ?_⟩
  intro n failures calls results
  have hbytes : data script = Message.wire ms :=
    List.append_cancel_left (hwire.symm.trans hwritten)
  have hheard : heard (transcript script) = ms.map .message := by
    rw [transcript, heard_outputs hdata List.not_mem_nil, List.nil_append, hbytes, heard_wire]
  have hfaults : faults (transcript script) = failures := faults_outputs script
  have hlength : (transcript script).length = ms.length + failures.length := by
    rw [← length_heard_add_faults, hheard, hfaults, List.length_map]
  have hclosed : faults (List.replicate n (.ok .closed : Received)) = [] := by
    induction n with
    | zero => rfl
    | succ n ih => exact ih
  have hall : results = transcript script ++ List.replicate n (.ok .closed) := by
    show (receiveTimes (ms.length + failures.length + n) {} (readsOfScript script).flatten).1 = _
    rw [receiveTimes_script, told_of_data hdata (by rw [hbytes, rest_wire]), ← hlength,
      List.take_append, List.take_of_length_le (Nat.le_add_right ..), Nat.add_sub_cancel_left,
      List.take_replicate, Nat.min_eq_left (Nat.le_add_left ..)]
  rw [hall, heard_append, heard_closed, hheard, faults_append, hclosed, hfaults, List.append_nil]
  exact ⟨rfl, rfl⟩

/-- A sink that takes two messages in three portions, after an interruption. -/
def sluggishSink : Sink :=
  { writes := [.error .interrupted, .ok 4, .ok 13, .error .interrupted, .ok 100] }

/-- What it was given, in pieces, with time-outs inside a line and behind the last. -/
def piecemeal : List ReadAnswer :=
  [.ok (Text.encode "PORT_"), .error .wouldBlock, .ok (Text.encode "LOCK::CHECK\nPORT_LOCK::"),
    .error .interrupted, .ok (Text.encode "RELEASE\n"), .error .timedOut]

theorem piecemeal_received :
    (sluggishSink.sendAll [.check, .release]).1.written = data piecemeal ∧
      heard (receiveTimes 5 {} (readsOfScript piecemeal).flatten).1 =
        [.message .check, .message .release, .closed] := by
  have hwritten : (sluggishSink.sendAll [.check, .release]).1.written = data piecemeal := by
    decide +kernel
  have hobliging : sluggishSink.Obliging := by
    refine ⟨?_, rfl⟩
    simp [sluggishSink, Sink.Obliges]
  have hsent := round_trip hobliging (show (.ok [] : ReadAnswer) ∉ piecemeal by decide +kernel)
    hwritten
  exact ⟨hwritten, (hsent.2.2.2 1).1⟩

end LineReader

end LoopbackLock
