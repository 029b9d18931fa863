import LoopbackLock.Wire.LineWriter

/-!
# Sending

A sink whose writes take bytes or are interrupted, and whose flush does not fail, takes every line
that is offered to it, in whatever portions (`Sink.Obliging.offer`). Sending messages to it writes
their lines one behind the other and flushes once a message (`Sink.Obliging.sendAll`).
-/

namespace LoopbackLock

/-- The bytes of messages sent one after the other. -/
def Message.wire (ms : List Message) : Bytes := (ms.map fun m => Text.encode m.line).flatten

namespace Sink

variable {s : Sink} {writes : List WriteAnswer}

/-- An answer after which the sending goes on: some bytes are taken, or the write was
interrupted. -/
def Obliges : WriteAnswer → Prop
  | .ok n => 0 < n
  | .error k => k = .interrupted

/-- A sink that takes all that is offered to it, in any portions. -/
structure Obliging (s : Sink) : Prop where
  writes : ∀ answer ∈ s.writes, Obliges answer
  flush : s.flushFault = none

/-- Obliging answers take all the bytes, and are used from the front. -/
theorem offer_obliging (h : ∀ answer ∈ writes, Obliges answer) (bytes : Bytes) :
    ∃ unused, unused <:+ writes ∧ offer writes bytes = (bytes, unused, .ok ()) := by
  fun_induction offer writes bytes with
  | case1 writes => exact ⟨writes, List.suffix_rfl, rfl⟩
  | case2 bytes => exact ⟨[], List.suffix_rfl, rfl⟩
  | case3 writes bytes _ ih =>
    obtain ⟨unused, hsuffix, heq⟩ := ih fun answer hmem => h answer (List.mem_cons_of_mem _ hmem)
    exact ⟨unused, hsuffix.trans (List.suffix_cons ..), heq⟩
  | case4 k writes bytes _ hk => exact absurd (h _ List.mem_cons_self) hk
  | case5 writes bytes => exact absurd (h _ List.mem_cons_self) (Nat.lt_irrefl 0)
  | case6 n writes bytes _ _ taken writes' result hoffer ih =>
    obtain ⟨unused, hsuffix, heq⟩ := ih fun answer hmem => h answer (List.mem_cons_of_mem _ hmem)
    obtain ⟨rfl, rfl, rfl⟩ : taken = _ ∧ writes' = _ ∧ result = _ := by
      simpa using hoffer.symm.trans heq
    refine ⟨writes', hsuffix.trans (List.suffix_cons ..), ?_⟩
    rw [List.take_append_drop]

/-- A message is written whole and flushed. -/
theorem Obliging.send (h : s.Obliging) (m : Message) :
    ∃ unused, unused <:+ s.writes ∧
      s.send m = ({ s with
        writes := unused
        written := s.written ++ Text.encode m.line
        flushes := s.flushes + 1 }, .ok ()) := by
  obtain ⟨unused, hsuffix, hoffer⟩ := offer_obliging h.writes (Text.encode m.line)
  refine ⟨unused, hsuffix, ?_⟩
  obtain ⟨writes, fault, written, flushes⟩ := s
  obtain rfl : fault = none := h.flush
  unfold Sink.send
  rw [hoffer]
  rfl

/-- Messages are written one behind the other, with a flush for each. -/
theorem Obliging.sendAll (h : s.Obliging) (ms : List Message) :
    (s.sendAll ms).2 = List.replicate ms.length (.ok ()) ∧
      (s.sendAll ms).1.written = s.written ++ Message.wire ms ∧
      (s.sendAll ms).1.flushes = s.flushes + ms.length := by
  induction ms generalizing s with
  | nil => exact ⟨rfl, (List.append_nil _).symm, rfl⟩
  | cons m ms ih =>
    obtain ⟨unused, hsuffix, hsend⟩ := h.send m
    have hnext : Obliging (s.send m).1 := by
      rw [hsend]
      exact ⟨fun answer hmem => h.writes answer (hsuffix.subset hmem), h.flush⟩
    obtain ⟨hresults, hwritten, hflushes⟩ := ih hnext
    have hsendAll : s.sendAll (m :: ms) =
        (((s.send m).1.sendAll ms).1, (s.send m).2 :: ((s.send m).1.sendAll ms).2) := rfl
    rw [hsendAll]
    refine ⟨?_, ?_, ?_⟩
    · rw [hresults, hsend]
      rfl
    · rw [hwritten, hsend, List.append_assoc]
      rfl
    · rw [hflushes, hsend, List.length_cons]
      exact Nat.succ_add_eq_add_succ ..

end Sink

end LoopbackLock
