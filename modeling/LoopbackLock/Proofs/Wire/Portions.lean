import LoopbackLock.Proofs.Total
import LoopbackLock.Proofs.Wire.Sending

/-!
# What sendings write

A sending offers its line to one write after the other. It ends when the line is taken, or with the
first write that fails for good or takes nothing (`Sink.offer_cases`). `Sink.sendings` accounts for
sendings one after the other: which answers each of them met, which bytes were taken of its line,
how often it flushed, and what it returned. Every line is written whole and flushed once, or it is
cut short where its sending says so, and no byte is left out or written twice; interruptions leave
no trace (`Sink.sendings_accounted`).
-/

namespace LoopbackLock

namespace Sink

variable {s : Sink} {writes : List WriteAnswer} {bytes : Bytes}

/-! ## One line -/

/-- What a sending fails with when a write is answered so, if it fails. -/
def failure? : WriteAnswer → Option FaultKind
  | .ok n => if n = 0 then some .writeZero else none
  | .error k => if k = .interrupted then none else some k

/-- How many bytes a write takes at most that is answered so. -/
def accepted : WriteAnswer → Nat
  | .ok n => n
  | .error _ => 0

theorem obliges_iff (answer : WriteAnswer) : Obliges answer ↔ failure? answer = none := by
  cases answer with
  | ok n => simp [Obliges, failure?, Nat.pos_iff_ne_zero]
  | error k => simp [Obliges, failure?]

/-- A write that ends a sending takes nothing. -/
theorem accepted_of_failure? {answer : WriteAnswer} {k : FaultKind}
    (h : failure? answer = some k) : accepted answer = 0 := by
  cases answer with
  | ok n =>
    exact Decidable.byContradiction fun hn : n ≠ 0 => nomatch (if_neg hn).symm.trans h
  | error _ => rfl

/-- The answers that a line meets: obliging ones until all of it is taken, or obliging ones that
take less than all of it and then one that ends the sending. -/
theorem offer_cases (writes : List WriteAnswer) (bytes : Bytes) :
    ∃ used, writes = used ++ (offer writes bytes).2.1 ∧
      ((∀ answer ∈ used, Obliges answer) ∧ (offer writes bytes).1 = bytes ∧
          (offer writes bytes).2.2 = .ok () ∨
        ∃ front last k, used = front ++ [last] ∧ (∀ answer ∈ front, Obliges answer) ∧
          failure? last = some k ∧ total accepted front < bytes.length ∧
          (offer writes bytes).1 = bytes.take (total accepted front) ∧
          (offer writes bytes).2.2 = .error k) := by
  fun_induction offer writes bytes with
  | case1 writes => exact ⟨[], rfl, .inl ⟨List.forall_mem_nil _, rfl, rfl⟩⟩
  | case2 bytes => exact ⟨[], rfl, .inl ⟨List.forall_mem_nil _, rfl, rfl⟩⟩
  | case3 writes bytes hne ih =>
    obtain ⟨used, hused, hcases⟩ := ih
    refine ⟨.error .interrupted :: used, by rw [List.cons_append, ← hused], ?_⟩
    rcases hcases with ⟨hall, hdone⟩ | ⟨front, last, k, rfl, hall, hlast, hless, htaken, hfail⟩
    · exact .inl ⟨List.forall_mem_cons.mpr ⟨rfl, hall⟩, hdone⟩
    · refine .inr ⟨.error .interrupted :: front, last, k, rfl,
        List.forall_mem_cons.mpr ⟨rfl, hall⟩, hlast, ?_, ?_, hfail⟩ <;>
      simpa [accepted] using ‹_›
  | case4 k writes bytes hne hk =>
    exact ⟨[.error k], rfl, .inr ⟨[], .error k, k, rfl, List.forall_mem_nil _, if_neg hk,
      List.length_pos_iff.mpr hne, rfl, rfl⟩⟩
  | case5 writes bytes hne =>
    exact ⟨[.ok 0], rfl, .inr ⟨[], .ok 0, .writeZero, rfl, List.forall_mem_nil _, rfl,
      List.length_pos_iff.mpr hne, rfl, rfl⟩⟩
  | case6 n writes bytes hne hn taken writes' result hoffer ih =>
    simp only [hoffer] at ih
    obtain ⟨used, rfl, hcases⟩ := ih
    have hn : Obliges (.ok n) := Nat.pos_of_ne_zero hn
    refine ⟨.ok n :: used, rfl, ?_⟩
    rcases hcases with ⟨hall, rfl, hdone⟩ | ⟨front, last, k, rfl, hall, hlast, hless, rfl, hfail⟩
    · exact .inl ⟨List.forall_mem_cons.mpr ⟨hn, hall⟩, List.take_append_drop n bytes, hdone⟩
    · rw [List.length_drop] at hless
      refine .inr ⟨.ok n :: front, last, k, rfl, List.forall_mem_cons.mpr ⟨hn, hall⟩, hlast,
        ?_, ?_, hfail⟩ <;> rw [total_cons, accepted]
      · omega
      · exact List.take_add.symm

/-- The write was interrupted. -/
def isInterruption : WriteAnswer → Bool
  | .ok _ => false
  | .error k => k = .interrupted

/-- The answers without the interruptions among them. -/
def uninterrupted (writes : List WriteAnswer) : List WriteAnswer :=
  writes.filter (!isInterruption ·)

theorem uninterrupted_append (writes rest : List WriteAnswer) :
    uninterrupted (writes ++ rest) = uninterrupted writes ++ uninterrupted rest :=
  List.filter_append ..

/-- A line is taken as it would be without the interruptions. -/
theorem offer_uninterrupted (writes : List WriteAnswer) (bytes : Bytes) :
    offer (uninterrupted writes) bytes =
      ((offer writes bytes).1, uninterrupted (offer writes bytes).2.1,
        (offer writes bytes).2.2) := by
  fun_induction offer writes bytes with
  | case1 writes => rw [offer]
  | case2 bytes hne => rw [uninterrupted, List.filter_nil, offer]; exact hne
  | case3 writes bytes hne ih => exact ih
  | case4 k writes bytes hne hk =>
    have hkeep : uninterrupted (.error k :: writes) = .error k :: uninterrupted writes :=
      List.filter_cons_of_pos (by simpa [isInterruption] using hk)
    rw [hkeep, offer] <;> assumption
  | case5 writes bytes hne =>
    have hkeep : uninterrupted (.ok 0 :: writes) = .ok 0 :: uninterrupted writes := rfl
    rw [hkeep, offer]
    exact hne
  | case6 n writes bytes hne hn taken writes' result hoffer ih =>
    have hkeep : uninterrupted (.ok n :: writes) = .ok n :: uninterrupted writes := rfl
    rw [hoffer] at ih
    rw [hkeep, offer, ih] <;> assumption

/-! ## One sending -/

/-- What becomes of an attempt that fails so, if it fails. -/
def outcome : Option FaultKind → Except FaultKind Unit
  | some k => .error k
  | none => .ok ()

/-- The next writes of a sink without the interruptions among them. -/
def calmed (s : Sink) : Sink := { s with writes := uninterrupted s.writes }

end Sink

/-- What a sending did: what it was asked for, what its flush would have failed with, the answers
that its writes met, the bytes that they took, how often it flushed, and what it returned. -/
structure Sending where
  message : Message
  flushFault : Option FaultKind
  used : List WriteAnswer
  taken : Bytes
  flushes : Nat
  result : Except FaultKind Unit

namespace Sending

variable (a : Sending)

/-- The line that was to be written. -/
def line : Bytes := Text.encode a.message.line

/-- The sending as it is without the interruptions. -/
def calmed : Sending := { a with used := Sink.uninterrupted a.used }

/-- A sending writes its line from the front and flushes it once it is whole. It writes what its
writes accepted and no more, and it returns the first failure that it met, that of the flush being
the last one possible. -/
structure Sound : Prop where
  front : a.taken <+: a.line
  portion : a.taken = a.line ∨ a.taken = a.line.take (total Sink.accepted a.used)
  whole_iff : a.taken = a.line ↔ ∀ answer ∈ a.used, Sink.Obliges answer
  flushes : a.flushes = if a.taken = a.line then 1 else 0
  ok_iff : a.result = .ok () ↔ a.taken = a.line ∧ a.flushFault = none
  result : a.result = Sink.outcome ((a.used.findSome? Sink.failure?).or a.flushFault)

variable {m : Message} {fault : Option FaultKind}

/-- A sending whose writes all oblige. -/
theorem sound_whole {used : List WriteAnswer} (hall : ∀ answer ∈ used, Sink.Obliges answer) :
    (⟨m, fault, used, Text.encode m.line, 1, Sink.outcome fault⟩ : Sending).Sound := by
  have hclear : used.findSome? Sink.failure? = none :=
    List.findSome?_eq_none_iff.mpr fun answer hmem => (Sink.obliges_iff answer).mp (hall answer hmem)
  exact {
    front := List.prefix_rfl
    portion := .inl rfl
    whole_iff := iff_of_true rfl hall
    flushes := (if_pos rfl).symm
    ok_iff := by cases fault <;> simp [Sink.outcome, line]
    result := by simp only [hclear, Option.none_or] }

/-- A sending that one of its writes ends. -/
theorem sound_cut {front : List WriteAnswer} {last : WriteAnswer} {k : FaultKind}
    (hfront : ∀ answer ∈ front, Sink.Obliges answer) (hlast : Sink.failure? last = some k)
    (hless : total Sink.accepted front < (Text.encode m.line).length) :
    (⟨m, fault, front ++ [last], (Text.encode m.line).take (total Sink.accepted front), 0,
      .error k⟩ : Sending).Sound := by
  have hclear : front.findSome? Sink.failure? = none :=
    List.findSome?_eq_none_iff.mpr fun answer hmem =>
      (Sink.obliges_iff answer).mp (hfront answer hmem)
  have hcut : (Text.encode m.line).take (total Sink.accepted front) ≠ Text.encode m.line := by
    intro hwhole
    have := congrArg List.length hwhole
    rw [List.length_take] at this
    omega
  exact {
    front := List.take_prefix ..
    portion := .inr (by simp [Sink.accepted_of_failure? hlast, line])
    whole_iff := iff_of_false hcut fun hall => by
      have := (Sink.obliges_iff last).mp (hall last (by simp))
      simp [hlast] at this
    flushes := (if_neg hcut).symm
    ok_iff := iff_of_false nofun fun h => hcut h.1
    result := by simp [List.findSome?_append, hclear, hlast, Sink.outcome] }

end Sending

namespace Sink

variable {s : Sink}

/-- A sending of a message, by what it changes about the sink. -/
def sending (s : Sink) (m : Message) : Sending where
  message := m
  flushFault := s.flushFault
  used := s.writes.take (s.writes.length - (s.send m).1.writes.length)
  taken := (s.send m).1.written.drop s.written.length
  flushes := (s.send m).1.flushes - s.flushes
  result := (s.send m).2

/-- What a sending does to its sink: the line is offered, and flushed if it is taken. -/
theorem send_eq (s : Sink) (m : Message) :
    s.send m = match (offer s.writes (Text.encode m.line)).2.2 with
      | .ok () => ({
          writes := (offer s.writes (Text.encode m.line)).2.1
          flushFault := none
          written := s.written ++ (offer s.writes (Text.encode m.line)).1
          flushes := s.flushes + 1 }, outcome s.flushFault)
      | .error k => ({ s with
          writes := (offer s.writes (Text.encode m.line)).2.1
          written := s.written ++ (offer s.writes (Text.encode m.line)).1 }, .error k) := by
  unfold send
  split
  rename_i taken writes result hoffer
  simp only [hoffer]
  cases result with
  | ok u =>
    unfold flush
    cases hfault : s.flushFault <;> simp [outcome]
  | error k => rfl

/-- The account of a sending is what it changed about the sink. -/
theorem sending_eq {m : Message} {used : List WriteAnswer} {taken : Bytes} {flushes : Nat}
    (hused : s.writes = used ++ (s.send m).1.writes)
    (htaken : (s.send m).1.written = s.written ++ taken)
    (hflushes : (s.send m).1.flushes = s.flushes + flushes) :
    s.sending m = ⟨m, s.flushFault, used, taken, flushes, (s.send m).2⟩ := by
  have hlen : s.writes.length - (s.send m).1.writes.length = used.length := by
    rw [hused, List.length_append, Nat.add_sub_cancel]
  rw [sending, hlen, htaken, hflushes, List.drop_left, Nat.add_sub_cancel_left]
  congr 1
  rw [hused, List.take_left]

/-- A sending changes about its sink what its account says, and the account is sound. -/
theorem sending_accounted (s : Sink) (m : Message) :
    (s.sending m).Sound ∧ s.writes = (s.sending m).used ++ (s.send m).1.writes ∧
      (s.send m).1.written = s.written ++ (s.sending m).taken ∧
      (s.send m).1.flushes = s.flushes + (s.sending m).flushes := by
  obtain ⟨used, hused, hcases⟩ := offer_cases s.writes (Text.encode m.line)
  have hsend := s.send_eq m
  rcases hcases with ⟨hall, htaken, hdone⟩ |
    ⟨front, last, k, rfl, hfront, hlast, hless, htaken, hfail⟩
  · simp only [hdone, htaken] at hsend
    have hwrites : s.writes = used ++ (s.send m).1.writes := by rw [hsend]; exact hused
    have hwritten : (s.send m).1.written = s.written ++ Text.encode m.line := by rw [hsend]
    have hflushes : (s.send m).1.flushes = s.flushes + 1 := by rw [hsend]
    rw [sending_eq hwrites hwritten hflushes, hsend]
    exact ⟨Sending.sound_whole hall, hused, rfl, rfl⟩
  · simp only [hfail, htaken] at hsend
    have hwrites : s.writes = (front ++ [last]) ++ (s.send m).1.writes := by rw [hsend]; exact hused
    have hwritten : (s.send m).1.written =
        s.written ++ (Text.encode m.line).take (total accepted front) := by rw [hsend]
    have hflushes : (s.send m).1.flushes = s.flushes + 0 := by rw [hsend, Nat.add_zero]
    rw [sending_eq hwrites hwritten hflushes, hsend]
    exact ⟨Sending.sound_cut hfront hlast hless, hused, rfl, rfl⟩

/-- Interruptions change nothing about a sending but that it is interrupted. -/
theorem send_calmed (s : Sink) (m : Message) :
    s.calmed.send m = ((s.send m).1.calmed, (s.send m).2) := by
  rw [send_eq, send_eq, calmed, offer_uninterrupted]
  cases (offer s.writes (Text.encode m.line)).2.2 <;> rfl

theorem sending_calmed (s : Sink) (m : Message) :
    s.calmed.sending m = (s.sending m).calmed := by
  obtain ⟨-, hused, htaken, hflushes⟩ := s.sending_accounted m
  have hsend := s.send_calmed m
  have hcalmed : s.calmed.writes =
      uninterrupted (s.sending m).used ++ (s.calmed.send m).1.writes := by
    rw [hsend, calmed, calmed, ← uninterrupted_append, ← hused]
  rw [sending_eq hcalmed (by rw [hsend]; exact htaken) (by rw [hsend]; exact hflushes), hsend]
  rfl

/-! ## Sendings one after the other -/

/-- The sink after a number of sendings, each with what its flush fails with if it comes to that. -/
def sent (s : Sink) : List (Message × Option FaultKind) → Sink
  | [] => s
  | (m, fault) :: sends => ({ s with flushFault := fault }.send m).1.sent sends

/-- The account of these sendings. -/
def sendings (s : Sink) : List (Message × Option FaultKind) → List Sending
  | [] => []
  | (m, fault) :: sends =>
    { s with flushFault := fault }.sending m ::
      ({ s with flushFault := fault }.send m).1.sendings sends

/-- Sending messages whatever becomes of each is sending them with some outcome of each flush. -/
theorem sendAll_eq (s : Sink) (ms : List Message) :
    ∃ faults : List (Option FaultKind), faults.length = ms.length ∧
      s.sendAll ms = (s.sent (ms.zip faults), (s.sendings (ms.zip faults)).map Sending.result) := by
  induction ms generalizing s with
  | nil => exact ⟨[], rfl, rfl⟩
  | cons m ms ih =>
    obtain ⟨faults, hlen, hrest⟩ := ih (s.send m).1
    refine ⟨s.flushFault :: faults, congrArg Nat.succ hlen, ?_⟩
    have hsendAll : s.sendAll (m :: ms) =
        (((s.send m).1.sendAll ms).1, (s.send m).2 :: ((s.send m).1.sendAll ms).2) := rfl
    rw [hsendAll, hrest]
    rfl

/-- The accounts of sendings add up to what became of their sink. -/
theorem sent_accounted (s : Sink) (sends : List (Message × Option FaultKind)) :
    (∀ a ∈ s.sendings sends, a.Sound) ∧
      (s.sent sends).written = s.written ++ (s.sendings sends).flatMap Sending.taken ∧
      s.writes = (s.sendings sends).flatMap Sending.used ++ (s.sent sends).writes ∧
      (s.sent sends).flushes = s.flushes + total Sending.flushes (s.sendings sends) := by
  induction sends generalizing s with
  | nil => simp [sent, sendings]
  | cons send sends ih =>
    obtain ⟨m, fault⟩ := send
    obtain ⟨hsound, hused, htaken, hflushes⟩ :=
      ({ s with flushFault := fault } : Sink).sending_accounted m
    obtain ⟨hsounds, hwritten, hwrites, hflushed⟩ := ih ({ s with flushFault := fault }.send m).1
    refine ⟨List.forall_mem_cons.mpr ⟨hsound, hsounds⟩, ?_, ?_, ?_⟩
    · rw [sent, sendings, hwritten, htaken, List.flatMap_cons, List.append_assoc]
    · rw [sent, sendings, List.flatMap_cons, List.append_assoc, ← hwrites, ← hused]
    · rw [sent, sendings, hflushed, hflushes, total_cons, Nat.add_assoc]

/-- Without the interruptions the same bytes are written, the same flushes made and the same
results returned. -/
theorem sendings_calmed (s : Sink) (sends : List (Message × Option FaultKind)) :
    s.calmed.sendings sends = (s.sendings sends).map Sending.calmed ∧
      s.calmed.sent sends = (s.sent sends).calmed := by
  induction sends generalizing s with
  | nil => exact ⟨rfl, rfl⟩
  | cons send sends ih =>
    obtain ⟨m, fault⟩ := send
    have hset : { s.calmed with flushFault := fault } = { s with flushFault := fault }.calmed := rfl
    obtain ⟨hsendings, hsent⟩ := ih ({ s with flushFault := fault }.send m).1
    rw [sendings, sendings, sent, sent, hset, send_calmed, sending_calmed, hsendings, hsent]
    exact ⟨rfl, rfl⟩

/-- Sendings are asked for one after the other. -/
theorem sendings_asked (s : Sink) (sends : List (Message × Option FaultKind)) :
    ((s.sendings sends).map fun a => (a.message, a.flushFault)) = sends := by
  induction sends generalizing s with
  | nil => rfl
  | cons send sends ih => exact congrArg (send :: ·) (ih _)

end Sink

end LoopbackLock
