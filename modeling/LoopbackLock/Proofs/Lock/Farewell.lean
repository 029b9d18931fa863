import LoopbackLock.Proofs.Lock.Custody
import LoopbackLock.Proofs.Total

/-!
# What a release asks for

A release deals with one connection of its holder after the other: it offers the announcement to
one write after the other until it is taken or a write ends the attempt, shuts the connection and
gives it up. `Dismantling.Recorded` tells for each stage what has been asked of the system so far
and what the replies were, and a step adds its request and the reply (`Recorded.step`). No reply
makes a release leave out a connection, or deal with one twice.
-/

namespace LoopbackLock

/-- A request and the reply to it. -/
abbrev Exchange := Request × Reply

namespace Reply

/-- How many bytes a write took. -/
def taken : Reply → Nat
  | .took count => count
  | _ => 0

/-- A write with this reply is the last one to which something is offered. -/
def Ends (rest : Bytes) (r : Reply) : Prop :=
  (∃ count, r = .took count ∧ (count = 0 ∨ rest.length ≤ count)) ∨
    ∃ f, r = .failed f ∧ f.kind ≠ .interrupted

/-- The reply to a shutdown. -/
def Answered (r : Reply) : Prop := r = .done ∨ ∃ f, r = .failed f

end Reply

/-- How many bytes were taken in these exchanges. -/
def takenIn (es : List Exchange) : Nat := total (fun e => e.2.taken) es

variable {x : LinkId} {line rest : Bytes} {es front : List Exchange} {r : Reply}

theorem takenIn_concat (es : List Exchange) (e : Exchange) :
    takenIn (es ++ [e]) = takenIn es + e.2.taken := by
  simp [takenIn]

/-- A line was offered to writes that took a part of the rest each, or were interrupted; so much is
left of it. -/
inductive Offered (x : LinkId) (line : Bytes) : List Exchange → Bytes → Prop
  | start : Offered x line [] line
  | interrupted {es : List Exchange} {rest : Bytes} {f : Fault} (h : Offered x line es rest)
      (hf : f.kind = .interrupted) : Offered x line (es ++ [(.write x rest, .failed f)]) rest
  | part {es : List Exchange} {rest : Bytes} {count : Nat} (h : Offered x line es rest)
      (hpos : 0 < count) (hlt : count < rest.length) :
    Offered x line (es ++ [(.write x rest, .took count)]) (rest.drop count)

theorem Offered.rest_eq (h : Offered x line es rest) : rest = line.drop (takenIn es) := by
  induction h with
  | start => rfl
  | interrupted _ _ ih => rw [takenIn_concat]; exact ih
  | part _ _ _ ih => rw [takenIn_concat, Reply.taken, ← List.drop_drop, ← ih]

/-- A line was offered until it was taken, or until a write ended the attempt. -/
def Offers (x : LinkId) (line : Bytes) (es : List Exchange) : Prop :=
  ∃ front rest r, es = front ++ [(.write x rest, r)] ∧ Offered x line front rest ∧ r.Ends rest

/-! ## Farewells -/

/-- What a release asked for about one connection: the writes and the shutdown. -/
structure Farewell where
  link : LinkId
  writes : List Exchange
  shut : Reply

namespace Farewell

/-- All exchanges of a farewell. -/
def exchanges (f : Farewell) : List Exchange :=
  f.writes ++ [(.shut f.link, f.shut), (.discard f.link, .done)]

/-- What was taken of the announcement. -/
def taken (f : Farewell) : Bytes := Dismantling.announcement.take (takenIn f.writes)

/-- The announcement was offered once, and the connection was to be shut. -/
structure Sound (f : Farewell) : Prop where
  offered : Offers f.link Dismantling.announcement f.writes
  shut : f.shut.Answered

/-- Every write took something or was interrupted. -/
def IsHealthy (f : Farewell) : Prop :=
  ∀ e ∈ f.writes, (∃ count, 0 < count ∧ e.2 = .took count) ∨
    ∃ fault, e.2 = .failed fault ∧ fault.kind = .interrupted

/-- On a healthy connection all of the announcement is taken. -/
theorem Sound.taken_of_isHealthy {f : Farewell} (hs : f.Sound) (hf : f.IsHealthy) :
    f.taken = Dismantling.announcement := by
  obtain ⟨front, rest, r, heq, hoffered, hends⟩ := hs.offered
  have hlast := hf (.write f.link rest, r) (by rw [heq]; exact List.mem_append_right _ (.head _))
  have hrest := congrArg List.length hoffered.rest_eq
  rw [List.length_drop] at hrest
  refine List.take_of_length_le ?_
  rw [heq, takenIn_concat]
  rcases hends with ⟨count, rfl, hover⟩ | ⟨fault, rfl, hfault⟩
  · rcases hlast with ⟨_, hpos, hcount⟩ | ⟨_, hcount, -⟩ <;> cases hcount
    have htaken : Reply.taken (.took count) = count := rfl
    simp only [htaken]
    omega
  · rcases hlast with ⟨_, -, hcount⟩ | ⟨_, hcount, hkind⟩ <;> cases hcount
    exact absurd hkind hfault

end Farewell

namespace Dismantling

variable {T T' : LinkId → Bytes → Prop} {h : HolderId} {told : List Farewell}
variable {links queue late : List LinkId} {d d' : Dismantling}

/-- The reply is one to the request of this stage. -/
def Meets : Dismantling → Reply → Prop
  | draining, r | sweeping, r => ∃ links, r = .drained links
  | notifying .., r => (∃ count, r = .took count) ∨ ∃ f, r = .failed f
  | shutting .., r => r.Answered
  | discarding .., r | clearing .., r | stopping, r | joining, r | abandoning, r => r = .done

/-- These connections were drained, and these farewells bidden. -/
def parting (h : HolderId) (links : List LinkId) (told : List Farewell) : List Exchange :=
  (.drain h, .drained links) :: told.flatMap Farewell.exchanges

/-- All was drained and told, the workers stopped, and these connections swept. -/
def closing (h : HolderId) (told : List Farewell) (late : List LinkId) : List Exchange :=
  parting h (told.map (·.link)) told ++
    [(.stop h, .done), (.join h, .done), (.drain h, .drained late)]

/-- Connections were given up. -/
def discards (links : List LinkId) : List Exchange :=
  links.map fun x => (.discard x, .done)

/-- What a release that stands here has asked for, and the replies. A connection is settled in `T`
once its announcement is over. -/
def Recorded (T : LinkId → Bytes → Prop) (h : HolderId) (told : List Farewell) :
    Dismantling → List Exchange → Prop
  | draining, es => told = [] ∧ es = []
  | notifying x rest queue, es => ∃ writes, Offered x announcement writes rest ∧
    es = parting h (told.map (·.link) ++ x :: queue) told ++ writes
  | shutting x queue, es => ∃ writes, Offers x announcement writes ∧
    T x (announcement.take (takenIn writes)) ∧
    es = parting h (told.map (·.link) ++ x :: queue) told ++ writes
  | discarding x queue, es => ∃ writes r, Offers x announcement writes ∧
    T x (announcement.take (takenIn writes)) ∧ r.Answered ∧
    es = parting h (told.map (·.link) ++ x :: queue) told ++ writes ++ [(.shut x, r)]
  | stopping, es => es = parting h (told.map (·.link)) told
  | joining, es => es = parting h (told.map (·.link)) told ++ [(.stop h, .done)]
  | sweeping, es => es = parting h (told.map (·.link)) told ++ [(.stop h, .done), (.join h, .done)]
  | clearing x queue, es => ∃ gone, es = closing h told (gone ++ x :: queue) ++ discards gone
  | abandoning, es => ∃ late, es = closing h told late ++ discards late

/-- Farewells were bidden one after the other, and all is settled as they tell. -/
def Account (T : LinkId → Bytes → Prop) (h : HolderId) (d : Dismantling)
    (es : List Exchange) : Prop :=
  ∃ told, (∀ f ∈ told, f.Sound ∧ T f.link f.taken) ∧ Recorded T h told d es

theorem Recorded.mono (hT : ∀ x s, T x s → T' x s) (hr : Recorded T h told d es) :
    Recorded T' h told d es := by
  cases d
  case shutting =>
    obtain ⟨writes, hoffers, hs, hes⟩ := hr
    exact ⟨writes, hoffers, hT _ _ hs, hes⟩
  case discarding =>
    obtain ⟨writes, r, hoffers, hs, hes⟩ := hr
    exact ⟨writes, r, hoffers, hT _ _ hs, hes⟩
  all_goals exact hr

theorem Account.mono (hT : ∀ x s, T x s → T' x s) (ha : Account T h d es) : Account T' h d es := by
  obtain ⟨told, htold, hr⟩ := ha
  exact ⟨told, fun f hf => ⟨(htold f hf).1, hT _ _ (htold f hf).2⟩, hr.mono hT⟩

/-- The next connection gets its announcement; after the last one the workers are to be stopped. -/
theorem recorded_notify (queue : List LinkId)
    (hes : es = parting h (told.map (·.link) ++ queue) told) :
    Recorded T h told (notify queue) es := by
  cases queue with
  | nil => rw [List.append_nil] at hes; exact hes
  | cons x queue => exact ⟨[], .start, by rw [List.append_nil]; exact hes⟩

/-- The next late connection is given up; after the last one the holder is. -/
theorem recorded_clear (gone queue : List LinkId)
    (hes : es = closing h told (gone ++ queue) ++ discards gone) :
    Recorded T h told (clear queue) es := by
  cases queue with
  | nil => rw [List.append_nil] at hes; exact ⟨gone, hes⟩
  | cons x queue => exact ⟨gone, hes⟩

theorem parting_concat (f : Farewell) :
    parting h links (told ++ [f]) = parting h links told ++ f.exchanges := by
  simp [parting]

/-- An announcement is over with this reply, or is offered again. -/
theorem step_notifying (hmeets : (notifying x rest queue).Meets r)
    (hstep : (notifying x rest queue).step true r = .going d') :
    r.Ends rest ∧ d' = shutting x queue ∨
      (∃ f, r = .failed f ∧ f.kind = .interrupted ∧ d' = notifying x rest queue) ∨
      ∃ count, r = .took count ∧ 0 < count ∧ count < rest.length ∧
        d' = notifying x (rest.drop count) queue := by
  rcases hmeets with ⟨count, rfl⟩ | ⟨f, rfl⟩
  · by_cases hover : count = 0 ∨ rest.length ≤ count
    · rw [step, if_pos (by simpa using hover)] at hstep
      cases hstep
      exact .inl ⟨.inl ⟨count, rfl, hover⟩, rfl⟩
    · rw [step, if_neg (by simpa using hover)] at hstep
      cases hstep
      exact .inr (.inr ⟨count, rfl, by omega, by omega, rfl⟩)
  · by_cases hf : f.kind = .interrupted
    · rw [step, if_pos hf] at hstep
      cases hstep
      exact .inr (.inl ⟨f, rfl, hf, rfl⟩)
    · rw [step, if_neg hf] at hstep
      cases hstep
      exact .inl ⟨.inr ⟨f, rfl, hf⟩, rfl⟩

/-- With the last write of an announcement the connection is to be shut. -/
theorem step_of_ends (h : r.Ends rest) :
    (notifying x rest queue).step true r = .going (shutting x queue) := by
  rcases h with ⟨count, rfl, hover⟩ | ⟨f, rfl, hf⟩
  · rw [step, if_pos (by simpa using hover)]
  · rw [step, if_neg hf]

/-- A step adds its request and the reply. -/
theorem Account.step (ha : Account T h d es) (hmeets : d.Meets r)
    (hstep : d.step true r = .going d') (hT : ∀ x s, T x s → T' x s)
    (hover : ∀ x rest queue writes, d = notifying x rest queue → Offered x announcement writes rest →
      r.Ends rest → T' x (announcement.take (takenIn (writes ++ [(.write x rest, r)])))) :
    Account T' h d' (es ++ [(d.request h, r)]) := by
  obtain ⟨told, htold, hr⟩ := ha.mono hT
  cases d with
  | draining =>
    obtain ⟨rfl, rfl⟩ := hr
    obtain ⟨links, rfl⟩ := hmeets
    cases hstep
    exact ⟨[], htold, recorded_notify links rfl⟩
  | notifying x rest queue =>
    obtain ⟨writes, hoffered, rfl⟩ := hr
    refine ⟨told, htold, ?_⟩
    rcases step_notifying hmeets hstep with ⟨hends, rfl⟩ | ⟨f, rfl, hf, rfl⟩ |
      ⟨count, rfl, hpos, hlt, rfl⟩
    · exact ⟨_, ⟨writes, rest, r, rfl, hoffered, hends⟩, hover x rest queue writes rfl hoffered hends,
        List.append_assoc ..⟩
    · exact ⟨_, hoffered.interrupted hf, List.append_assoc ..⟩
    · exact ⟨_, hoffered.part hpos hlt, List.append_assoc ..⟩
  | shutting x queue =>
    obtain ⟨writes, hoffers, hs, rfl⟩ := hr
    refine ⟨told, htold, ?_⟩
    rcases hmeets with rfl | ⟨f, rfl⟩ <;> cases hstep
    · exact ⟨writes, .done, hoffers, hs, .inl rfl, rfl⟩
    · exact ⟨writes, .failed f, hoffers, hs, .inr ⟨f, rfl⟩, rfl⟩
  | discarding x queue =>
    obtain ⟨writes, r, hoffers, hs, hshut, rfl⟩ := hr
    obtain rfl : _ = _ := hmeets
    cases hstep
    refine ⟨told ++ [⟨x, writes, r⟩], fun f hf => ?_, recorded_notify queue ?_⟩
    · rcases List.mem_append.mp hf with hf | hf
      · exact htold f hf
      · obtain rfl := List.mem_singleton.mp hf
        exact ⟨⟨hoffers, hshut⟩, hs⟩
    · rw [parting_concat]
      simp [Farewell.exchanges, request]
  | stopping =>
    obtain rfl : _ = _ := hr
    obtain rfl : _ = _ := hmeets
    cases hstep
    exact ⟨told, htold, rfl⟩
  | joining =>
    obtain rfl : _ = _ := hr
    obtain rfl : _ = _ := hmeets
    cases hstep
    exact ⟨told, htold, List.append_assoc ..⟩
  | sweeping =>
    obtain rfl : _ = _ := hr
    obtain ⟨late, rfl⟩ := hmeets
    cases hstep
    refine ⟨told, htold, recorded_clear [] late ?_⟩
    simp [closing, discards, request]
  | clearing x queue =>
    obtain ⟨gone, rfl⟩ := hr
    obtain rfl : _ = _ := hmeets
    cases hstep
    refine ⟨told, htold, recorded_clear (gone ++ [x]) queue ?_⟩
    simp [discards, request]
  | abandoning =>
    obtain rfl : _ = _ := hmeets
    cases hstep

/-- Only giving the holder up ends a release. -/
theorem abandoning_of_over (h : d.step true r = .over ()) : d = abandoning := by
  revert h
  fun_cases Dismantling.step true d r <;> intro h <;> cases h
  rfl

/-- The last step gives the holder up. -/
theorem Account.over (ha : Account T h d es) (hmeets : d.Meets r)
    (hstep : d.step true r = .over ()) :
    ∃ told late, (∀ f ∈ told, f.Sound ∧ T f.link f.taken) ∧
      es ++ [(d.request h, r)] = closing h told late ++ discards late ++ [(.abandon h, .done)] := by
  obtain rfl := abandoning_of_over hstep
  obtain ⟨told, htold, late, rfl⟩ := ha
  obtain rfl : _ = _ := hmeets
  exact ⟨told, late, htold, rfl⟩

end Dismantling

end LoopbackLock
