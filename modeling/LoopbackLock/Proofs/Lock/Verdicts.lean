import LoopbackLock.Proofs.Lock.Surroundings

/-!
# The verdicts of a challenge

An occupant is confirmed, has departed, or answers as no lock does; which of them is told from how
the attempt to connect ended, whether the question went through and what the connection opened with
(`Confirms`, `Departs`, `Mismatches`). One of them is the case (`Challenge.verdict_cases`), and the
challenge ends with the verdict on it. A waiter whose first or second challenge is refused ends its
waiting with that (`Challenge.classification`).
-/

namespace LoopbackLock

open Framing

variable {s : Settings} {E : Surroundings} {x : LinkId} {c : Except Fault LinkId}
  {more : List (Except Fault LinkId)} {o : Opening} {m m' : Mismatch}

/-! ## What there is to judge -/

namespace Surroundings

/-- The time limits of a connection can be set, and the question goes through. -/
def Sends (E : Surroundings) (x : LinkId) (limit : UInt64) : Prop :=
  E.limits x limit = .ok () ∧ E.sends x = .ok ()

/-- What the occupant answers with, or what comes instead. -/
def Answers (E : Surroundings) (x : LinkId) (o : Opening) : Prop :=
  Opens (E.reads x ++ [.ok []]) o

end Surroundings

/-- The occupant answers as a lock does: the first line is the message of success. -/
def Confirms (s : Settings) (E : Surroundings) : Except Fault LinkId → Prop
  | .error _ => False
  | .ok x => E.Sends x s.challengeTimeout ∧
      ∃ line, E.Answers x (.line line) ∧ Heard.ofLine line = .message .success

/-- Nobody is there: the attempt to connect fails, but not for want of time; or the question does
not go through; or the stream is at its end before any byte; or a read fails before the first line
is over, but not for want of time. -/
def Departs (s : Settings) (E : Surroundings) : Except Fault LinkId → Prop
  | .error f => f.kind.isTimeout = false
  | .ok x => ¬E.Sends x s.challengeTimeout ∨ E.Answers x .nothing ∨
      ∃ k, E.Answers x (.broken k) ∧ k.isTimeout = false

/-- Something is there that is no lock: it does not take the connection in time; or its first line
is another message, or no message; or that line is not over in time. -/
def Mismatches (s : Settings) (E : Surroundings) : Except Fault LinkId → Mismatch → Prop
  | .error f, m => f.kind.isTimeout = true ∧ m = .unconnected s.challengeTimeout
  | .ok x, m => E.Sends x s.challengeTimeout ∧
      ((∃ line other, E.Answers x (.line line) ∧ Heard.ofLine line = .message other ∧
          other ≠ .success ∧ m = .wrongMessage other) ∨
        (∃ line, E.Answers x (.line line) ∧ (∀ other, Heard.ofLine line ≠ .message other) ∧
          m = .foreignLine (Text.trimEnd (.ofList (Text.decodeLossy line)))) ∨
        ∃ k, E.Answers x (.broken k) ∧ k.isTimeout = true ∧ m = .silence s.challengeTimeout)

namespace Challenge

/-- One of the three is the case. -/
theorem verdict_cases (s : Settings) (E : Surroundings) (c : Except Fault LinkId) :
    Confirms s E c ∨ Departs s E c ∨ ∃ m, Mismatches s E c m := by
  rcases c with f | x
  · rcases htimeout : f.kind.isTimeout with _ | _
    · exact .inr (.inl htimeout)
    · exact .inr (.inr ⟨_, htimeout, rfl⟩)
  by_cases hsends : E.Sends x s.challengeTimeout
  rotate_left
  · exact .inr (.inl (.inl hsends))
  obtain ⟨o, hanswers⟩ : ∃ o, E.Answers x o := exists_opens _
  rcases o with line | _ | k
  · by_cases hmessage : ∃ other, Heard.ofLine line = .message other
    · obtain ⟨other, hother⟩ := hmessage
      by_cases hsuccess : other = .success
      · exact .inl ⟨hsends, line, hanswers, hsuccess ▸ hother⟩
      · exact .inr (.inr ⟨_, hsends, .inl ⟨line, other, hanswers, hother, hsuccess, rfl⟩⟩)
    · refine .inr (.inr ⟨_, hsends, .inr (.inl ⟨line, hanswers, fun other heq => ?_, rfl⟩)⟩)
      exact hmessage ⟨other, heq⟩
  · exact .inr (.inl (.inr (.inl hanswers)))
  · rcases htimeout : k.isTimeout with _ | _
    · exact .inr (.inl (.inr (.inr ⟨k, hanswers, htimeout⟩)))
    · exact .inr (.inr ⟨_, hsends, .inr (.inr ⟨k, hanswers, htimeout, rfl⟩)⟩)

/-! ## The way to each verdict -/

theorem leads_closing (x : LinkId) (why : Refusal) :
    Leads s E (.going (closing x why)) E (.over (.error why)) := .next .here

/-- An attempt to connect that fails is the end of the challenge. -/
theorem leads_failed {f : Fault} (hconnects : E.connects = .error f :: more) :
    Leads s E (.going connecting) { E with connects := more }
      (.over (.error (if f.kind.isTimeout then .mismatch (.unconnected s.challengeTimeout)
        else .departed))) := by
  have hstep : step s connecting (.failed f) = .over (.error (if f.kind.isTimeout then
      .mismatch (.unconnected s.challengeTimeout) else .departed)) := by
    simp only [step]
    split <;> rfl
  exact .of_reply (Surroundings.reply_connect hconnects _ _) (hstep ▸ .here)

theorem leads_connected (hconnects : E.connects = .ok x :: more) :
    Leads s E (.going connecting) { E with connects := more } (.going (limiting x)) :=
  .of_reply (Surroundings.reply_connect hconnects _ _) .here

/-- A question that goes through is followed by a call of a new reader. -/
theorem leads_asked (hsends : E.Sends x s.challengeTimeout) :
    Leads s E (.going (limiting x)) E (turn s x ({} : LineReader).start) :=
  .of_reply (Surroundings.reply_limit hsends.1)
    (.of_reply (Surroundings.reply_send hsends.2 _) .here)

theorem leads_unasked (hsends : ¬E.Sends x s.challengeTimeout) :
    Leads s E (.going (limiting x)) E (.over (.error .departed)) := by
  rcases hlimit : E.limits x s.challengeTimeout with f | _
  · exact .of_reply (Surroundings.reply_limit hlimit) (leads_closing x _)
  rcases hsend : E.sends x with f | _
  · exact .of_reply (Surroundings.reply_limit hlimit)
      (.of_reply (Surroundings.reply_send hsend _) (leads_closing x _))
  · exact absurd ⟨hlimit, hsend⟩ hsends

/-- The challenge judges what the connection opens with. -/
theorem leads_judged (hconnects : E.connects = .ok x :: more)
    (hsends : E.Sends x s.challengeTimeout) (hanswers : E.Answers x o) :
    ∃ next left, Leads s E (.going connecting) ({ E with connects := more }.withReads x left)
      (judge s x next o.received) := by
  obtain ⟨used, left, next, hreads, htakes, -⟩ := hanswers.takes
  refine ⟨next, left.dropLast, (leads_connected hconnects).trans ?_⟩
  refine (leads_asked (E := { E with connects := more }) hsends).trans ?_
  exact leads_takes (E := { E with connects := more }) htakes hreads

/-- A holder is confirmed, and nothing is touched but its connection. -/
theorem leads_confirms (hconnects : E.connects = c :: more) (h : Confirms s E c) :
    ∃ x next left, c = .ok x ∧ Leads s E (.going connecting)
      ({ E with connects := more }.withReads x left) (.over (.ok (x, next))) := by
  rcases c with f | x
  · exact h.elim
  obtain ⟨hsends, line, hanswers, hline⟩ := h
  obtain ⟨next, left, hleads⟩ := leads_judged hconnects hsends hanswers
  rw [Opening.received, hline] at hleads
  exact ⟨x, next, left, rfl, hleads⟩

theorem leads_departs (hconnects : E.connects = c :: more) (h : Departs s E c) :
    ∃ E', E'.connects = more ∧ Leads s E (.going connecting) E' (.over (.error .departed)) := by
  rcases c with f | x
  · have hleads := leads_failed (s := s) hconnects
    rw [show f.kind.isTimeout = false from h] at hleads
    exact ⟨_, rfl, hleads⟩
  by_cases hsends : E.Sends x s.challengeTimeout
  · obtain hasked | hnone | ⟨k, hbroken, hk⟩ := h
    · exact absurd hsends hasked
    · obtain ⟨next, left, hleads⟩ := leads_judged hconnects hsends hnone
      exact ⟨_, rfl, hleads.trans (leads_closing x _)⟩
    · obtain ⟨next, left, hleads⟩ := leads_judged hconnects hsends hbroken
      rw [Opening.received, judge, hk] at hleads
      exact ⟨_, rfl, hleads.trans (leads_closing x _)⟩
  · exact ⟨_, rfl, (leads_connected hconnects).trans (leads_unasked hsends)⟩

theorem judge_foreign {line : Bytes} (h : ∀ other, Heard.ofLine line ≠ .message other)
    (next : LineReader) : judge s x next (.ok (.ofLine line)) = .going (.closing x
      (.mismatch (.foreignLine (Text.trimEnd (.ofList (Text.decodeLossy line)))))) := by
  have hline : Heard.ofLine line = .unexpected (Text.trimEnd (.ofList (Text.decodeLossy line))) := by
    unfold Heard.ofLine at h ⊢
    simp only at h ⊢
    split
    next m hparse => exact absurd (by rw [hparse]) (h m)
    next => rfl
  rw [hline]
  rfl

theorem leads_mismatches (hconnects : E.connects = c :: more) (h : Mismatches s E c m) :
    ∃ E', E'.connects = more ∧
      Leads s E (.going connecting) E' (.over (.error (.mismatch m))) := by
  rcases c with f | x
  · obtain ⟨htimeout, rfl⟩ := h
    have hleads := leads_failed (s := s) hconnects
    rw [htimeout] at hleads
    exact ⟨_, rfl, hleads⟩
  obtain ⟨hsends, ⟨line, other, hanswers, hline, hother, rfl⟩ | ⟨line, hanswers, hline, rfl⟩ |
    ⟨k, hanswers, hk, rfl⟩⟩ := h
  · obtain ⟨next, left, hleads⟩ := leads_judged hconnects hsends hanswers
    have hjudge : judge s x next (.ok (.message other)) =
        .going (.closing x (.mismatch (.wrongMessage other))) := by
      cases other
      case success => exact absurd rfl hother
      all_goals rfl
    rw [Opening.received, hline, hjudge] at hleads
    exact ⟨_, rfl, hleads.trans (leads_closing x _)⟩
  · obtain ⟨next, left, hleads⟩ := leads_judged hconnects hsends hanswers
    rw [Opening.received, judge_foreign hline] at hleads
    exact ⟨_, rfl, hleads.trans (leads_closing x _)⟩
  · obtain ⟨next, left, hleads⟩ := leads_judged hconnects hsends hanswers
    rw [Opening.received, judge, hk] at hleads
    exact ⟨_, rfl, hleads.trans (leads_closing x _)⟩

/-- A challenge comes to a verdict. -/
theorem exists_verdict (s : Settings) (hconnects : E.connects = c :: more) :
    ∃ verdict E', Leads s E (.going connecting) E' (.over verdict) ∧ E'.connects = more := by
  obtain hc | hc | ⟨m, hc⟩ := verdict_cases s E c
  · obtain ⟨x, next, left, -, hleads⟩ := leads_confirms hconnects hc
    exact ⟨_, _, hleads, rfl⟩
  · obtain ⟨E', hmore, hleads⟩ := leads_departs hconnects hc
    exact ⟨_, E', hleads, hmore⟩
  · obtain ⟨E', hmore, hleads⟩ := leads_mismatches hconnects hc
    exact ⟨_, E', hleads, hmore⟩

/-- Each verdict is come to if and only if that is the case. -/
theorem verdict_iff {E' : Surroundings} {verdict : Except Refusal (LinkId × LineReader)}
    (hconnects : E.connects = c :: more)
    (hleads : Leads s E (.going connecting) E' (.over verdict)) :
    ((∃ x reader, verdict = .ok (x, reader)) ↔ Confirms s E c) ∧
      (verdict = .error .departed ↔ Departs s E c) ∧
      ∀ m, verdict = .error (.mismatch m) ↔ Mismatches s E c m := by
  have hconfirms : Confirms s E c → ∃ x reader, verdict = .ok (x, reader) := by
    intro hc
    obtain ⟨x, next, left, -, h⟩ := leads_confirms hconnects hc
    exact ⟨x, next, (hleads.unique h).2.symm⟩
  have hdeparts : Departs s E c → verdict = .error .departed := by
    intro hc
    obtain ⟨E'', -, h⟩ := leads_departs hconnects hc
    exact (hleads.unique h).2.symm
  have hmismatches : ∀ {m}, Mismatches s E c m → verdict = .error (.mismatch m) := by
    intro m hc
    obtain ⟨E'', -, h⟩ := leads_mismatches hconnects hc
    exact (hleads.unique h).2.symm
  -- One of the three is the case, so each verdict tells which it was.
  have hcases := verdict_cases s E c
  refine ⟨⟨?_, hconfirms⟩, ⟨?_, hdeparts⟩, fun m => ⟨?_, hmismatches⟩⟩
  · rintro ⟨x, reader, rfl⟩
    obtain hc | hc | ⟨m, hc⟩ := hcases
    · exact hc
    · cases hdeparts hc
    · cases hmismatches hc
  · rintro rfl
    obtain hc | hc | ⟨m, hc⟩ := hcases
    · obtain ⟨x, reader, h⟩ := hconfirms hc
      cases h
    · exact hc
    · cases hmismatches hc
  · rintro rfl
    obtain hc | hc | ⟨m', hc⟩ := hcases
    · obtain ⟨x, reader, h⟩ := hconfirms hc
      cases h
    · cases hdeparts hc
    · cases hmismatches hc
      exact hc

end Challenge

/-! ## Reasons -/

/-- The time that was too short. -/
def Mismatch.limit? : Mismatch → Option UInt64
  | unconnected limit | silence limit => some limit
  | _ => none

theorem Message.name_injective {m m' : Message} (h : m.name = m'.name) : m = m' := by
  cases m <;> cases m' <;> first | rfl | simp [name] at h

/-- Mismatches of the same time are told apart by their wording. -/
theorem Mismatch.eq_of_reason {limit : UInt64} (hm : ∀ l ∈ m.limit?, l = limit)
    (hm' : ∀ l ∈ m'.limit?, l = limit) (h : m.reason = m'.reason) : m = m' := by
  unfold reason at h
  cases m <;> cases m' <;> dsimp only at h
  case unconnected.unconnected => rw [hm _ rfl, hm' _ rfl]
  case silence.silence => rw [hm _ rfl, hm' _ rfl]
  case wrongMessage.wrongMessage other other' =>
    rw [String.append_right_inj] at h
    rw [Message.name_injective h]
  case foreignLine.foreignLine text text' =>
    rw [String.append_left_inj, String.append_right_inj] at h
    rw [h]
  all_goals
    have hfirst := congrArg (fun s => s.toList.head?) h
    simp at hfirst

/-- The times in the mismatches of a challenge are its own. -/
theorem Mismatches.limit (h : Mismatches s E c m) : ∀ l ∈ m.limit?, l = s.challengeTimeout := by
  rcases c with f | x
  · obtain ⟨-, rfl⟩ := h
    exact fun l hl => (Option.some.inj hl).symm
  · obtain ⟨-, ⟨_, _, -, -, -, rfl⟩ | ⟨_, -, -, rfl⟩ | ⟨_, -, -, rfl⟩⟩ := h
    · exact fun l hl => nomatch hl
    · exact fun l hl => nomatch hl
    · exact fun l hl => (Option.some.inj hl).symm

/-! ## Verdicts -/

namespace Vigil

/-- A waiter whose challenge at the start is refused ends its waiting with that. -/
theorem leads_refused {E' : Surroundings} {why : Refusal} {start : Vigil}
    (hstart : start = probing .connecting ∨ start = joining .connecting)
    (h : Challenge.Leads s E (.going .connecting) E' (.over (.error why))) :
    Leads s E (.going start) E' (.over (refused s why)) := by
  rcases hstart with rfl | rfl
  · exact leads_probed h
  · exact leads_joined h

end Vigil

/-- The verdict of a challenge, from how its attempt to connect ended, whether its question went
through and what its connection opened with. There is a verdict, and one only. The occupant is
confirmed, has departed, or answers as no lock does, each if and only if that is the case; and the
wordings of two mismatches are the same only if the mismatches are. At the start of waiting, an
occupant that has departed ends the waiting as a lost connection, and a mismatch fails it with its
wording, at the first challenge as at the second; a confirmed one lets it go on. A later challenge
that is refused, for whatever reason, means that the holder has vanished. -/
theorem Challenge.classification (s : Settings) (hconnects : E.connects = c :: more) :
    ∃ verdict E', Leads s E (.going connecting) E' (.over verdict) ∧ E'.connects = more ∧
      (∀ verdict' E'', Leads s E (.going connecting) E'' (.over verdict') → verdict' = verdict) ∧
      ((∃ x reader, verdict = .ok (x, reader)) ↔ Confirms s E c) ∧
      (verdict = .error .departed ↔ Departs s E c) ∧
      (∀ m, verdict = .error (.mismatch m) ↔ Mismatches s E c m) ∧
      (∀ F d m m', Mismatches s E c m → Mismatches s F d m' → m.reason = m'.reason → m = m') ∧
      (∀ start ∈ [Vigil.probing .connecting, .joining .connecting],
        (Departs s E c → Vigil.Leads s E (.going start) E' (.over (.ok .disconnected))) ∧
        ∀ m, Mismatches s E c m → Vigil.Leads s E (.going start) E'
          (.over (.error (.protocolMismatch s.endpoint m.reason)))) ∧
      (∀ x reader, verdict = .ok (x, reader) →
        Vigil.Leads s E (.going (.probing .connecting)) E' (.going (.joining .connecting)) ∧
        Vigil.Leads s E (.going (.joining .connecting)) E' (.going (.limiting x reader))) ∧
      ∀ kept reader, ¬Confirms s E c →
        Vigil.Leads s E (.going (.rechecking kept reader .connecting)) E' (.over (.ok .vanished)) := by
  obtain ⟨verdict, E', hleads, hmore⟩ := exists_verdict s hconnects
  obtain ⟨hconfirms, hdeparts, hmismatches⟩ := verdict_iff hconnects hleads
  refine ⟨verdict, E', hleads, hmore, fun _ _ h => (hleads.unique h).2, hconfirms, hdeparts,
    hmismatches, ?_, ?_, ?_, ?_⟩
  · intro F d m m' hm hm'
    exact Mismatch.eq_of_reason hm.limit hm'.limit
  · intro start hstart
    have hstart' : start = .probing .connecting ∨ start = .joining .connecting := by
      simpa using hstart
    refine ⟨fun hc => ?_, fun m hc => ?_⟩
    · exact Vigil.leads_refused hstart' (hdeparts.mpr hc ▸ hleads)
    · exact Vigil.leads_refused hstart' ((hmismatches m).mpr hc ▸ hleads)
  · rintro x reader rfl
    exact ⟨(Vigil.leads_probed hleads).trans (.next .here), Vigil.leads_joined hleads⟩
  · intro kept reader hc
    obtain ⟨why, rfl⟩ : ∃ why, verdict = .error why := by
      rcases verdict with why | ⟨x, r⟩
      · exact ⟨why, rfl⟩
      · exact absurd (hconfirms.mp ⟨x, r, rfl⟩) hc
    exact (Vigil.leads_rechecked kept reader hleads).trans (Vigil.leads_closing kept _)

/-- An occupant that sends a few bytes, in two pieces with an interruption between them, and closes
the connection. -/
def curt : Surroundings where
  connects := [.ok 7]
  limits _ _ := .ok ()
  sends _ := .ok ()
  reads _ := [.ok (Text.encode "h"), .error .interrupted, .ok (Text.encode "i \t")]

theorem curt_mismatched : curt.connects = [.ok 7] ∧ ∃ E',
    Challenge.Leads {} curt (.going .connecting) E'
      (.over (.error (.mismatch (.foreignLine "hi")))) ∧
    Vigil.Leads {} curt (.going (.joining .connecting)) E'
      (.over (.error (.protocolMismatch ({} : Settings).endpoint "unexpected reply 'hi'"))) := by
  have hflow : Flowing (curt.reads 7) := by
    intro read hread
    obtain rfl | rfl | rfl : read = .ok (Text.encode "h") ∨ read = .error .interrupted ∨
        read = .ok (Text.encode "i \t") := by
      simpa [curt] using hread
    · exact .inr ⟨_, by decide +kernel, rfl⟩
    · exact .inl rfl
    · exact .inr ⟨_, by decide +kernel, rfl⟩
  have hanswers : curt.Answers 7 (.line (data (curt.reads 7))) :=
    .last hflow (by decide +kernel) (by decide +kernel)
  have hforeign : ∀ other, Heard.ofLine (data (curt.reads 7)) ≠ .message other := by
    intro other
    cases other <;> decide +kernel
  have htext : Text.trimEnd (.ofList (Text.decodeLossy (data (curt.reads 7)))) = "hi" := by
    decide +kernel
  have hmismatches : Mismatches {} curt (.ok 7) (.foreignLine "hi") :=
    ⟨⟨rfl, rfl⟩, .inr (.inl ⟨_, hanswers, hforeign, by rw [htext]⟩)⟩
  obtain ⟨verdict, E', hleads, -, -, -, -, hverdict, -, hwaiting, -, -⟩ :=
    Challenge.classification {} (show curt.connects = .ok 7 :: [] from rfl)
  rw [(hverdict _).mpr hmismatches] at hleads
  exact ⟨rfl, E', hleads, (hwaiting _ (by simp)).2 _ hmismatches⟩

end LoopbackLock
