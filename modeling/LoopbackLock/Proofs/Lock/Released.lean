import LoopbackLock.Proofs.Lock.Verdicts

/-!
# A release is heard

On the connection that a waiter keeps, a line of success is followed by any lines, and by one that
announces the release. However these bytes come, and however often a read runs out of time behind
the first line, the waiter hears the release, if each time the occupant is confirmed again
(`Vigil.release_never_missed`). The argument follows what lies ahead of the waiter (`Vigil.Ahead`):
the bytes that its reader holds and the reads that are still to come make up the lines that are
still to be heard, and one challenge is left for each read that runs out of time.
-/

namespace LoopbackLock

open Framing

/-! ## Reads with pauses -/

namespace Framing

variable {read : ReadAnswer} {reads : List ReadAnswer}

/-- Reads that bring data, are interrupted or run out of time. -/
def Pausing (reads : List ReadAnswer) : Prop :=
  ∀ read ∈ reads, (∃ bytes, bytes ≠ [] ∧ read = .ok bytes) ∨
    ∃ k, read = .error k ∧ (k = .interrupted ∨ k.isTimeout = true)

/-- How often reads run out of time. -/
def timeouts (reads : List ReadAnswer) : Nat := (faults reads).countP (·.isTimeout)

theorem timeouts_append (reads reads' : List ReadAnswer) :
    timeouts (reads ++ reads') = timeouts reads + timeouts reads' := by
  rw [timeouts, faults_append, List.countP_append]
  rfl

theorem Flowing.timeouts_eq_zero (h : Flowing reads) : timeouts reads = 0 := by
  induction reads with
  | nil => rfl
  | cons read reads ih =>
    obtain ⟨rfl | ⟨bytes, -, rfl⟩, hrest⟩ := flowing_cons.mp h
    · exact (timeouts_append [.error .interrupted] reads).trans (by rw [ih hrest]; rfl)
    · exact ih hrest

/-- Reads flow, but for what comes behind the first that fails. -/
theorem flowing_or_broken (h : .ok [] ∉ reads) :
    Flowing reads ∨ ∃ before k after, reads = before ++ .error k :: after ∧ Flowing before ∧
      k ≠ .interrupted := by
  induction reads with
  | nil => exact .inl flowing_nil
  | cons read reads ih =>
    have hread : read = .error .interrupted ∨ (∃ bytes, bytes ≠ [] ∧ read = .ok bytes) ∨
        ∃ k, k ≠ .interrupted ∧ read = .error k := by
      rcases read with k | bytes
      · by_cases hk : k = .interrupted
        · exact .inl (by rw [hk])
        · exact .inr (.inr ⟨k, hk, rfl⟩)
      · exact .inr (.inl ⟨bytes, fun hnil => h (hnil ▸ List.mem_cons_self), rfl⟩)
    rcases ih fun hmem => h (List.mem_cons_of_mem _ hmem) with
      hflow | ⟨before, k, after, rfl, hflow, hk⟩
    · obtain hread | hread | ⟨k, hk, rfl⟩ := hread
      · exact .inl (flowing_cons.mpr ⟨.inl hread, hflow⟩)
      · exact .inl (flowing_cons.mpr ⟨.inr hread, hflow⟩)
      · exact .inr ⟨[], k, reads, rfl, flowing_nil, hk⟩
    · obtain hread | hread | ⟨k', hk', rfl⟩ := hread
      · exact .inr ⟨read :: before, k, after, rfl, flowing_cons.mpr ⟨.inl hread, hflow⟩, hk⟩
      · exact .inr ⟨read :: before, k, after, rfl, flowing_cons.mpr ⟨.inr hread, hflow⟩, hk⟩
      · exact .inr ⟨[], k', _, rfl, flowing_nil, hk'⟩

end Framing

/-- What confirms an occupant lies with its connection. -/
theorem Confirms.congr {s : Settings} {E F : Surroundings} {x : LinkId}
    (h : Confirms s E (.ok x)) (hlimits : F.limits = E.limits) (hsends : F.sends = E.sends)
    (hreads : F.reads x = E.reads x) : Confirms s F (.ok x) := by
  obtain ⟨hsent, line, hanswers, hline⟩ := h
  unfold Surroundings.Sends at hsent
  unfold Surroundings.Answers at hanswers
  rw [← hlimits, ← hsends] at hsent
  rw [← hreads] at hanswers
  exact ⟨hsent, line, hanswers, hline⟩

namespace Vigil

variable {s : Settings} {E : Surroundings} {kept : LinkId} {r : LineReader}
  {flow after : List ReadAnswer} {noise : List Bytes} {body tail first rest : Bytes}
  {spares : List LinkId} {more : List (Except Fault LinkId)}

/-- What lies ahead of a waiter on the connection it keeps. What its reader holds and the reads
`flow` bring are the lines `noise`, which announce nothing, then the line that announces the
release, and a `tail` behind it; the last read of `flow` ends that line. For each read of it that
runs out of time there is a connection on which the occupant is confirmed. -/
structure Ahead (s : Settings) (E : Surroundings) (kept : LinkId) (r : LineReader)
    (flow after : List ReadAnswer) (noise : List Bytes) (body tail : Bytes) (spares : List LinkId)
    (more : List (Except Fault LinkId)) : Prop where
  pending : lineFeed ∉ r.pending
  stream : r.pending ++ r.buffered ++ data flow = noise.flatten ++ (body ++ lineFeed :: tail)
  quiet : ∀ line ∈ noise, IsLine line ∧ Heard.ofLine line ≠ .message .release
  single : lineFeed ∉ body
  announces : Heard.ofLine (body ++ [lineFeed]) = .message .release
  pausing : Pausing flow
  last : ∀ before read, flow = before ++ [read] → ∃ head, read = .ok (head ++ lineFeed :: tail)
  reads : E.reads kept = flow ++ after
  connects : E.connects = spares.map .ok ++ more
  distinct : spares.Nodup
  confirmed : ∀ spare ∈ spares, spare ≠ kept ∧ Confirms s E (.ok spare)
  rechecks : spares.length = timeouts flow

namespace Ahead

/-- The line that announces the release is over when no read is ahead any more. -/
theorem flow_eq_nil (h : Ahead s E kept r flow after [] body tail spares more)
    (hline : r.pending ++ r.buffered = first ++ lineFeed :: rest) (hfirst : lineFeed ∉ first) :
    flow = [] ∧ first = body := by
  have hstream := h.stream
  rw [hline, List.flatten_nil, List.nil_append] at hstream
  rw [List.append_assoc, List.cons_append] at hstream
  obtain ⟨hsame, hrest⟩ := line_unique hstream hfirst h.single
  refine ⟨?_, hsame⟩
  rcases List.eq_nil_or_concat flow with hnil | ⟨before, read, hconcat⟩
  · exact hnil
  have hflow : flow = before ++ [read] := hconcat.trans (List.concat_eq_append ..)
  obtain ⟨head, rfl⟩ := h.last before read hflow
  -- The last read alone brings more than what is left behind the line.
  have hlength := congrArg List.length hrest
  rw [hflow, data_append] at hlength
  simp only [data, List.length_append, List.length_cons] at hlength
  omega

/-- A line that announces nothing is behind the waiter. -/
theorem of_line {line : Bytes} (h : Ahead s E kept r flow after (line :: noise) body tail spares more)
    (hline : r.pending ++ r.buffered = first ++ lineFeed :: rest) (hfirst : lineFeed ∉ first) :
    first ++ [lineFeed] = line ∧ Ahead s E kept ⟨rest, []⟩ flow after noise body tail spares more := by
  obtain ⟨⟨own, rfl, hown⟩, -⟩ := h.quiet line List.mem_cons_self
  have hstream : first ++ lineFeed :: (rest ++ data flow) =
      own ++ lineFeed :: (noise.flatten ++ (body ++ lineFeed :: tail)) := by
    have hall := h.stream
    rw [hline] at hall
    simpa using hall
  obtain ⟨rfl, hrest⟩ := line_unique hstream hfirst hown
  refine ⟨rfl, { h with pending := List.not_mem_nil, stream := hrest, quiet := ?_ }⟩
  exact fun line hmem => h.quiet line (List.mem_cons_of_mem _ hmem)

/-- While no line is over a read is ahead. -/
theorem flow_ne_nil (h : Ahead s E kept r flow after noise body tail spares more)
    (hopen : lineFeed ∉ r.pending ++ r.buffered) : flow ≠ [] := by
  rintro rfl
  have hstream := h.stream
  rw [data, List.append_nil] at hstream
  rw [hstream] at hopen
  simp at hopen

/-- What is ahead once a read is behind the waiter, and a challenge if it ran out of time. -/
theorem of_read {E' : Surroundings} {read : ReadAnswer} {r' : LineReader} {spares' : List LinkId}
    (h : Ahead s E kept r (read :: flow) after noise body tail spares more)
    (hpending : lineFeed ∉ r'.pending)
    (hstock : r'.pending ++ r'.buffered = r.pending ++ r.buffered ++ data [read])
    (hspares : spares' <:+ spares) (hcount : spares.length = timeouts [read] + spares'.length)
    (hlimits : E'.limits = E.limits) (hsends : E'.sends = E.sends)
    (hothers : ∀ spare ∈ spares', E'.reads spare = E.reads spare)
    (hreads : E'.reads kept = flow ++ after)
    (hconnects : E'.connects = spares'.map .ok ++ more) :
    Ahead s E' kept r' flow after noise body tail spares' more where
  pending := hpending
  stream := by
    rw [hstock, List.append_assoc, ← data_append]
    exact h.stream
  quiet := h.quiet
  single := h.single
  announces := h.announces
  pausing read hmem := h.pausing read (List.mem_cons_of_mem _ hmem)
  last before read' heq := h.last (read :: before) read' (by rw [heq]; rfl)
  reads := hreads
  connects := hconnects
  distinct := h.distinct.sublist hspares.sublist
  confirmed spare hmem := by
    obtain ⟨hne, hconfirms⟩ := h.confirmed spare (hspares.subset hmem)
    exact ⟨hne, hconfirms.congr hlimits hsends (hothers spare hmem)⟩
  rechecks := by
    have hall : spares.length = timeouts ([read] ++ flow) := h.rechecks
    rw [timeouts_append] at hall
    omega

end Ahead

/-! ## The way of a waiter -/

theorem step_replyOf (read : ReadAnswer) (reader : LineReader) (begun : Bool) :
    step s (awaiting kept reader begun) (Network.replyOf read) =
      .going (turn kept (reader.supply begun read)) := by
  rcases read with k | bytes
  · cases k <;> rfl
  · rfl

/-- A waiter that is to look for the next line works on what its reader has. -/
theorem leads_listening :
    Leads s E (.going (listening kept r)) E (.going (turn kept (r.work false))) := .next .here

/-- A read on the kept connection. -/
theorem leads_awaiting {read : ReadAnswer} {left : List ReadAnswer}
    (hreads : E.reads kept = read :: left) (begun : Bool) :
    Leads s E (.going (awaiting kept r begun)) (E.withReads kept left)
      (.going (turn kept (r.supply begun read))) :=
  .of_reply (Surroundings.reply_read hreads _) (step_replyOf read r begun ▸ .here)

/-- An occupant that is confirmed again lets the waiter go on, and nothing is touched but the
connection it was challenged on. -/
theorem leads_rechecking {spare : LinkId} (hconnects : E.connects = .ok spare :: more)
    (hconfirms : Confirms s E (.ok spare)) :
    ∃ left, Leads s E (.going (rechecking kept r .connecting))
      ({ E with connects := more }.withReads spare left) (.going (turn kept (r.work false))) := by
  obtain ⟨x, next, left, hx, hleads⟩ := Challenge.leads_confirms hconnects hconfirms
  cases hx
  exact ⟨left, (leads_rechecked kept r hleads).trans (.next leads_listening)⟩

namespace Ahead

variable {pending : Bytes}

/-- A read that runs out of time is followed by a challenge, and then the waiter listens on. -/
theorem leads_timeout {k : FaultKind}
    (h : Ahead s E kept ⟨[], pending⟩ (.error k :: flow) after noise body tail spares more)
    (hk : k.isTimeout = true) (begun : Bool) :
    ∃ E' spares', Leads s E (.going (awaiting kept ⟨[], pending⟩ begun)) E'
        (.going (turn kept (LineReader.work ⟨[], pending⟩ false))) ∧
      Ahead s E' kept ⟨[], pending⟩ flow after noise body tail spares' more := by
  have hone : timeouts [.error k] = 1 := by simp [timeouts, faults, hk]
  have hcount : spares.length = timeouts ([.error k] ++ flow) := h.rechecks
  rw [timeouts_append, hone] at hcount
  obtain ⟨spare, spares, rfl⟩ := List.exists_cons_of_length_pos (by omega : 0 < spares.length)
  obtain ⟨hspare, hconfirms⟩ := h.confirmed spare List.mem_cons_self
  have hhear : turn kept (LineReader.supply ⟨[], pending⟩ begun (.error k)) =
      rechecking kept ⟨[], pending⟩ .connecting := by
    cases k <;> first | rfl | cases hk
  have hread := leads_awaiting (s := s) (r := ⟨[], pending⟩) h.reads begun
  rw [hhear] at hread
  obtain ⟨left, hrecheck⟩ := leads_rechecking (E := E.withReads kept (flow ++ after)) h.connects
    (hconfirms.congr rfl rfl (Surroundings.withReads_other hspare))
  refine ⟨_, spares, hread.trans hrecheck, h.of_read h.pending ?_ ⟨[spare], rfl⟩ ?_ rfl rfl ?_ ?_
    rfl⟩
  · simp [data]
  · rw [hone, List.length_cons, Nat.add_comm]
  · intro other hmem
    have hother : other ≠ spare := by
      rintro rfl
      exact (List.nodup_cons.mp h.distinct).1 hmem
    rw [Surroundings.withReads_other hother]
    exact Surroundings.withReads_other (h.confirmed other (List.mem_cons_of_mem _ hmem)).1
  · rw [Surroundings.withReads_other hspare.symm]
    exact Surroundings.withReads_same

/-- A read that brings data or is interrupted leaves the waiter with what it brings. -/
theorem leads_flow {read : ReadAnswer}
    (h : Ahead s E kept ⟨[], pending⟩ (read :: flow) after noise body tail spares more)
    (hread : read = .error .interrupted ∨ ∃ bytes, bytes ≠ [] ∧ read = .ok bytes) (begun : Bool) :
    ∃ E' r' begun', Leads s E (.going (awaiting kept ⟨[], pending⟩ begun)) E'
        (.going (turn kept (LineReader.work r' begun'))) ∧
      Ahead s E' kept r' flow after noise body tail spares more := by
  have hleads := leads_awaiting (s := s) (r := ⟨[], pending⟩) h.reads begun
  have hothers : ∀ spare ∈ spares,
      (E.withReads kept (flow ++ after)).reads spare = E.reads spare :=
    fun spare hmem => Surroundings.withReads_other (h.confirmed spare hmem).1
  rcases hread with rfl | ⟨bytes, hne, rfl⟩
  · refine ⟨E.withReads kept (flow ++ after), ⟨[], pending⟩, begun, ?_, h.of_read h.pending ?_
      (List.suffix_refl _) ?_ rfl rfl hothers Surroundings.withReads_same h.connects⟩
    · have hwork : LineReader.work ⟨[], pending⟩ begun = .starved ⟨[], pending⟩ begun := by
        simp [LineReader.work, LineReader.splitLine]
      rw [hwork]
      exact hleads
    · simp [data]
    · simp [timeouts, faults, FaultKind.isTimeout]
  · obtain ⟨b, bs, rfl⟩ := List.exists_cons_of_ne_nil hne
    refine ⟨E.withReads kept (flow ++ after), ⟨b :: bs, pending⟩, begun, hleads,
      h.of_read h.pending ?_ (List.suffix_refl _) ?_ rfl rfl hothers Surroundings.withReads_same
        h.connects⟩
    · simp [data]
    · simp [timeouts, faults]

/-- A waiter hears the release that lies ahead of it, and then no read and no challenge is. -/
theorem leads_released (begun : Bool)
    (h : Ahead s E kept r flow after noise body tail spares more) :
    ∃ E', Leads s E (.going (turn kept (r.work begun))) E' (.over (.ok .released)) ∧
      E'.connects = more ∧ E'.reads kept = after := by
  -- Each turn takes a line off what lies ahead, or a read.
  induction hsize : noise.length + flow.length using Nat.strongRecOn
    generalizing E r flow noise spares begun with
  | ind size ih =>
    subst hsize
    rcases LineReader.work_cases h.pending begun with
      ⟨first, rest, hfirst, hline, hdone⟩ | ⟨hdrained, begun', hstarved⟩
    · rw [hdone]
      rcases noise with _ | ⟨line, noise⟩
      · obtain ⟨rfl, rfl⟩ := h.flow_eq_nil hline hfirst
        have hnone : spares = [] := List.length_eq_zero_iff.mp h.rechecks
        have hconnects := h.connects
        rw [hnone, List.map_nil, List.nil_append] at hconnects
        refine ⟨E, ?_, hconnects, h.reads⟩
        rw [turn, h.announces]
        exact leads_closing kept _
      · obtain ⟨hsame, hnext⟩ := h.of_line hline hfirst
        have hquiet := (h.quiet line List.mem_cons_self).2
        have hhear : hear kept ⟨rest, []⟩ (.ok (.ofLine line)) = listening kept ⟨rest, []⟩ := by
          unfold hear
          split
          case h_1 heq => exact absurd (Except.ok.inj heq) hquiet
          case h_2 heq => exact absurd (Except.ok.inj heq) (LineReader.ofLine_ne_closed line)
          case h_3 => rfl
          case h_4 heq => cases heq
        obtain ⟨E', hleads, hend⟩ := ih (noise.length + flow.length) (by simp) false hnext rfl
        refine ⟨E', ?_, hend⟩
        rw [hsame, turn, hhear]
        exact leads_listening.trans hleads
    · rw [hstarved]
      have hdry : Ahead s E kept ⟨[], r.pending ++ r.buffered⟩ flow after noise body tail spares
          more :=
        { h with
          pending := hdrained.pending
          stream := by rw [List.append_nil]; exact h.stream }
      obtain ⟨read, flow, rfl⟩ := List.exists_cons_of_ne_nil (h.flow_ne_nil hdrained.pending)
      have hsmaller : noise.length + flow.length < noise.length + (read :: flow).length := by simp
      obtain hdata | ⟨k, rfl, rfl | hk⟩ := h.pausing read List.mem_cons_self
      · obtain ⟨E₁, r₁, begun₁, hleads, hnext⟩ := hdry.leads_flow (.inr hdata) begun'
        obtain ⟨E', hleads', hend⟩ := ih _ hsmaller begun₁ hnext rfl
        exact ⟨E', hleads.trans hleads', hend⟩
      · obtain ⟨E₁, r₁, begun₁, hleads, hnext⟩ := hdry.leads_flow (.inl rfl) begun'
        obtain ⟨E', hleads', hend⟩ := ih _ hsmaller begun₁ hnext rfl
        exact ⟨E', hleads.trans hleads', hend⟩
      · obtain ⟨E₁, spares₁, hleads, hnext⟩ := hdry.leads_timeout hk begun'
        obtain ⟨E', hleads', hend⟩ := ih _ hsmaller false hnext rfl
        exact ⟨E', hleads.trans hleads', hend⟩

end Ahead

/-! ## The whole way -/

variable {probe : LinkId} {opening : Bytes} {used left : List ReadAnswer}

/-- A second challenge that is confirmed lets the waiter listen to what its reader has and what is
left of the reads. -/
theorem leads_joining (hconnects : E.connects = .ok kept :: more)
    (hsends : E.Sends kept s.challengeTimeout) (hlimit : E.limits kept s.waitTimeout = .ok ())
    (hreads : E.reads kept = used ++ left)
    (htakes : LineReader.Takes ({} : LineReader).start used (.done (.ok (.message .success)) r)) :
    Leads s E (.going (joining .connecting)) ({ E with connects := more }.withReads kept left)
      (.going (turn kept (r.work false))) := by
  have hlistened : Challenge.Leads s { E with connects := more }
      (Challenge.turn s kept ({} : LineReader).start)
      ({ E with connects := more }.withReads kept left) (.over (.ok (kept, r))) := by
    have hall : E.reads kept ++ [.ok []] = used ++ (left ++ [.ok []]) := by
      rw [hreads, List.append_assoc]
    have hleads := Challenge.leads_takes (s := s) (E := { E with connects := more }) htakes hall
    rwa [List.dropLast_concat] at hleads
  have hasked : Challenge.Leads s { E with connects := more } (.going (.limiting kept))
      { E with connects := more } (Challenge.turn s kept ({} : LineReader).start) :=
    Challenge.leads_asked hsends
  have hjoined := leads_joined ((Challenge.leads_connected hconnects).trans
    (hasked.trans hlistened))
  exact hjoined.trans (.of_reply (Surroundings.reply_limit hlimit) leads_listening)

/-- The line of success is over before a read fails, so the second challenge takes it and no more of
the reads than flow. -/
theorem takes_opening {before : List ReadAnswer} {last : Bytes} (hlast : last ≠ [])
    (hdata : .ok [] ∉ before) (hopening : IsLine opening)
    (hwhole : opening <+: data (before ++ [.ok last]))
    (hearly : ∀ pre k post, before = pre ++ .error k :: post → k ≠ .interrupted →
      opening <+: data pre) :
    ∃ used left behind, before ++ [.ok last] = used ++ left ∧ Flowing used ∧
      LineReader.Takes ({} : LineReader).start used (.done (.ok (.ofLine opening)) ⟨behind, []⟩) ∧
      opening ++ (behind ++ data left) = data (before ++ [.ok last]) := by
  obtain ⟨pre, post, hsplit, hflow, hprefix⟩ : ∃ pre post, before ++ [.ok last] = pre ++ post ∧
      Flowing pre ∧ opening <+: data pre := by
    rcases flowing_or_broken hdata with hflow | ⟨pre, k, post, rfl, hflow, hk⟩
    · refine ⟨before ++ [.ok last], [], by rw [List.append_nil], hflow.append ?_, hwhole⟩
      exact flowing_cons.mpr ⟨.inr ⟨last, hlast, rfl⟩, flowing_nil⟩
    · exact ⟨pre, _, List.append_assoc .., hflow, hearly pre k post rfl hk⟩
  obtain ⟨own, rfl, hown⟩ := hopening
  obtain ⟨rest, hrest⟩ := hprefix
  have hpre : [] ++ data pre = own ++ lineFeed :: rest := by rw [← hrest]; simp
  obtain ⟨used, left, behind, rfl, hbehind, htakes⟩ :=
    LineReader.takes_line hflow List.not_mem_nil hown hpre
  refine ⟨used, left ++ post, behind, by rw [hsplit, List.append_assoc], ?_, htakes, ?_⟩
  · exact fun read hmem => hflow read (List.mem_append_left _ hmem)
  · rw [hsplit, data_append, data_append, ← hrest, ← hbehind]
    simp

/-- What lies ahead of a waiter once its reader has taken the opening line. -/
theorem Ahead.start {before : List ReadAnswer} {head behind : Bytes}
    (hsplit : before ++ [.ok (head ++ lineFeed :: tail)] = used ++ left) (hflow : Flowing used)
    (hstream : behind ++ data left = noise.flatten ++ (body ++ lineFeed :: tail))
    (hnoise : ∀ line ∈ noise, IsLine line ∧ Heard.ofLine line ≠ .message .release)
    (hbody : lineFeed ∉ body) (hrelease : Heard.ofLine (body ++ [lineFeed]) = .message .release)
    (hpausing : Pausing before) (hrechecks : spares.length = timeouts before)
    (hreads : E.reads kept = left ++ after) (hconnects : E.connects = spares.map .ok ++ more)
    (hdistinct : spares.Nodup)
    (hconfirmed : ∀ spare ∈ spares, spare ≠ kept ∧ Confirms s E (.ok spare)) :
    Ahead s E kept ⟨behind, []⟩ left after noise body tail spares more where
  pending := List.not_mem_nil
  stream := hstream
  quiet := hnoise
  single := hbody
  announces := hrelease
  pausing read hmem := by
    have hall : read ∈ before ++ [.ok (head ++ lineFeed :: tail)] :=
      hsplit ▸ List.mem_append_right _ hmem
    rcases List.mem_append.mp hall with hread | hread
    · exact hpausing read hread
    · exact .inl ⟨_, by simp, List.mem_singleton.mp hread⟩
  last init read heq := by
    rw [heq, ← List.append_assoc] at hsplit
    obtain ⟨-, hread⟩ := List.append_inj' hsplit rfl
    exact ⟨head, (List.singleton_inj.mp hread).symm⟩
  reads := hreads
  connects := hconnects
  distinct := hdistinct
  confirmed := hconfirmed
  rechecks := by
    have hcount := congrArg timeouts hsplit
    have hnone : timeouts [.ok (head ++ lineFeed :: tail)] = 0 := rfl
    rw [timeouts_append, timeouts_append, hnone, hflow.timeouts_eq_zero, Nat.zero_add] at hcount
    exact hrechecks.trans hcount

/-- A waiter whose first challenge is confirmed never misses a release. Let the kept connection
bring a line of success, then lines that announce no release, then one that does, and then anything,
in any pieces; let its reads fail by interruption and for want of time only, and for want of time
only once the line of success is over; and let there be, for each read that runs out of time before
the release is over, a connection on which the occupant is confirmed. Then waiting ends with the
release: it has made just these challenges, and the reads behind the release are left. -/
theorem release_never_missed (s : Settings) {before : List ReadAnswer} {head : Bytes}
    (hconnects : E.connects = .ok probe :: .ok kept :: (spares.map .ok ++ more))
    (hdistinct : (probe :: kept :: spares).Nodup) (hprobe : Confirms s E (.ok probe))
    (hspares : ∀ spare ∈ spares, Confirms s E (.ok spare))
    (hsends : E.Sends kept s.challengeTimeout) (hlimit : E.limits kept s.waitTimeout = .ok ())
    (hreads : E.reads kept = before ++ .ok (head ++ lineFeed :: tail) :: after)
    (hbytes : data before ++ head = opening ++ noise.flatten ++ body)
    (hopening : IsLine opening) (hsuccess : Heard.ofLine opening = .message .success)
    (hnoise : ∀ line ∈ noise, IsLine line ∧ Heard.ofLine line ≠ .message .release)
    (hbody : lineFeed ∉ body) (hrelease : Heard.ofLine (body ++ [lineFeed]) = .message .release)
    (hpausing : Pausing before)
    (hearly : ∀ pre k post, before = pre ++ .error k :: post → k ≠ .interrupted →
      opening <+: data pre)
    (hrechecks : spares.length = timeouts before) :
    ∃ E', Leads s E (.going (probing .connecting)) E' (.over (.ok .released)) ∧
      E'.connects = more ∧ E'.reads kept = after ∧
      ∀ E'' result, Leads s E (.going (probing .connecting)) E'' (.over result) →
        E'' = E' ∧ result = .ok .released := by
  obtain ⟨hne, hdistinct'⟩ := List.nodup_cons.mp hdistinct
  obtain ⟨hkept, hnodup⟩ := List.nodup_cons.mp hdistinct'
  have hprobe_kept : kept ≠ probe := fun heq => hne (heq ▸ List.mem_cons_self)
  have hlast : head ++ lineFeed :: tail ≠ [] := by simp
  have hdata : data (before ++ [.ok (head ++ lineFeed :: tail)]) =
      opening ++ (noise.flatten ++ (body ++ lineFeed :: tail)) := by
    have hpiece : data [.ok (head ++ lineFeed :: tail)] = head ++ lineFeed :: tail := by
      rw [data, data, List.append_nil]
    rw [data_append, hpiece, ← List.append_assoc, hbytes]
    simp
  have hend : .ok [] ∉ before := by
    intro hmem
    obtain ⟨bytes, hbytes, heq⟩ | ⟨k, heq, -⟩ := hpausing _ hmem
    · exact hbytes (Except.ok.inj heq).symm
    · cases heq
  obtain ⟨used, left, behind, hsplit, hflow, htakes, hstream⟩ :=
    takes_opening hlast hend hopening ⟨_, hdata.symm⟩ hearly
  rw [hsuccess] at htakes
  -- The first challenge, on a connection of its own.
  obtain ⟨x, next, probed, hx, hfirst⟩ := Challenge.leads_confirms hconnects hprobe
  cases hx
  generalize hE₁ : Surroundings.withReads _ probe probed = E₁ at hfirst
  have hreads₁ : ∀ y, y ≠ probe → E₁.reads y = E.reads y := by
    rintro y hy
    rw [← hE₁]
    exact Surroundings.withReads_other hy
  have hlimits₁ : E₁.limits = E.limits := by rw [← hE₁]; rfl
  have hsends₁ : E₁.sends = E.sends := by rw [← hE₁]; rfl
  have hconnects₁ : E₁.connects = .ok kept :: (spares.map .ok ++ more) := by rw [← hE₁]; rfl
  have hkept₁ : E₁.reads kept = used ++ (left ++ after) := by
    rw [hreads₁ kept hprobe_kept, hreads, List.append_cons, hsplit, List.append_assoc]
  -- The second challenge, on the connection that is kept.
  have hsecond := leads_joining (s := s) hconnects₁ (by rwa [Surroundings.Sends, hlimits₁, hsends₁])
    (by rwa [hlimits₁]) hkept₁ htakes
  have hahead : Ahead s ({ E₁ with connects := spares.map Except.ok ++ more }.withReads kept
      (left ++ after)) kept ⟨behind, []⟩ left after noise body tail spares more := by
    refine .start hsplit hflow (List.append_cancel_left (hstream.trans hdata)) hnoise hbody hrelease
      hpausing hrechecks Surroundings.withReads_same rfl hnodup fun spare hmem => ?_
    have hspare_kept : spare ≠ kept := fun heq => hkept (heq ▸ hmem)
    have hspare_probe : spare ≠ probe := fun heq => hne (heq ▸ List.mem_cons_of_mem _ hmem)
    refine ⟨hspare_kept, (hspares spare hmem).congr hlimits₁ hsends₁ ?_⟩
    rw [Surroundings.withReads_other hspare_kept]
    exact hreads₁ spare hspare_probe
  obtain ⟨E', hleads, hmore, hafter⟩ := hahead.leads_released false
  have hwhole : Leads s E (.going (probing .connecting)) E' (.over (.ok .released)) :=
    (leads_probed hfirst).trans (.next (hsecond.trans hleads))
  exact ⟨E', hwhole, hmore, hafter, fun E'' result => hwhole.unique⟩

/-- What the kept connection brings before the release is over: two lines that announce nothing, the
second ill-formed, torn by two time-outs and an interruption. -/
def halting : List ReadAnswer :=
  [.ok (Text.encode "PORT_LOCK::SUCCESS\nhel"), .error .wouldBlock,
    .ok (Text.encode "lo\n" ++ [0xFF, lineFeed] ++ Text.encode "PORT_LOCK::REL"),
    .error .interrupted, .error .timedOut]

/-- A holder that releases its lock; it confirms itself on three more connections. -/
def leisurely : Surroundings where
  connects := [.ok 1, .ok 2, .ok 3, .ok 4]
  limits _ _ := .ok ()
  sends _ := .ok ()
  reads x := if x = 2 then halting ++ [.ok (Text.encode "EASE\r\nbye")]
    else [.ok (Text.encode "PORT_LOCK::SUCCESS\n")]

theorem leisurely_confirms {x : LinkId} (hx : x ≠ 2) : Confirms {} leisurely (.ok x) := by
  refine ⟨⟨rfl, rfl⟩, Text.encode "PORT_LOCK::SUCCESS\n", ?_, by decide +kernel⟩
  have hreads : leisurely.reads x = [.ok (Text.encode "PORT_LOCK::SUCCESS\n")] := if_neg hx
  unfold Surroundings.Answers
  rw [hreads]
  have hflow : Flowing [.ok (Text.encode "PORT_LOCK::SUCCESS\n")] :=
    flowing_cons.mpr ⟨.inr ⟨_, by decide +kernel, rfl⟩, flowing_nil⟩
  have hdata : data [.ok (Text.encode "PORT_LOCK::SUCCESS\n")] =
      Text.encode "PORT_LOCK::SUCCESS" ++ lineFeed :: [] := by decide +kernel
  exact .whole hflow (by decide +kernel) hdata

theorem leisurely_released : ∃ E',
    Leads {} leisurely (.going (probing .connecting)) E' (.over (.ok .released)) ∧
      E'.connects = [] ∧ E'.reads 2 = [] := by
  have hearly : ∀ pre k post, halting = pre ++ .error k :: post → k ≠ .interrupted →
      Text.encode "PORT_LOCK::SUCCESS\n" <+: data pre := by
    rintro (_ | ⟨read, pre⟩) k post heq -
    · cases heq
    · obtain rfl := (List.cons.inj heq).1
      exact List.IsPrefix.trans ⟨Text.encode "hel", by decide +kernel⟩ (List.prefix_append ..)
  have hpausing : Pausing halting := by
    intro read hread
    simp only [halting, List.mem_cons, List.not_mem_nil, or_false] at hread
    obtain rfl | rfl | rfl | rfl | rfl := hread
    · exact .inl ⟨_, by decide +kernel, rfl⟩
    · exact .inr ⟨_, rfl, .inr rfl⟩
    · exact .inl ⟨_, by decide +kernel, rfl⟩
    · exact .inr ⟨_, rfl, .inl rfl⟩
    · exact .inr ⟨_, rfl, .inr rfl⟩
  have hnoise : ∀ line ∈ [Text.encode "hello\n", [0xFF, lineFeed]],
      IsLine line ∧ Heard.ofLine line ≠ .message .release := by
    intro line hline
    obtain rfl | rfl := (show line = _ ∨ line = _ by simpa using hline)
    · exact ⟨⟨Text.encode "hello", by decide +kernel, by decide +kernel⟩, by decide +kernel⟩
    · exact ⟨⟨[0xFF], rfl, by decide⟩, by decide +kernel⟩
  have hspares : ∀ spare ∈ [3, 4], Confirms {} leisurely (.ok spare) := by
    intro spare hspare
    obtain rfl | rfl := (show spare = 3 ∨ spare = 4 by simpa using hspare)
    · exact leisurely_confirms (by decide)
    · exact leisurely_confirms (by decide)
  have hopening : IsLine (Text.encode "PORT_LOCK::SUCCESS\n") :=
    ⟨Text.encode "PORT_LOCK::SUCCESS", by decide +kernel, by decide +kernel⟩
  have hconnects : leisurely.connects =
      .ok 1 :: .ok 2 :: (([3, 4] : List LinkId).map .ok ++ []) := rfl
  have hreads : leisurely.reads 2 =
      halting ++ .ok (Text.encode "EASE\r" ++ lineFeed :: Text.encode "bye") :: [] := by
    decide +kernel
  have hbytes : data halting ++ Text.encode "EASE\r" = Text.encode "PORT_LOCK::SUCCESS\n" ++
      [Text.encode "hello\n", [0xFF, lineFeed]].flatten ++ Text.encode "PORT_LOCK::RELEASE\r" := by
    decide +kernel
  obtain ⟨E', hleads, hmore, hafter, -⟩ := release_never_missed {} hconnects (by decide)
    (leisurely_confirms (by decide)) hspares ⟨rfl, rfl⟩ rfl hreads hbytes hopening
    (by decide +kernel) hnoise (by decide +kernel) (by decide +kernel) hpausing hearly
    (by decide +kernel)
  exact ⟨E', hleads, hmore, hafter⟩

end Vigil

end LoopbackLock
