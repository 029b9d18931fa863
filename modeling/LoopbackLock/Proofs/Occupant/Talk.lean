import LoopbackLock.Occupant.Decoy
import LoopbackLock.Proofs.Wire.Opening
import LoopbackLock.Proofs.World.Asking

/-!
# A challenge and a decoy

A decoy that answers so many connections and then no more is faced by one contender, which
challenges it on one connection after the other. Where the last connection stands is told by its
`Reception`: it waits, the decoy hears the question on it or answers it, or the answer is given; or
the decoy has given all its answers and lets it wait for ever. A step of the decoy leads from one of
these to the next and touches no other connection (`Reception.step`).
-/

namespace LoopbackLock

/-! ## What a quiet end finds -/

namespace Network

variable {n n' : Network} {x : LinkId} {side : Side} {l : Link} {chance : Chance} {r : Reply}

/-- A read at an end that was neither ended nor reset finds bytes that have arrived, or it fails, or
it finds none and runs out of time. -/
theorem hear?_lasting (hl : n.links[x]? = some l) (hended : (l.atSide side).ended = false)
    (hreset : (l.atSide side).reset = false) (h : n.hear? x side chance = some (r, n')) :
    (∃ bytes rest, bytes ≠ [] ∧ (l.atSide side).inbox = bytes ++ rest ∧ r = .heard bytes ∧
      n' = n.modifyLink x (·.take side bytes.length)) ∨
    (∃ f, chance = .fail f ∧ r = .failed f ∧ n' = n) ∨
    chance = .expire ∧ (l.atSide side).inbox = [] ∧ r = .failed .wouldBlock ∧ n' = n := by
  have hread (most : Nat) (hmost : 1 ≤ most)
      (h : (n.read? x side most).map (fun p => (replyOf p.1, p.2)) = some (r, n')) :
      ∃ bytes rest, bytes ≠ [] ∧ (l.atSide side).inbox = bytes ++ rest ∧ r = .heard bytes ∧
        n' = n.modifyLink x (·.take side bytes.length) := by
    by_cases hinbox : (l.atSide side).inbox = []
    · simp [read?, hl, End.found, hinbox, hended, hreset] at h
    · refine ⟨(l.atSide side).inbox.take most, (l.atSide side).inbox.drop most, ?_,
        (List.take_append_drop ..).symm, ?_⟩
      · obtain ⟨b, bs, hbs⟩ := List.exists_cons_of_ne_nil hinbox
        obtain ⟨most, rfl⟩ := Nat.exists_eq_add_of_le' hmost
        simp [hbs]
      · simp [read?, hl, End.found, hinbox, replyOf] at h
        exact ⟨h.1.symm, by simp [h.2.symm]⟩
  cases chance with
  | plain => exact .inl (hread _ (by decide) h)
  | part count => exact .inl (hread _ (by omega) h)
  | expire =>
    refine .inr (.inr ?_)
    by_cases hinbox : (l.atSide side).inbox = []
    · simp [hear?, read?, hl, End.found, hinbox, hended, hreset] at h
      exact ⟨rfl, hinbox, h.1.symm, h.2.symm⟩
    · simp [hear?, read?, hl, End.found, hinbox] at h
  | fail f =>
    obtain ⟨rfl, rfl⟩ := Prod.mk.inj (Option.some.inj h)
    exact .inr (.inl ⟨f, rfl, rfl, rfl⟩)
  | rouse | blind => cases h

/-- The network of a decoy at an endpoint and the connections to it. -/
def decoyed (e : Endpoint) (backlog : List LinkId) (links : List Link) : Network where
  listeners := [{ endpoint := e, backlog }]
  links

variable {e : Endpoint} {backlog : List LinkId} {before : List Link}

/-- Only the last connection changes. -/
theorem modifyLink_last {j : Nat} (hj : before.length = j) (f : Link → Link) :
    (decoyed e backlog (before ++ [l])).modifyLink j f = decoyed e backlog (before ++ [f l]) := by
  subst hj
  simp [modifyLink, decoyed, List.modify_eq_take_cons_drop]

theorem links_last {j : Nat} (hj : before.length = j) :
    (decoyed e backlog (before ++ [l])).links[j]? = some l := by
  subst hj
  simp [decoyed]

end Network

/-- A connection on which the contender has asked and the decoy has said something, with what of it
was not read yet; nobody has hung up. -/
def Link.talked (source target : Endpoint) (asked unheard said unread : Bytes) : Link where
  target
  source
  caller := { inbox := unread, said := asked }
  callee := { inbox := unheard, said }

/-- What the contender takes in was not read before. -/
theorem Link.take_caller_talked (source target : Endpoint) (asked unheard said bytes left : Bytes) :
    (talked source target asked unheard said (bytes ++ left)).take .caller bytes.length =
      talked source target asked unheard said left := by
  simp [Link.take, Link.modify, Link.talked]

/-- What the decoy takes in was not heard before. -/
theorem Link.take_callee_talked (source target : Endpoint) (asked said unread bytes left : Bytes) :
    (talked source target asked (bytes ++ left) said unread).take .callee bytes.length =
      talked source target asked left said unread := by
  simp [Link.take, Link.modify, Link.talked]

/-! ## Two lines -/

/-- The bytes are one line. -/
def IsLine (bytes : Bytes) : Prop := ∃ body, bytes = body ++ [lineFeed] ∧ lineFeed ∉ body

theorem isLine_question : IsLine Challenge.question :=
  ⟨Challenge.question.dropLast, by decide +kernel, by decide +kernel⟩

theorem isLine_answer : IsLine Attendance.answer :=
  ⟨_, Attendance.answer_eq, Attendance.lineFeed_not_mem_answerBody⟩

/-- The first line feed in a line ends it. -/
theorem IsLine.ends {whole body rest more : Bytes} (h : IsLine whole) (hopen : lineFeed ∉ body)
    (hall : body ++ lineFeed :: rest ++ more = whole) :
    body ++ [lineFeed] = whole ∧ rest = [] ∧ more = [] := by
  obtain ⟨body', rfl, hbody'⟩ := h
  have heq : body ++ lineFeed :: (rest ++ more) = body' ++ lineFeed :: [] := by simpa using hall
  obtain ⟨hline, hnil⟩ := Framing.line_unique heq hopen hbody'
  obtain ⟨rfl, rfl⟩ := List.append_eq_nil_iff.mp hnil
  exact ⟨by rw [hline], rfl, rfl⟩

/-- What holds no line feed is no line. -/
theorem IsLine.closed {whole : Bytes} (h : IsLine whole) (hopen : lineFeed ∉ whole) : False := by
  obtain ⟨body, rfl, -⟩ := h
  exact hopen (List.mem_append_right _ List.mem_cons_self)

theorem IsLine.ends_of_splitLine {whole taken bytes line rest more : Bytes} (h : IsLine whole)
    (hopen : lineFeed ∉ taken) (hsplit : LineReader.splitLine bytes = some (line, rest))
    (hall : taken ++ bytes ++ more = whole) : taken ++ line = whole ∧ rest = [] ∧ more = [] := by
  obtain ⟨rfl, piece, rfl, hpiece⟩ := LineReader.splitLine_eq_some hsplit
  have hfree : lineFeed ∉ taken ++ piece := by
    intro hmem
    exact (List.mem_append.mp hmem).elim hopen hpiece
  rw [← List.append_assoc]
  exact h.ends hfree (by simpa using hall)

/-! ## The decoy -/

/-- The decoy that answers `k` connections. -/
def Decoy.fading (k : Nat) (answered : List LinkId) (stage : DecoyStage) : Decoy where
  listener := 0
  disguise := .holderThenSilent k
  answered
  stage

/-- The decoy is at no connection; it accepts only as long as it has answers left. -/
def DecoyStage.IsIdle (k answered : Nat) (stage : DecoyStage) : Prop :=
  stage = .checking ∨ stage = .resting ∨ stage = .accepting ∧ answered < k

/-- The system does its part for a decoy: nothing fails, but that a read or a write may be
interrupted; a write takes something; and the first line comes in time. -/
def Decoy.Granted (d : Decoy) (chance : Chance) : Prop :=
  match d.stage with
  | .hearing .. => (∀ f, chance = .fail f → f.kind = .interrupted) ∧ chance ≠ .expire
  | .answering .. => (∀ f, chance = .fail f → f.kind = .interrupted) ∧ chance ≠ .part 0
  | _ => ∀ f, chance ≠ .fail f

/-- How many steps the decoy is still away from having answered so many connections, at most. -/
def Decoy.strides (d : Decoy) (calls : Nat) : Nat :=
  let line := Challenge.question.length + Attendance.answer.length
  let due (n : Nat) : Nat :=
    if d.answered.length < calls ∧ d.disguise.accepts d.answered.length = true then line + n else 0
  match d.stage with
  | .resting => due 4
  | .checking => due 3
  | .accepting => due 2
  | .hearing _ heard => Challenge.question.length - heard.length + Attendance.answer.length + 1
  | .answering _ rest => rest.length
  | .gone => 0

/-- Where the connection `j` stands with the decoy: what was asked on it, what of that was not heard
and what was said; and the connections the decoy has answered, its stage and its backlog. -/
inductive Reception (k j : Nat) :
    Bytes → Bytes → Bytes → List LinkId → DecoyStage → List LinkId → Prop
  | waiting {asked : Bytes} {stage : DecoyStage} (hj : j < k) (hidle : stage.IsIdle k j) :
    Reception k j asked asked [] (List.range j) stage [j]
  | hearing {heard unheard : Bytes} (hj : j < k) (hopen : lineFeed ∉ heard) :
    Reception k j (heard ++ unheard) unheard [] (List.range j) (.hearing j heard) []
  | answering {said rest : Bytes} (hj : j < k) (hrest : rest ≠ [])
    (hall : said ++ rest = Attendance.answer) :
    Reception k j Challenge.question [] said (List.range j) (.answering j rest) []
  | answered {stage : DecoyStage} (hj : j < k) (hidle : stage.IsIdle k (j + 1)) :
    Reception k j Challenge.question [] Attendance.answer (List.range (j + 1)) stage []
  | ignored {asked : Bytes} {stage : DecoyStage} (hj : k ≤ j) (hidle : stage.IsIdle k k) :
    Reception k j asked asked [] (List.range k) stage (List.range' k (j + 1 - k))

/-! ## Steps of the decoy -/

section Steps

variable {k j : Nat} {e source target : Endpoint} {before : List Link}
variable {backlog answered : List LinkId}
variable {asked unheard said unread heard rest : Bytes} {stage : DecoyStage} {chance : Chance}
variable {d' : Decoy} {n' : Network}

/-- A decoy with nothing to answer has no way before it. -/
theorem Decoy.strides_idle {a calls : Nat} (hidle : stage.IsIdle k a)
    (hdone : calls ≤ answered.length ∨ k ≤ answered.length) :
    (fading k answered stage).strides calls = 0 := by
  have hdue : ¬(answered.length < calls ∧
      (Disguise.holderThenSilent k).accepts answered.length = true) := by
    rintro ⟨hcalls, haccepts⟩
    have haccepts : answered.length < k := of_decide_eq_true haccepts
    omega
  obtain rfl | rfl | ⟨rfl, -⟩ := hidle <;> exact if_neg hdue

theorem Decoy.strides_le_of_idle {a calls : Nat} (hidle : stage.IsIdle k a) :
    (fading k answered stage).strides calls ≤
      Challenge.question.length + Attendance.answer.length + 4 := by
  have hdue : ∀ (due : Prop) [Decidable due] (m n : Nat), m ≤ n → (if due then m else 0) ≤ n := by
    intro due _ m n hle
    split <;> omega
  obtain rfl | rfl | ⟨rfl, -⟩ := hidle <;> exact hdue _ _ _ (by omega)

/-- Where nothing waits that it would accept, an idle decoy stays idle. -/
theorem Decoy.step_idle {links : List Link} (hidle : stage.IsIdle k answered.length)
    (hempty : answered.length < k → backlog = [])
    (hs : (fading k answered stage).step? (.decoyed e backlog links) chance = some (d', n')) :
    ∃ stage', stage'.IsIdle k answered.length ∧ d' = fading k answered stage' ∧
      n' = .decoyed e backlog links := by
  obtain rfl | rfl | ⟨rfl, hlt⟩ := hidle
  · by_cases hlt : answered.length < k
    · simp only [step?, fading, Disguise.accepts, hlt, decide_true, if_true] at hs
      obtain ⟨rfl, rfl⟩ := Prod.mk.inj (Option.some.inj hs)
      exact ⟨.accepting, .inr (.inr ⟨rfl, hlt⟩), rfl, rfl⟩
    · simp only [step?, fading, Disguise.accepts, hlt, decide_false] at hs
      obtain ⟨rfl, rfl⟩ := Prod.mk.inj (Option.some.inj hs)
      exact ⟨.resting, .inr (.inl rfl), rfl, rfl⟩
  · cases chance <;> simp only [step?, fading] at hs <;> cases hs
    exact ⟨.checking, .inl rfl, rfl, rfl⟩
  · have hnone : (Network.decoyed e backlog links).accept? 0 = none := by
      simp [Network.accept?, Network.decoyed, hempty hlt]
    refine ⟨.resting, .inr (.inl rfl), ?_⟩
    cases chance <;> simp only [step?, fading, hnone] at hs <;> cases hs <;> exact ⟨rfl, rfl⟩

/-- A decoy that hears a piece of the question hears on, or it has heard all and answers. -/
theorem Decoy.hear_piece {bytes left : Bytes} (hopen : lineFeed ∉ heard) (hne : bytes ≠ [])
    (hall : heard ++ bytes ++ left = Challenge.question) :
    (left = [] ∧ ∀ n, (fading k answered stage).hear j heard n (.heard bytes) =
      (fading k answered (.answering j Attendance.answer), n)) ∨
    lineFeed ∉ heard ++ bytes ∧ ∀ n, (fading k answered stage).hear j heard n (.heard bytes) =
      (fading k answered (.hearing j (heard ++ bytes)), n) := by
  obtain ⟨b, bs, rfl⟩ := List.exists_cons_of_ne_nil hne
  cases hsplit : LineReader.splitLine (b :: bs) with
  | some found =>
    obtain ⟨line, rest⟩ := found
    obtain ⟨hline, rfl, rfl⟩ := isLine_question.ends_of_splitLine hopen hsplit hall
    have htext : (Text.decode? Challenge.question).isSome = true := by decide +kernel
    refine .inl ⟨rfl, fun n => ?_⟩
    simp only [Decoy.hear, hsplit, respond, hline, htext, if_true]
    rfl
  | none =>
    refine .inr ⟨fun hmem => ?_, fun n => ?_⟩
    · exact (List.mem_append.mp hmem).elim hopen (LineReader.splitLine_eq_none hsplit)
    · simp only [Decoy.hear, hsplit]
      rfl

/-- A decoy that hears reads on, up to the end of the question. -/
theorem Decoy.step_hearing (hbefore : before.length = j) (hj : j < k) (hopen : lineFeed ∉ heard)
    (hasked : heard ++ unheard = [] ∨ heard ++ unheard = Challenge.question)
    (hg : (fading k (List.range j) (.hearing j heard)).Granted chance)
    (hs : (fading k (List.range j) (.hearing j heard)).step? (.decoyed e backlog
      (before ++ [.talked source target (heard ++ unheard) unheard [] unread])) chance =
        some (d', n')) :
    ∃ unheard' stage', Reception k j (heard ++ unheard) unheard' [] (List.range j) stage' [] ∧
      d' = fading k (List.range j) stage' ∧ n' = .decoyed e backlog
        (before ++ [.talked source target (heard ++ unheard) unheard' [] unread]) ∧
      (((∃ f, chance = .fail f) ∧ unheard' = unheard ∧ stage' = .hearing j heard) ∨
        d'.strides (j + 1) < (fading k (List.range j) (.hearing j heard)).strides (j + 1)) := by
  obtain ⟨⟨r, n₁⟩, hhear, hs⟩ := Option.bind_eq_some_iff.mp hs
  have hs := Option.some.inj hs
  rcases Network.hear?_lasting (Network.links_last hbefore) rfl rfl hhear with
    ⟨bytes, left, hne, hinbox, rfl, rfl⟩ | ⟨f, rfl, rfl, rfl⟩ | ⟨rfl, -⟩
  · have hinbox : unheard = bytes ++ left := hinbox
    subst hinbox
    have hall : heard ++ bytes ++ left = Challenge.question := by
      rw [List.append_assoc]
      refine hasked.resolve_left fun hnil => hne ?_
      exact (List.append_eq_nil_iff.mp (List.append_eq_nil_iff.mp hnil).2).1
    rw [Network.modifyLink_last hbefore, Link.take_callee_talked] at hs
    have hlen := congrArg List.length hall
    have hpos := List.length_pos_iff.mpr hne
    simp only [List.length_append] at hlen
    rcases Decoy.hear_piece hopen hne hall with ⟨rfl, hstep⟩ | ⟨hopen', hstep⟩
    · obtain ⟨rfl, rfl⟩ := Prod.mk.inj ((hstep _).symm.trans hs)
      refine ⟨[], .answering j Attendance.answer, ?_, rfl, rfl, .inr ?_⟩
      · have hquestion : heard ++ (bytes ++ []) = Challenge.question := by
          rw [← List.append_assoc]
          exact hall
        rw [hquestion]
        exact .answering hj (by decide +kernel) rfl
      · simp only [strides, fading]
        omega
    · obtain ⟨rfl, rfl⟩ := Prod.mk.inj ((hstep _).symm.trans hs)
      refine ⟨left, .hearing j (heard ++ bytes), ?_, rfl, rfl, .inr ?_⟩
      · rw [← List.append_assoc]
        exact .hearing hj hopen'
      · simp only [strides, fading, List.length_append]
        omega
  · obtain ⟨kind, text⟩ := f
    obtain rfl : kind = .interrupted := hg.1 _ rfl
    obtain ⟨rfl, rfl⟩ := Prod.mk.inj hs
    exact ⟨unheard, _, .hearing hj hopen, rfl, rfl, .inl ⟨⟨_, rfl⟩, rfl, rfl⟩⟩
  · exact absurd rfl hg.2

/-- A write at the last connection fails, or it takes a part of what is to be said. -/
theorem Network.say_last (hbefore : before.length = j) {r : Reply}
    (h : (decoyed e backlog (before ++ [.talked source target asked [] said unread])).say j .callee
      rest chance = (r, n')) :
    (∃ f, chance = .fail f ∧ r = .failed f ∧
      n' = .decoyed e backlog (before ++ [.talked source target asked [] said unread])) ∨
    ∃ count, (chance ≠ .part 0 → rest ≠ [] → count ≠ 0) ∧ r = .took (rest.take count).length ∧
      n' = .decoyed e backlog (before ++ [.talked source target asked []
        (said ++ rest.take count) (unread ++ rest.take count)]) := by
  have hwrite (bytes : Bytes) : Network.say.attempt (decoyed e backlog
      (before ++ [.talked source target asked [] said unread])) j .callee bytes =
      (.took bytes.length, .decoyed e backlog
        (before ++ [.talked source target asked [] (said ++ bytes) (unread ++ bytes)])) := by
    have hlink : (Link.talked source target asked [] said unread).write .callee bytes =
        .ok (.talked source target asked [] (said ++ bytes) (unread ++ bytes)) := rfl
    simp only [Network.say.attempt, Network.write, links_last hbefore, hlink, Except.map,
      modifyLink_last hbefore]
  have hall (count : Nat) (h : rest.length ≤ count) : rest.take count = rest :=
    List.take_of_length_le h
  cases chance with
  | fail f =>
    obtain ⟨rfl, rfl⟩ := Prod.mk.inj h
    exact .inl ⟨f, rfl, rfl, rfl⟩
  | part count =>
    obtain ⟨rfl, rfl⟩ := Prod.mk.inj ((hwrite _).symm.trans h)
    refine .inr ⟨count, ?_, rfl, rfl⟩
    rintro hcount - rfl
    exact hcount rfl
  | plain | expire | rouse | blind =>
    obtain ⟨rfl, rfl⟩ := Prod.mk.inj ((hwrite _).symm.trans h)
    refine .inr ⟨rest.length, fun _ hne => by simpa using hne, ?_⟩
    rw [hall _ (Nat.le_refl _)]
    exact ⟨rfl, rfl⟩

/-- A decoy that answers writes on, up to the end of its answer. -/
theorem Decoy.step_answering (hbefore : before.length = j) (hj : j < k) (hrest : rest ≠ [])
    (hall : said ++ rest = Attendance.answer)
    (hg : (fading k (List.range j) (.answering j rest)).Granted chance)
    (hs : (fading k (List.range j) (.answering j rest)).step? (.decoyed e backlog
      (before ++ [.talked source target Challenge.question [] said unread])) chance =
        some (d', n')) :
    ∃ more answered' stage',
      Reception k j Challenge.question [] (said ++ more) answered' stage' [] ∧
      d' = fading k answered' stage' ∧ n' = .decoyed e backlog (before ++
        [.talked source target Challenge.question [] (said ++ more) (unread ++ more)]) ∧
      (((∃ f, chance = .fail f) ∧ more = [] ∧ d' = fading k (List.range j) (.answering j rest)) ∨
        d'.strides (j + 1) < (fading k (List.range j) (.answering j rest)).strides (j + 1)) := by
  rcases hsay : (Network.decoyed e backlog
    (before ++ [.talked source target Challenge.question [] said unread])).say j .callee rest
      chance with ⟨r, n₁⟩
  have hs : (fading k (List.range j) (.answering j rest)).written j rest n₁ r = (d', n') := by
    simp only [step?, fading, hsay] at hs
    exact Option.some.inj hs
  rcases Network.say_last hbefore hsay with ⟨f, rfl, rfl, rfl⟩ | ⟨count, hcount, rfl, rfl⟩
  all_goals simp only [written] at hs
  · obtain ⟨kind, text⟩ := f
    obtain rfl : kind = .interrupted := hg.1 _ rfl
    obtain ⟨rfl, rfl⟩ := Prod.mk.inj hs
    refine ⟨[], _, _, ?_, rfl, ?_, .inl ⟨⟨_, rfl⟩, rfl, rfl⟩⟩
    · rw [List.append_nil]
      exact .answering hj hrest hall
    · simp
  · have hpos : count ≠ 0 := hcount hg.2 hrest
    have hlen := List.length_pos_iff.mpr hrest
    by_cases hle : rest.length ≤ count
    · rw [List.take_of_length_le hle, if_pos (Nat.le_refl _)] at hs
      obtain ⟨rfl, rfl⟩ := Prod.mk.inj hs
      refine ⟨rest, List.range j ++ [j], .checking, ?_, rfl, rfl, .inr ?_⟩
      · rw [hall, ← List.range_succ]
        exact .answered hj (.inl rfl)
      · simp [strides, fading, hlen]
    · have htook : (rest.take count).length = count := List.length_take_of_le (by omega)
      rw [htook, if_neg hle, if_neg hpos] at hs
      obtain ⟨rfl, rfl⟩ := Prod.mk.inj hs
      refine ⟨rest.take count, _, .answering j (rest.drop count), ?_, rfl, rfl, .inr ?_⟩
      · refine .answering hj (fun hnil => hle (List.drop_eq_nil_iff.mp hnil)) ?_
        rw [List.append_assoc, List.take_append_drop, hall]
      · simp only [strides, fading, List.length_drop]
        omega

/-- A decoy that is called goes to the connection and accepts it. -/
theorem Decoy.step_waiting (hj : j < k) (hidle : stage.IsIdle k j) {links : List Link}
    (hg : (fading k (List.range j) stage).Granted chance)
    (hs : (fading k (List.range j) stage).step? (.decoyed e [j] links) chance = some (d', n')) :
    ∃ stage' backlog', Reception k j asked asked [] (List.range j) stage' backlog' ∧
      d' = fading k (List.range j) stage' ∧ n' = .decoyed e backlog' links ∧
      d'.strides (j + 1) < (fading k (List.range j) stage).strides (j + 1) := by
  have haccepts : (Disguise.holderThenSilent k).accepts j = true := decide_eq_true hj
  obtain rfl | rfl | ⟨rfl, -⟩ := hidle
  · simp only [step?, fading, List.length_range, haccepts, if_true] at hs
    obtain ⟨rfl, rfl⟩ := Prod.mk.inj (Option.some.inj hs)
    refine ⟨.accepting, _, .waiting hj (.inr (.inr ⟨rfl, hj⟩)), rfl, rfl, ?_⟩
    simp [strides, fading, haccepts]
  · cases chance <;> simp only [step?, fading] at hs <;> cases hs
    refine ⟨.checking, _, .waiting hj (.inl rfl), rfl, rfl, ?_⟩
    simp [strides, fading, haccepts]
  · have haccept : (Network.decoyed e [j] links).accept? 0 = some (j, .decoyed e [] links) := rfl
    refine ⟨.hearing j [], [], ?_, ?_⟩
    · show Reception k j ([] ++ asked) asked [] _ _ _
      exact .hearing hj List.not_mem_nil
    cases chance with
    | fail f => exact absurd rfl (hg f)
    | _ =>
      simp only [step?, fading, haccept] at hs
      obtain ⟨rfl, rfl⟩ := Prod.mk.inj (Option.some.inj hs)
      refine ⟨rfl, rfl, ?_⟩
      simp [strides, fading, haccepts]

/-- An idle decoy to which the last connection leaves nothing to do only looks around. -/
theorem Decoy.step_over {links : List Link} (hidle : stage.IsIdle k answered.length)
    (hempty : answered.length < k → backlog = [])
    (hdone : j + 1 ≤ answered.length ∨ k ≤ answered.length)
    (hs : (fading k answered stage).step? (.decoyed e backlog links) chance = some (d', n')) :
    ∃ stage', stage'.IsIdle k answered.length ∧ d' = fading k answered stage' ∧
      n' = .decoyed e backlog links ∧
      d'.strides (j + 1) = (fading k answered stage).strides (j + 1) ∧ d'.strides (j + 1) = 0 := by
  obtain ⟨stage', hidle', rfl, rfl⟩ := Decoy.step_idle hidle hempty hs
  have hstill := Decoy.strides_idle hidle' hdone
  exact ⟨stage', hidle', rfl, rfl, hstill.trans (Decoy.strides_idle hidle hdone).symm, hstill⟩

/-- A step of the decoy is one at the last connection, or nothing there is left for it to do. -/
theorem Reception.step (hr : Reception k j asked unheard said answered stage backlog)
    (hbefore : before.length = j) (hasked : asked = [] ∨ asked = Challenge.question)
    (hg : (Decoy.fading k answered stage).Granted chance)
    (hs : (Decoy.fading k answered stage).step? (.decoyed e backlog
      (before ++ [.talked source target asked unheard said unread])) chance = some (d', n')) :
    ∃ unheard' more answered' stage' backlog',
      Reception k j asked unheard' (said ++ more) answered' stage' backlog' ∧
      d' = .fading k answered' stage' ∧ n' = .decoyed e backlog' (before ++
        [.talked source target asked unheard' (said ++ more) (unread ++ more)]) ∧
      (d'.strides (j + 1) < (Decoy.fading k answered stage).strides (j + 1) ∨
        (unheard' = unheard ∧ more = [] ∧ answered' = answered ∧ backlog' = backlog) ∧
        d'.strides (j + 1) = (Decoy.fading k answered stage).strides (j + 1) ∧
        (0 < d'.strides (j + 1) → stage' = stage ∧ ∃ f, chance = .fail f)) := by
  have hnone (bytes : Bytes) : bytes ++ [] = bytes := List.append_nil bytes
  cases hr with
  | waiting hj hidle =>
    obtain ⟨stage', backlog', hr', rfl, rfl, hless⟩ := Decoy.step_waiting hj hidle hg hs
    exact ⟨_, [], _, stage', backlog', hr', rfl, by rw [hnone, hnone], .inl hless⟩
  | hearing hj hopen =>
    obtain ⟨unheard', stage', hr', rfl, rfl, hcases⟩ :=
      Decoy.step_hearing hbefore hj hopen hasked hg hs
    refine ⟨unheard', [], _, stage', [], hr', rfl, by rw [hnone, hnone], ?_⟩
    rcases hcases with ⟨hfail, rfl, rfl⟩ | hless
    · exact .inr ⟨⟨rfl, rfl, rfl, rfl⟩, rfl, fun _ => ⟨rfl, hfail⟩⟩
    · exact .inl hless
  | answering hj hrest hall =>
    obtain ⟨more, answered', stage', hr', rfl, rfl, hcases⟩ :=
      Decoy.step_answering hbefore hj hrest hall hg hs
    refine ⟨[], more, answered', stage', [], hr', rfl, rfl, ?_⟩
    rcases hcases with ⟨hfail, rfl, hsame⟩ | hless
    · obtain ⟨-, -, rfl, -, rfl⟩ := Decoy.mk.inj hsame
      exact .inr ⟨⟨rfl, rfl, rfl, rfl⟩, rfl, fun _ => ⟨rfl, hfail⟩⟩
    · exact .inl hless
  | answered hj hidle =>
    obtain ⟨stage', hidle', rfl, rfl, hsame, hzero⟩ :=
      Decoy.step_over (j := j) (by rwa [List.length_range]) (fun _ => rfl) (by simp) hs
    rw [List.length_range] at hidle'
    exact ⟨[], [], _, stage', [], .answered hj hidle', rfl, by rw [hnone, hnone],
      .inr ⟨⟨rfl, rfl, rfl, rfl⟩, hsame, fun hpos => absurd hzero (Nat.ne_of_gt hpos)⟩⟩
  | ignored hj hidle =>
    obtain ⟨stage', hidle', rfl, rfl, hsame, hzero⟩ :=
      Decoy.step_over (j := j) (by rwa [List.length_range]) (fun hlt => absurd hlt (by simp))
        (by simp) hs
    rw [List.length_range] at hidle'
    exact ⟨_, [], _, stage', _, .ignored hj hidle', rfl, by rw [hnone, hnone],
      .inr ⟨⟨rfl, rfl, rfl, rfl⟩, hsame, fun hpos => absurd hzero (Nat.ne_of_gt hpos)⟩⟩

/-- As long as the decoy has not said all of an answer that it gives, it can go on with it. -/
theorem Reception.can_step
    (hr : Reception k j Challenge.question unheard said answered stage backlog) (hj : j < k)
    (hsaid : said ≠ Attendance.answer) (hbefore : before.length = j) :
    0 < (Decoy.fading k answered stage).strides (j + 1) ∧
      ∃ chance, (Decoy.fading k answered stage).Granted chance ∧ (∀ f, chance ≠ .fail f) ∧
        ((Decoy.fading k answered stage).step? (.decoyed e backlog (before ++
          [.talked source target Challenge.question unheard said unread])) chance).isSome =
            true := by
  have haccepts : (Disguise.holderThenSilent k).accepts j = true := decide_eq_true hj
  generalize hasked : Challenge.question = asked at hr
  cases hr with
  | waiting _ hidle =>
    obtain rfl | rfl | ⟨rfl, -⟩ := hidle
    · refine ⟨by simp [Decoy.strides, Decoy.fading, haccepts], .plain, nofun, nofun, ?_⟩
      simp [Decoy.step?, Decoy.fading, haccepts]
    · exact ⟨by simp [Decoy.strides, Decoy.fading, haccepts], .expire, nofun, nofun, rfl⟩
    · exact ⟨by simp [Decoy.strides, Decoy.fading, haccepts], .plain, nofun, nofun, rfl⟩
  | @hearing heard _ _ hopen =>
    refine ⟨by simp [Decoy.strides, Decoy.fading], .plain, ?_⟩
    have hne : ((Link.talked source target (heard ++ unheard) unheard [] unread).atSide
        .callee).inbox ≠ [] := by
      intro hnil
      obtain rfl : unheard = [] := hnil
      rw [List.append_nil] at hasked
      exact isLine_question.closed (hasked ▸ hopen)
    refine ⟨⟨nofun, nofun⟩, nofun, ?_⟩
    simp only [Decoy.step?, Decoy.fading]
    rw [Network.hear?_inbox (Network.links_last hbefore) hne]
    rfl
  | answering _ hrest hall =>
    refine ⟨?_, .plain, ⟨nofun, nofun⟩, nofun, rfl⟩
    exact List.length_pos_iff.mpr hrest
  | answered => exact absurd rfl hsaid
  | ignored hle => exact absurd hj (Nat.not_lt.mpr hle)

/-! ## What a reception comes to -/

/-- A call waits at the decoy. -/
theorem Reception.opened (hidle : stage.IsIdle k (min j k)) :
    Reception k j [] [] [] (List.range (min j k)) stage
      (List.range' (min j k) (j - min j k) ++ [j]) := by
  by_cases hj : j < k
  · rw [Nat.min_eq_left (Nat.le_of_lt hj)] at hidle ⊢
    rw [Nat.sub_self]
    exact .waiting hj hidle
  · have hle : k ≤ j := Nat.not_lt.mp hj
    rw [Nat.min_eq_right hle] at hidle ⊢
    have hbacklog : List.range' k (j - k) ++ [j] = List.range' k (j + 1 - k) := by
      rw [Nat.sub_add_comm hle, List.range'_concat]
      congr 2
      omega
    rw [hbacklog]
    exact .ignored hle hidle

/-- The question is asked. -/
theorem Reception.question_asked (hr : Reception k j [] unheard said answered stage backlog) :
    Reception k j Challenge.question (unheard ++ Challenge.question) said answered stage
      backlog := by
  generalize hnil : [] = asked at hr
  cases hr with
  | waiting hj hidle =>
    subst hnil
    exact .waiting hj hidle
  | hearing hj hopen =>
    obtain ⟨rfl, rfl⟩ := List.append_eq_nil_iff.mp hnil.symm
    show Reception k j ([] ++ ([] ++ Challenge.question)) _ _ _ _ _
    exact .hearing hj hopen
  | answering | answered => exact absurd hnil.symm Challenge.question_ne_nil
  | ignored hj hidle =>
    subst hnil
    exact .ignored hj hidle

/-- What was said is how the answer begins. -/
theorem Reception.says (hr : Reception k j asked unheard said answered stage backlog) :
    ∃ more, said ++ more = Attendance.answer := by
  cases hr with
  | waiting | hearing | ignored => exact ⟨_, rfl⟩
  | answering hj hrest hall => exact ⟨_, hall⟩
  | answered => exact ⟨[], List.append_nil _⟩

/-- Where a decoy stands when the contender turns away from a number of connections. -/
structure DecoyStage.Rested (k calls : Nat) (answered : List LinkId) (stage : DecoyStage)
    (backlog : List LinkId) : Prop where
  idle : stage.IsIdle k (min calls k)
  answered : answered = List.range (min calls k)
  backlog : backlog = List.range' (min calls k) (calls - min calls k)

/-- A decoy that has given all its answers before has accepted none of the later connections. -/
theorem Reception.ignores (hr : Reception k j asked unheard said answered stage backlog)
    (hj : k ≤ j) : answered = List.range k ∧ backlog = List.range' k (j + 1 - k) := by
  cases hr with
  | waiting hlt | hearing hlt | answering hlt | answered hlt => exact absurd hlt (Nat.not_lt.mpr hj)
  | ignored => exact ⟨rfl, rfl⟩

theorem DecoyStage.IsIdle.full (h : stage.IsIdle k k) : stage = .checking ∨ stage = .resting := by
  rcases h with h | h | ⟨-, hlt⟩
  · exact .inl h
  · exact .inr h
  · exact absurd hlt (Nat.lt_irrefl k)

/-- A decoy that has given all its answers is at no connection, and the later ones wait. -/
theorem Reception.full (hr : Reception k j asked unheard said answered stage backlog) :
    answered.length ≤ k ∧ (answered.length = k → (stage = .checking ∨ stage = .resting) ∧
      backlog = List.range' k (j + 1 - k)) := by
  cases hr with
  | waiting hj | hearing hj | answering hj =>
    rw [List.length_range]
    exact ⟨Nat.le_of_lt hj, fun hall => absurd hall (Nat.ne_of_lt hj)⟩
  | answered hj hidle =>
    rw [List.length_range]
    refine ⟨hj, fun hall => ?_⟩
    rw [hall] at hidle
    refine ⟨DecoyStage.IsIdle.full hidle, ?_⟩
    rw [hall, Nat.sub_self]
    rfl
  | ignored hj hidle =>
    rw [List.length_range]
    exact ⟨Nat.le_refl k, fun _ => ⟨hidle.full, rfl⟩⟩

/-- Only a decoy that has answers left gives one, and it has given it then. -/
theorem Reception.complete
    (hr : Reception k j asked unheard Attendance.answer answered stage backlog) :
    j < k ∧ stage.Rested k (j + 1) answered backlog := by
  generalize hsaid : Attendance.answer = said at hr
  cases hr with
  | waiting | hearing | ignored => exact absurd hsaid (by decide +kernel)
  | answering hj hrest hall =>
    rw [← hsaid] at hall
    exact absurd (List.append_right_eq_self.mp hall) hrest
  | answered hj hidle =>
    refine ⟨hj, ?_, ?_, ?_⟩ <;> rw [Nat.min_eq_left hj]
    · exact hidle
    · rw [Nat.sub_self]
      rfl

/-- A decoy that accepts nothing more and has not answered a connection never will. -/
theorem Reception.unanswered (hr : Reception k j asked unheard said answered stage backlog)
    (hsaid : said ≠ Attendance.answer)
    (hdone : (Decoy.fading k answered stage).disguise.accepts answered.length = false) :
    k ≤ j ∧ said = [] ∧ stage.Rested k (j + 1) answered backlog := by
  have hfull : ¬answered.length < k := of_decide_eq_false hdone
  cases hr with
  | waiting hj | hearing hj | answering hj =>
    exact absurd (Nat.lt_of_le_of_lt (Nat.le_of_eq List.length_range) hj) hfull
  | answered => exact absurd rfl hsaid
  | ignored hj hidle =>
    refine ⟨hj, rfl, ?_, ?_, ?_⟩ <;> rw [Nat.min_eq_right (Nat.le_succ_of_le hj)]
    exact hidle

end Steps

end LoopbackLock
