import LoopbackLock.Proofs.World.Answering

/-!
# Nobody gives up waiting

Where all locks have the same settings, and nobody stops waiting for a question or its answer
(`Patient`), answers are written at once and every challenge is fated (`Concerted.happened`).
-/

namespace LoopbackLock

variable {s : Settings} {x : LinkId} {w w' : World} {e : Event} {t t' : ThreadId} {i : LockId}
variable {call : Call} {c : Challenge} {h : HolderId} {holder holder' : Holder}

/-- Without a chance to fail nothing is denied to a call. -/
theorem Call.isSpared_plain (call : Call) : call.isSpared .plain = true := by
  have hchallenge : ∀ c : Challenge, c.isSpared .plain = true := fun c => by cases c <;> rfl
  rcases call with _ | _ | k | _ | _ | _ | _ | _ | _ | _ | _
  case contending =>
    cases k
    case watching v =>
      cases v
      case probing | joining | rechecking => exact hchallenge _
      all_goals rfl
    all_goals rfl
  all_goals rfl

/-- Who is not in a challenge may stop waiting. -/
theorem Call.isSpared_expire (hc : call.challenge? = none) : call.isSpared .expire = true := by
  rcases call with _ | _ | k | _ | _ | _ | _ | _ | _ | _ | _
  case contending =>
    cases k
    case watching v =>
      cases v
      case probing | joining | rechecking => cases hc
      all_goals rfl
    all_goals rfl
  all_goals rfl

/-- The times by which a holder works. -/
def Holder.times (h : Holder) : UInt64 × UInt64 := (h.challengeTimeout, h.acceptPoll)

@[simp] theorem Holder.times_settle (h : Holder) (n : Network) : (h.settle n).1.times = h.times := by
  obtain ⟨_, he⟩ := h.settle_eq n
  rw [he]
  rfl

theorem Attendance.turn_answering {turn : Turn} {rest : Bytes}
    (h : Attendance.turn turn = .answering rest) : rest = answer := by
  unfold Attendance.turn at h
  split at h <;> cases h
  rfl

/-- An attendant comes to its answer with all of it to write, unless it was at it. -/
theorem Holder.Attended.stage {n n' : Network} {k : Nat} {a : Attendant} {chance : Chance}
    (ha : holder.Attended n k a chance holder' n') :
    (∃ stage, holder'.attendants = (holder.move k stage).attendants ∧
      ∀ rest, stage = .answering rest → rest = Attendance.answer) ∨
      ∃ rest, a.stage = .answering rest := by
  cases ha
  case answered hs _ => exact .inr ⟨_, hs⟩
  case heard | missed => exact .inl ⟨_, rfl, fun _ => Attendance.turn_answering⟩
  case parted =>
    refine .inl ⟨.gone, ?_, nofun⟩
    rw [Holder.settle_attendants]
  all_goals exact .inl ⟨_, rfl, nofun⟩

namespace Estate

variable {E E' : Estate}

/-- A holder keeps its times. -/
theorem Turns.times (ht : E.Turns h holder e E' holder') : holder'.times = holder.times := by
  cases ht
  case left => exact Holder.times_settle ..
  case polled hp =>
    cases hp
    case stopped => exact Holder.times_settle ..
    all_goals rfl
  case attended ha =>
    cases ha
    case parted => exact Holder.times_settle ..
    all_goals rfl
  all_goals rfl

/-- An attendant that has not made a step stands where it stood, or has just come. -/
theorem Turns.attendant_stood (ht : E.Turns h holder e E' holder') {k : Nat} {a : Attendant}
    (hk : holder'.attendants[k]? = some a) (hne : ∀ chance, e ≠ .step (.attendant h k) chance) :
    holder.attendants[k]? = some a ∨ a.stage = .preparing := by
  rcases hk₀ : holder.attendants[k]? with _ | a₀
  · right
    have hlen : holder.attendants.length ≤ k := List.getElem?_eq_none_iff.mp hk₀
    have hsame : holder'.attendants = holder.attendants → a.stage = .preparing := by
      intro heq
      rw [heq, hk₀] at hk
      cases hk
    have hmove : ∀ {holder₁ : Holder} {j : Nat} {s : Attendance},
        holder₁.attendants = holder.attendants →
        holder'.attendants = (holder₁.move j s).attendants → a.stage = .preparing := by
      intro holder₁ j s hsame heq
      have hlt := (List.getElem?_eq_some_iff.mp hk).1
      rw [heq] at hlt
      have hlt : k < (holder₁.attendants.modify j _).length := hlt
      rw [List.length_modify, hsame] at hlt
      omega
    cases ht
    case left => exact hsame (Holder.settle_attendants ..)
    case polled hp =>
      cases hp
      case stopped => exact hsame (Holder.settle_attendants ..)
      case turned => exact hsame rfl
      case attached =>
        have hk : (holder.attendants ++ [_])[k]? = some a := hk
        rw [List.getElem?_append_right hlen] at hk
        rw [List.mem_singleton.mp (List.mem_of_getElem? hk)]
    case attended ha =>
      cases ha
      case parted => exact hmove rfl (Holder.settle_attendants ..)
      all_goals exact hmove rfl rfl
    all_goals exact hsame rfl
  · exact .inl ((ht.attendant_stays hk₀ hne).symm.trans hk)

end Estate

namespace World

/-- A thread is making a challenge. -/
def Challenging (w : World) (t : ThreadId) (ch : Challenge) : Prop :=
  ∃ i call, w.threads[t]? = some (.busy i call) ∧ call.challenge? = some ch

/-- A challenge that is being made was so before, or its thread has begun it or taken it further. -/
theorem Happened.challenging_of (he : w.Happened e w') (hocc : w.occupants = [])
    (hch : w'.Challenging t c) :
    w.Challenging t c ∧ (∀ chance, e ≠ .step (.thread t) chance) ∨
      ∃ chance, e = .step (.thread t) chance ∧ (c = .connecting ∨
        ∃ i call l c₀ r w₁, w.threads[t]? = some (.busy i call) ∧ call.challenge? = some c₀ ∧
          w.lock? i = some l ∧ w.serve? l.settings chance (c₀.request l.settings) = some (r, w₁) ∧
          c₀.step l.settings r = .going c ∧ w'.network = w₁.network ∧ w'.holders = w₁.holders) := by
  obtain ⟨i', call', ht', hc'⟩ := hch
  rcases he.activity_of hocc ht' with ⟨ht, hne⟩ |
    ⟨chance, i, call, l, r, w₁, rfl, ht, hl, hs, rfl, heq⟩ | ⟨i, kind, heq⟩ | heq
  · exact .inl ⟨⟨i', call', ht, hc'⟩, hne⟩
  · have hnext : (l.step t call r).2.call?.bind Call.challenge? = some c := by
      rcases hstep : (l.step t call r).2 with call₁ | _ <;> rw [hstep] at heq <;> cases heq
      exact hc'
    refine .inr ⟨chance, rfl, (PortLock.challenge?_step hnext).imp_right ?_⟩
    rintro ⟨c₀, hc₀, hstep⟩
    rw [(Call.of_challenge? hc₀ l.settings).1] at hs
    exact ⟨i, call, l, c₀, r, w₁, ht, hc₀, hl, hs, hstep, network_settle .., by rw [settle_eq]⟩
  · cases heq
    cases kind <;> cases hc'
  · cases heq

/-- An attendant that has not made a step stands where it stood, or has just come. -/
theorem Happened.attendant_of {k : Nat} {a : Attendant} (he : w.Happened e w') (hw : w.Regular)
    (hh' : w'.holders[h]? = some holder') (hk' : holder'.attendants[k]? = some a)
    (hne : ∀ chance, e ≠ .step (.attendant h k) chance) :
    (∃ holder, w.holders[h]? = some holder ∧ holder.attendants[k]? = some a) ∨
      a.stage = .preparing := by
  rcases (hw.moves he).holder_of hh' with ⟨holder, hh, hturns⟩ | ⟨-, s', ℓ, rfl⟩
  · exact (hturns.attendant_stood hk' hne).imp_left fun hk => ⟨holder, hh, hk⟩
  · cases hk'

/-- Only its own step moves an accepting worker. -/
theorem Happened.worker_of (he : w.Happened e w') (hocc : w.occupants = [])
    (hh' : w'.holders[h]? = some holder') :
    (∃ chance, e = .step (.worker h) chance) ∨ holder'.worker = .checking ∨
      ∃ holder, w.holders[h]? = some holder ∧ holder'.listener = holder.listener ∧
        holder'.worker = holder.worker := by
  have hfront : ∀ {f : Front}, w.fronts[h]? = some f → holder'.listener = f.listener →
      holder'.worker = f.worker → ∃ holder, w.holders[h]? = some holder ∧
        holder'.listener = holder.listener ∧ holder'.worker = holder.worker := by
    intro f hf hlistener hworker
    have hf : (w.holders.map Holder.front)[h]? = some f := hf
    rw [List.getElem?_map] at hf
    obtain ⟨holder, hh, rfl⟩ := Option.map_eq_some_iff.mp hf
    exact ⟨holder, hh, hlistener, hworker⟩
  have hsame : w'.fronts = w.fronts → ∃ holder, w.holders[h]? = some holder ∧
      holder'.listener = holder.listener ∧ holder'.worker = holder.worker :=
    fun hf => hfront (hf ▸ fronts_getElem? hh') rfl rfl
  have hset : ∀ {h₀ : HolderId} {holder₀ : Holder} {next : Holder × Network},
      w.holders[h₀]? = some holder₀ → (w.setHolder h₀ next).holders[h]? = some holder' →
      (h = h₀ → next.1.listener = holder₀.listener ∧ next.1.worker = holder₀.worker) →
      ∃ holder, w.holders[h]? = some holder ∧
        holder'.listener = holder.listener ∧ holder'.worker = holder.worker := by
    intro h₀ holder₀ next hh₀ hh' hkeeps
    rw [getElem?_setHolder hh₀] at hh'
    split at hh'
    · next heq =>
      cases hh'
      exact ⟨holder₀, heq ▸ hh₀, hkeeps heq⟩
    · exact ⟨holder', hh', rfl, rfl⟩
  rcases he with ⟨ht', hl, hs⟩ | ⟨hk, hp⟩ | ⟨hk, ha⟩ | ⟨ho, -⟩ | ⟨hl, ht', hfree⟩ | ⟨hl⟩ | s | _ |
    ⟨hc⟩ | ⟨x, d⟩ | ⟨⟨hh, hperm⟩⟩
  case threadStep t' chance i call l r w₁ =>
    right
    rw [settle_eq] at hh'
    have hh' : w₁.holders[h]? = some holder' := hh'
    have hserved := served_of_serve? hs
    generalize call.request l.settings = q at hserved
    rcases hserved.deal with hb | ℓ | ℓ | hh₀ | ⟨-, -, -, -, hf⟩
    case founded =>
      have hh' : (w.holders ++ [Holder.found l.settings ℓ])[h]? = some holder' := hh'
      rcases getElem?_concat_cases hh' with ⟨-, rfl⟩ | hold
      · exact .inl rfl
      · exact .inr ⟨holder', hold, rfl, rfl⟩
    case stopped => exact .inr (hset hh₀ hh' fun _ => ⟨rfl, rfl⟩)
    case quiet => exact .inr (hfront (hf ▸ fronts_getElem? hh') rfl rfl)
    all_goals exact .inr ⟨holder', hh', rfl, rfl⟩
  case workerStep h₀ chance _ _ =>
    by_cases heq : h = h₀
    · exact .inl ⟨chance, by rw [heq]⟩
    · exact .inr (.inr (hset hk hh' fun h => absurd h heq))
  case attendantStep =>
    obtain ⟨a, -, ha⟩ := Holder.attended_of_attend? ha
    have hfront := ha.front
    exact .inr (.inr (hset hk hh' fun _ =>
      ⟨congrArg Front.listener hfront, congrArg Front.worker hfront⟩))
  case occupantStep => simp [hocc] at ho
  case done =>
    obtain ⟨_, hd⟩ := deed_eq w x d
    rw [hd] at hh'
    exact .inr (.inr ⟨holder', hh', rfl, rfl⟩)
  case shuffled => exact .inr (.inr (hset hh hh' fun _ => ⟨rfl, rfl⟩))
  all_goals exact .inr (.inr ⟨holder', hh', rfl, rfl⟩)

/-- A holder that has just been founded works by the settings of its lock. -/
theorem Happened.founded (he : w.Happened e w') (hocc : w.occupants = []) (halike : w.Fitted (· = s))
    (hnone : w.holders[h]? = none) (hh : w'.holders[h]? = some holder) :
    ∃ ℓ, holder = Holder.found s ℓ := by
  have hset : ∀ {h' : HolderId} {next : Holder},
      (w.holders.set h' next)[h]? = some holder → False := by
    intro h' next hh
    have hlt := (List.getElem?_eq_some_iff.mp hh).1
    rw [List.length_set] at hlt
    exact absurd hlt (Nat.not_lt.mpr (List.getElem?_eq_none_iff.mp hnone))
  have hsame : w'.holders = w.holders → False := by
    intro heq
    rw [heq, hnone] at hh
    cases hh
  rcases he with ⟨ht', hl, hs⟩ | ⟨hk, hp⟩ | ⟨hk, ha⟩ | ⟨ho, -⟩ | ⟨hl, ht', hfree⟩ | ⟨hl⟩ | s | _ |
    ⟨hc⟩ | ⟨x, d⟩ | ⟨⟨-, -⟩⟩
  case threadStep t' chance i call l r w₁ =>
    rw [settle_eq] at hh
    have hh : w₁.holders[h]? = some holder := hh
    have hserved := served_of_serve? hs
    generalize call.request l.settings = q at hserved
    cases hserved
    case founded ℓ hh =>
      have hh : (w.holders ++ [Holder.found l.settings ℓ])[h]? = some holder := hh
      rw [List.getElem?_append_right (List.getElem?_eq_none_iff.mp hnone)] at hh
      have hl : l.settings = s := halike _ _ hl
      exact ⟨ℓ, by rw [← hl]; exact List.mem_singleton.mp (List.mem_of_getElem? hh)⟩
    case drained | stopped | abandoned => exact (hset hh).elim
    all_goals rw [hnone] at hh; cases hh
  case workerStep | attendantStep | shuffled => exact (hset hh).elim
  case occupantStep => simp [hocc] at ho
  case done =>
    obtain ⟨_, hd⟩ := deed_eq w x d
    rw [hd] at hsame
    exact (hsame rfl).elim
  all_goals exact (hsame rfl).elim

/-! ## Whole answers -/

/-- No attendant has written a part of its answer only. -/
def Brisk (w : World) : Prop :=
  ∀ (h : HolderId) (holder : Holder) (a : Attendant) (rest : Bytes), w.holders[h]? = some holder →
    a ∈ holder.attendants → a.stage = .answering rest → rest = Attendance.answer

/-- Where answers are written at once, none is cut. -/
theorem Brisk.cutsAnswer (hb : w.Brisk) (e : Event) : w.cutsAnswer e = false := by
  rcases e with ⟨_ | _ | ⟨h, k⟩ | _, chance⟩ | _ | _ | _ | _ | _ | _
  case step.attendant =>
    unfold World.cutsAnswer
    simp only
    rcases hh : w.holders[h]? with _ | holder
    · rfl
    rcases hk : holder.attendants[k]? with _ | a
    · simp [hk]
    simp only [Option.bind_some, hk, Option.any_some]
    split
    · next rest hs => simp [hb h holder a rest hh (List.mem_of_getElem? hk) hs]
    · rfl
  all_goals rfl

/-- The answer goes out whole, or not at all. -/
theorem Brisk.answering {k : Nat} {chance : Chance} {rest : Bytes} {a : Attendant} (hb : w.Brisk)
    (hchance : chance = .plain ∨ chance = .expire) (hh : w.holders[h]? = some holder)
    (hk : holder.attendants[k]? = some a) (hs : a.stage = .answering rest)
    (he : w.happen? (.step (.attendant h k) chance) = some w') :
    ∃ stage, w'.holders = w.holders.set h (holder.move k stage) ∧
      ∀ rest, stage = .answering rest → rest = Attendance.answer := by
  obtain rfl := hb h holder a rest hh (List.mem_of_getElem? hk) hs
  have hestate := congrArg Estate.holders (estate_answer he hh hk hs)
  refine ⟨_, hestate, fun rest hrest => ?_⟩
  have hsay : w.network.say a.link .callee Attendance.answer chance =
      Network.say.attempt w.network a.link .callee Attendance.answer := by
    rcases hchance with rfl | rfl <;> rfl
  rw [hsay] at hrest
  unfold Network.say.attempt at hrest
  split at hrest
  · simp [Attendance.written, show Attendance.answer.length ≠ 0 by decide +kernel] at hrest
  · simp only [Attendance.written] at hrest
    split at hrest <;> cases hrest
    rfl

/-- An attendant that comes to its answer has all of it to write, and writes it at once. -/
theorem Brisk.attended {k : Nat} {chance : Chance} (hb : w.Brisk)
    (hchance : chance = .plain ∨ chance = .expire)
    (he : w.happen? (.step (.attendant h k) chance) = some w') : w'.Brisk := by
  have hstep := he
  obtain ⟨holder, hh, hstep⟩ := Option.bind_eq_some_iff.mp hstep
  obtain ⟨next, hnext, rfl⟩ := Option.map_eq_some_iff.mp hstep
  obtain ⟨a, hk, ha⟩ := Holder.attended_of_attend? hnext
  obtain ⟨stage, hattendants, hstage⟩ : ∃ stage,
      next.1.attendants = (holder.move k stage).attendants ∧
        ∀ rest, stage = .answering rest → rest = Attendance.answer := by
    rcases ha.stage with ⟨stage, hattendants, hstage⟩ | ⟨rest, hs⟩
    · exact ⟨stage, hattendants, hstage⟩
    · obtain ⟨stage, hholders, hstage⟩ := hb.answering hchance hh hk hs he
      refine ⟨stage, congrArg Holder.attendants ?_, hstage⟩
      have hsame : (w.holders.set h next.1)[h]? = (w.holders.set h (holder.move k stage))[h]? :=
        congrArg (·[h]?) hholders
      rw [List.getElem?_set_self (List.getElem?_eq_some_iff.mp hh).1,
        List.getElem?_set_self (List.getElem?_eq_some_iff.mp hh).1] at hsame
      exact Option.some.inj hsame
  intro h' holder' a' rest hh' ha' hs'
  have hset := (getElem?_setHolder hh next h').symm.trans hh'
  split at hset
  · cases hset
    rw [hattendants] at ha'
    obtain ⟨j, hj⟩ := List.getElem?_of_mem ha'
    have hj : (holder.attendants.modify k _)[j]? = some a' := hj
    rw [List.getElem?_modify] at hj
    obtain ⟨a₀, hj₀, rfl⟩ := Option.map_eq_some_iff.mp hj
    split at hs'
    · exact hstage rest hs'
    · exact hb h holder a₀ rest hh (List.mem_of_getElem? hj₀) hs'
  · exact hb h' holder' a' rest hset ha' hs'

/-- Whatever happens, answers go out whole, if the step of an attendant is not cut short. -/
theorem Brisk.happened (hb : w.Brisk) (hw : w.Regular)
    (hchance : ∀ h k chance, e = .step (.attendant h k) chance →
      chance = .plain ∨ chance = .expire)
    (he : w.happen? e = some w') : w'.Brisk := by
  by_cases hattendant : ∃ h k chance, e = .step (.attendant h k) chance
  · obtain ⟨h, k, chance, rfl⟩ := hattendant
    exact hb.attended (hchance h k chance rfl) he
  · intro h holder' a rest hh' ha hs
    obtain ⟨k, hk'⟩ := List.getElem?_of_mem ha
    rcases (happened_of_happen? he).attendant_of hw hh' hk'
      fun chance heq => hattendant ⟨h, k, chance, heq⟩ with ⟨holder, hh, hk⟩ | hprep
    · exact hb h holder a rest hh (List.mem_of_getElem? hk) hs
    · rw [hprep] at hs
      cases hs

/-! ## Patience -/

/-- All locks are made alike, and nobody stops waiting in a challenge: neither the challenger nor
the attendant at its connection. Nothing fails by chance. -/
def Patient (s : Settings) (w : World) : Event → Prop
  | .step (.thread t) chance => chance = .plain ∨ chance = .expire ∧
      ∀ i call, w.threads[t]? = some (.busy i call) → call.challenge? = none
  | .step (.attendant h k) chance => chance = .plain ∨ chance = .expire ∧
      ∀ (holder : Holder) (a : Attendant), w.holders[h]? = some holder →
        holder.attendants[k]? = some a → ∀ (t : ThreadId) i call c,
          w.threads[t]? = some (.busy i call) → call.challenge? = some c → a.link ∉ c.links
  | .step (.worker _) chance => chance = .plain ∨ chance = .expire
  | .newLock s' => s' = s
  | .call .. | .deed .. => False
  | _ => True

/-- Locks among themselves that have the same settings: answers are whole, and every challenge is
fated. -/
structure Concerted (s : Settings) (w : World) : Prop where
  agreeing : w.Agreeing
  claimed : w.Claimed
  alike : w.Fitted (· = s)
  times : ∀ (h : HolderId) (holder : Holder), w.holders[h]? = some holder →
    holder.times = (s.challengeTimeout, s.acceptPoll)
  brisk : w.Brisk
  fated : ∀ (t : ThreadId) i call c, w.threads[t]? = some (.busy i call) →
    call.challenge? = some c → w.Fated c

theorem Concerted.blank (s : Settings) : (World.blank .usual).Concerted s where
  agreeing := .blank
  claimed _ := rfl
  alike _ _ hl := by cases hl
  times _ _ hh := by cases hh
  brisk _ _ _ _ hh := by cases hh
  fated _ _ _ _ ht := by cases ht

/-- A connection is in one call. -/
theorem Owned.unique {i' : LockId} {call' : Call} (ho : w.Owned)
    (ht : w.threads[t]? = some (.busy i call)) (hx : x ∈ call.links)
    (ht' : w.threads[t']? = some (.busy i' call')) (hx' : x ∈ call'.links) : t' = t := by
  refine Decidable.byContradiction fun hne => ?_
  have htwo := pair_le_total (f := Activity.calls x) ht ht' (Ne.symm hne)
  have hcount : 1 ≤ call.links.count x := List.count_pos_iff.mpr hx
  have hcount' : 1 ≤ call'.links.count x := List.count_pos_iff.mpr hx'
  have hcalls := ho.calls x
  have hone := ho.one x
  simp only [Activity.calls] at htwo hcalls
  omega

/-- What patience is with chance and with peers. -/
theorem Patient.cooperates (hp : w.Patient s e) (hvalid : s.validate = .ok s) (hb : w.Brisk) :
    w.cooperates e = true := by
  have hcut := hb.cutsAnswer e
  rcases e with ⟨t | _ | _ | _, chance⟩ | _ | _ | s' | _ | _ | _
  case step.thread =>
    unfold World.cooperates
    simp only
    split
    · next i call ht =>
      rcases hp with rfl | ⟨rfl, hnone⟩
      · exact call.isSpared_plain
      · exact Call.isSpared_expire (hnone _ _ ht)
    · rfl
  case newLock =>
    obtain rfl : s' = s := hp
    exact Option.isNone_iff_eq_none.mpr (Settings.valid_iff.mp hvalid)
  case call | deed => exact hp.elim
  case step.worker | step.attendant | step.occupant => simp [World.cooperates, hcut]
  all_goals rfl

/-- What others do lets a challenge be as it is fated. -/
theorem Concerted.fated_others (hw : w.Concerted s) (hvalid : s.validate = .ok s)
    (hp : w.Patient s e) (he : w.happen? e = some w') (ht : w.threads[t]? = some (.busy i call))
    (hc : call.challenge? = some c) (hne : ∀ chance, e ≠ .step (.thread t) chance) : w'.Fated c := by
  have hf := hw.fated t i call c ht hc
  have hlinks := (Call.of_challenge? hc s).2.2.2
  have hfate : ∀ {x asked}, x ∈ c.links → w.Fate x asked → w'.Fate x asked := by
    intro x asked hx hf
    refine hw.agreeing.fate_others hf he (hw.agreeing.owned.mine ht (hlinks x hx)).1 ?_ ?_ ?_ ?_
    · rintro t' i' call' chance ht' rfl hx'
      exact hne chance (by rw [hw.agreeing.owned.unique ht (hlinks x hx) ht' hx'])
    · rintro y d rfl
      exact hp
    · intro h holder hh hzero
      have htimes := congrArg Prod.fst (hw.times h holder hh)
      exact (Settings.valid_cases hvalid).2.2.1 (htimes.symm.trans hzero)
    · rintro h k chance rfl holder a hh hk rfl
      rcases hp with rfl | ⟨-, hnone⟩
      · rfl
      · exact absurd hx (hnone holder a hh hk t i call c ht hc)
  cases c
  case connecting => trivial
  case limiting | asking | listening => exact hfate List.mem_cons_self hf
  case closing => exact Astray.happened hf hw.agreeing.regular (happened_of_happen? he)

/-- Every challenge that is being made is fated: others let it be so, and its thread has begun it or
taken it further. -/
theorem Concerted.fated_happened (hw : w.Concerted s) (hvalid : s.validate = .ok s)
    (hp : w.Patient s e) (he : w.happen? e = some w') (hch : w'.Challenging t c) : w'.Fated c := by
  have hhappened := happened_of_happen? he
  have hreg := hw.agreeing.regular
  rcases hhappened.challenging_of hreg.unoccupied hch with ⟨⟨i, call, ht, hc⟩, hne⟩ |
    ⟨chance, rfl, rfl | ⟨i, call, l, c₀, r, w₁, ht, hc₀, hl, hs, hstep, hnetwork, hholders⟩⟩
  · exact hw.fated_others hvalid hp he ht hc hne
  · trivial
  · obtain rfl : chance = .plain := by
      refine Or.resolve_right hp fun hnone => ?_
      rw [hnone.2 _ _ ht] at hc₀
      cases hc₀
    obtain ⟨-, -, hfares, -⟩ := Call.of_challenge? hc₀ l.settings
    have hsettings : l.settings = s := hw.alike _ _ hl
    refine Fated.congr (w := w₁) ?_ hnetwork hholders
    exact hw.agreeing.fated_step (hsettings ▸ hvalid) (hfares _ (hw.agreeing.fares t _ ht))
      (hw.fated t i call c₀ ht hc₀) hs hstep
      fun x ha => (ha.happened hreg hhappened).congr hnetwork.symm hholders.symm

/-- Whatever happens while nobody stops waiting, the locks stay in concert. -/
theorem Concerted.happened (hw : w.Concerted s) (hvalid : s.validate = .ok s)
    (hp : w.Patient s e) (he : w.happen? e = some w') : w'.Concerted s where
  agreeing := hw.agreeing.happened (hp.cooperates hvalid hw.brisk) he
  claimed := hw.claimed.happened hw.agreeing.regular.unoccupied (happened_of_happen? he)
  alike := by
    refine hw.alike.happened (fun s' hs => ?_) (happened_of_happen? he)
    subst hs
    exact hp
  times h holder hh := by
    have hreg := hw.agreeing.regular
    have hhappened := happened_of_happen? he
    rcases (hreg.moves hhappened).holder_of hh with ⟨holder₀, hh₀, hturns⟩ | ⟨hnone, -⟩
    · exact hturns.times.trans (hw.times h holder₀ hh₀)
    · obtain ⟨ℓ, rfl⟩ := hhappened.founded hreg.unoccupied hw.alike hnone hh
      rfl
  brisk := by
    refine hw.brisk.happened hw.agreeing.regular (fun h k chance heq => ?_) he
    subst heq
    exact Or.imp_right And.left hp
  fated t i call c ht hc := hw.fated_happened hvalid hp he ⟨i, call, ht, hc⟩

end World

end LoopbackLock
