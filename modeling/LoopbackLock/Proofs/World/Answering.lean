import LoopbackLock.Proofs.World.Asking

/-!
# Questions are answered

Where everybody is a lock, and nobody stops waiting for a question that was or will be asked, a
challenge is always on a connection that waits, is attended to, has been answered, or was lost when
its listener closed (`Fated`). Nothing but the last makes a challenge fail.
-/

namespace LoopbackLock

variable {s : Settings} {r : Reply} {x : LinkId} {w w' w₁ : World} {e : Event}
variable {t : ThreadId} {i : LockId} {call : Call} {c c' : Challenge}

/-! ## How challenges come about -/

theorem Vigil.challenge?_turn {y : LinkId} {turn : Turn}
    (hc : (Vigil.turn y turn).challenge? = some c') : c' = .connecting := by
  rcases turn with ⟨result, reader⟩ | ⟨reader, begun⟩
  · unfold Vigil.turn hear at hc
    dsimp only at hc
    split at hc
    case h_4 =>
      split at hc <;> cases hc
      rfl
    all_goals cases hc
  · cases hc

theorem Vigil.challenge?_step {v v' : Vigil} (h : v.step s r = .going v')
    (hc : v'.challenge? = some c') :
    c' = .connecting ∨ ∃ c, v.challenge? = some c ∧ c.step s r = .going c' := by
  cases v
  case probing c | joining c | rechecking c =>
    simp only [step] at h
    rcases hstep : c.step s r with c₁ | _ | _ <;> rw [hstep] at h <;> cases h <;> cases hc
    exact .inr ⟨c, rfl, hstep⟩
  case listening =>
    cases r
    case done => cases h; exact .inl (challenge?_turn hc)
    all_goals cases h; cases hc
  case awaiting =>
    cases r
    case heard | failed => cases h; exact .inl (challenge?_turn hc)
    all_goals cases h; cases hc
  case dismissing =>
    cases r
    case done => cases h; cases hc; exact .inl rfl
    all_goals cases h; cases hc
  all_goals cases r <;> cases h <;> cases hc

/-- A contender that is making a challenge has begun it, or goes on with it. -/
theorem Contention.challenge?_step {k k' : Contention} (h : k.step s r = .going k')
    (hc : (Call.contending k').challenge? = some c') :
    c' = .connecting ∨ ∃ c, (Call.contending k).challenge? = some c ∧ c.step s r = .going c' := by
  cases k
  case watching v =>
    simp only [step] at h
    rcases hv : v.step s r with v' | _ | outcome <;> rw [hv] at h <;> cases h
    · exact Vigil.challenge?_step hv hc
    · cases outcome
      case vanished =>
        rcases hpolicy : s.onVanished with _ | _ <;> simp [resume, hpolicy] at hc <;> cases hc
      all_goals cases hc
  case binding =>
    cases r
    case failed =>
      simp only [step] at h
      split at h <;> cases h
      cases hc
    all_goals cases h; cases hc
  case yielding =>
    cases r
    case done => cases h; cases hc; exact .inl rfl
    all_goals cases h; cases hc
  all_goals cases r <;> cases h <;> cases hc

/-- A call that is making a challenge has begun it, or goes on with it. -/
theorem PortLock.challenge?_step {l : PortLock}
    (hc : (l.step t call r).2.call?.bind Call.challenge? = some c') :
    c' = .connecting ∨
      ∃ c, call.challenge? = some c ∧ c.step l.settings r = .going c' := by
  revert hc
  fun_cases PortLock.step l t call r <;> intro hc
  case case1 =>
    obtain ⟨_, _, heq, rfl | rfl | rfl⟩ := l.enter_cases t <;> rw [heq] at hc <;> cases hc
  case case3 k =>
    simp only [PortLock.contend] at hc
    rcases hstep : k.step l.settings r with k' | _ | _ <;> rw [hstep] at hc
    · exact Contention.challenge?_step hstep hc
    all_goals cases hc
  case case6 =>
    rcases l.count_cases t with heq | heq | heq <;> rw [heq] at hc <;> cases hc
  case case7 next =>
    rcases hs : l.state with _ | _ | _ | holder | _ <;> simp only [next, hs] at hc <;> cases hc
  case case15 hcontending _ _ _ _ _ _ _ _ _ _ =>
    obtain ⟨v, rfl, -⟩ := Call.challenge?_cases hc
    exact (hcontending _ rfl).elim
  all_goals cases hc

/-- The question goes out while the other end is there. -/
theorem Link.Awaits.ask {l : Link} (ha : l.Awaits false) (hs : l.Sound) :
    ∃ l', l.write .caller Challenge.question = .ok l' ∧ l'.Awaits true := by
  have hopen : l.callee.handles ≠ 0 := by
    intro hclosed
    rcases hs.woken hclosed with h | h
    · rw [ha.ended] at h
      cases h
    · rw [ha.reset] at h
      cases h
  have hwrite : l.write .caller Challenge.question = .ok
      ((l.modify .caller fun e => { e with said := e.said ++ Challenge.question }).modify .callee
        fun e => { e with inbox := e.inbox ++ Challenge.question }) := by
    unfold Link.write
    rw [if_neg (by simp [Link.atSide, ha.finished, ha.reset])]
    exact if_neg fun hclosed => hopen (of_decide_eq_true hclosed)
  refine ⟨_, hwrite, ?_, ha.ended, ha.reset, ha.finished⟩
  show l.callee.inbox ++ Challenge.question = Challenge.question
  rw [show l.callee.inbox = [] from ha.arrived]
  rfl

namespace Network

variable {n n' : Network} {read : Bytes} {l : Link}

/-- Where nothing was said and nobody has hung up there is nothing to hear. -/
theorem hear?_silent (hl : n.links[x]? = some l) (hd : n.Delivered x read) (hsaid : n.said x = [])
    (hended : l.caller.ended = false) (hreset : l.caller.reset = false) :
    n.hear? x .caller .plain = none := by
  obtain ⟨l', hl', heq⟩ := hd
  obtain rfl := Option.some.inj (hl.symm.trans hl')
  have hsaid : l.callee.said = [] := by
    unfold Network.said at hsaid
    rwa [view_some hl] at hsaid
  rw [hsaid] at heq
  exact hear?_empty hl (List.append_eq_nil_iff.mp heq).2 hended hreset

end Network

namespace Challenge

variable {n n' : Network} {reader : LineReader} {begun : Bool}

/-- A challenger that has read something goes on reading, or closes the connection. -/
theorem turn_going {turn : Turn} (h : Challenge.turn s x turn = .going c') :
    (∃ reader begun, c' = listening x reader begun) ∨ ∃ why, c' = closing x why := by
  rcases turn with ⟨result, reader⟩ | ⟨reader, begun⟩
  · unfold Challenge.turn judge at h
    dsimp only at h
    split at h
    case h_1 => cases h
    case h_5 => split at h <;> cases h <;> exact .inr ⟨_, rfl⟩
    all_goals cases h; exact .inr ⟨_, rfl⟩
  · cases h
    exact .inl ⟨_, _, rfl⟩

/-- Once the answer was given, there is something to hear until all of it was heard. -/
theorem Fares.inbox (hf : (listening x reader begun).Fares n)
    (hanswer : Attendance.answer <+: n.said x) :
    ∃ l, n.links[x]? = some l ∧ reader.pending ++ l.caller.inbox = l.callee.said ∧
      l.caller.inbox ≠ [] := by
  obtain ⟨-, hnone, -, l, hl, heq⟩ := hf
  have hsaid : n.said x = l.callee.said := Network.view_some hl
  have hfeed : lineFeed ∈ l.callee.said :=
    hsaid ▸ hanswer.subset (by rw [Attendance.answer_eq]; simp)
  refine ⟨l, hl, heq, fun hempty => ?_⟩
  rw [hempty, List.append_nil] at heq
  exact hnone (heq ▸ hfeed)

/-- Once the answer was given, a challenger hears a part of it or all of it. -/
theorem Fares.hears (hf : (listening x reader begun).Fares n) (hcandid : n.Candid)
    (hanswer : Attendance.answer <+: n.said x)
    (hh : n.hear? x .caller .plain = some (r, n'))
    (hstep : (listening x reader begun).step s r = .going c') :
    ∃ reader begun, c' = listening x reader begun := by
  obtain ⟨l, hl, heq, hinbox⟩ := hf.inbox hanswer
  obtain ⟨buffered, pending⟩ := reader
  obtain ⟨rfl, hnone, -, -⟩ := hf
  have hheard : n.hear? x .caller .plain = some (.heard (l.caller.inbox.take readLimit),
      n.modifyLink x (·.take .caller (l.caller.inbox.take readLimit).length)) :=
    Network.hear?_inbox hl hinbox
  rw [hheard] at hh
  cases hh
  have hne : l.caller.inbox.take readLimit ≠ [] := by
    simpa [readLimit] using hinbox
  have hread : pending ++ l.caller.inbox.take readLimit <+: script := by
    have hdelivered := (Network.delivered_hear? hheard ⟨l, hl, heq⟩).1.said
    rw [(Network.like_hear? hheard).said] at hdelivered
    exact hdelivered.trans (hcandid.said x)
  have hfirst : Attendance.answerBody ++ [lineFeed] <+: script :=
    Attendance.answer_eq ▸ List.prefix_append ..
  have hstep : turn s x (LineReader.supply ⟨[], pending⟩ begun
      (.ok (l.caller.inbox.take readLimit))) = .going c' := hstep
  rcases LineReader.supply_piece begun hfirst Attendance.lineFeed_not_mem_answerBody hnone hread hne
    with ⟨-, hstarved⟩ | ⟨next, hdone⟩
  · rw [hstarved] at hstep
    cases hstep
    exact ⟨_, _, rfl⟩
  · rw [hdone, ← Attendance.answer_eq, Heard.ofLine_answer] at hstep
    cases hstep

end Challenge

namespace World

/-- What can become of a challenge. -/
def Fated (w : World) : Challenge → Prop
  | .connecting => True
  | .limiting x | .asking x => w.Fate x false
  | .listening x _ _ => w.Fate x true
  | .closing x _ => w.Astray x

theorem Fated.congr (hf : w.Fated c) (hn : w'.network = w.network) (hh : w'.holders = w.holders) :
    w'.Fated c := by
  cases c
  case connecting => trivial
  case closing => exact Astray.congr hf hn hh
  all_goals exact Fate.congr hf hn hh

/-- Whoever goes on on a lost connection is still on it. -/
theorem Astray.fated (ha : w.Astray x) (hx : x ∈ c.links) (hstep : c.step s r = .going c') :
    w.Fated c' := by
  have hturn : ∀ {turn : Turn}, Challenge.turn s x turn = .going c' → w.Fated c' := by
    intro turn hstep
    rcases Challenge.turn_going hstep with ⟨reader, begun, rfl⟩ | ⟨why, rfl⟩
    · exact .astray ha
    · exact ha
  cases c
  case connecting => cases hx
  all_goals obtain rfl := List.mem_singleton.mp hx
  case limiting => cases r <;> cases hstep <;> first | exact .astray ha | exact ha
  case asking => cases r <;> cases hstep <;> first | exact .astray ha | exact ha
  case listening =>
    cases r
    case heard | failed => exact hturn hstep
    all_goals cases hstep; exact .astray ha
  case closing => cases r <;> cases hstep <;> exact ha

/-- A new connection waits at an open listener. -/
theorem fated_connecting (hs : w.serve? s .plain (Challenge.connecting.request s) = some (r, w₁))
    (hstep : Challenge.connecting.step s r = .going c') : w₁.Fated c' := by
  have hs : w.connect s.endpoint s.challengeTimeout .plain = (r, w₁) := Option.some.inj hs
  have hover : ∀ {f : Fault}, r ≠ .failed f := by
    rintro f rfl
    simp only [Challenge.step] at hstep
    split at hstep <;> cases hstep
  unfold World.connect at hs
  simp only at hs
  split at hs
  · split at hs
    · cases hs; exact (hover rfl).elim
    · next x n hconnect hzero =>
      cases hs
      cases hstep
      obtain ⟨ℓ, hx, hℓ⟩ := Network.queued_connect hconnect
      obtain ⟨rfl, -, k, -, rfl⟩ := Network.connect_eq_ok hconnect
      exact .queued hx hℓ List.getElem?_concat_length ⟨rfl, rfl, rfl, rfl⟩
  · cases hs; exact (hover rfl).elim

/-- The question arrives where the connection is. -/
theorem Agreeing.fated_asking (hw : w.Agreeing) (hf : w.Fate x false)
    (hs : w.serve? s .plain ((Challenge.asking x).request s) = some (r, w₁))
    (hstep : (Challenge.asking x).step s r = .going c') (hastray : w.Astray x → w₁.Astray x) :
    w₁.Fated c' := by
  have hsend : w.send x .check .plain = (r, w₁) := Option.some.inj hs
  have hask : ∀ {l : Link}, w.network.links[x]? = some l → l.Awaits false →
      ∃ l', l'.Awaits true ∧ c' = .listening x {} false ∧
        w₁ = { w with network := w.network.modifyLink x fun _ => l' } ∧
        w₁.network.links[x]? = some l' := by
    intro l hl ha
    obtain ⟨l', hwrite, ha'⟩ := ha.ask (hw.regular.sound l (List.mem_of_getElem? hl))
    have hn : w.network.write x .caller (Text.encode Message.check.line) =
        .ok (w.network.modifyLink x fun _ => l') := by
      unfold Network.write
      rw [hl]
      show Except.map _ (l.write .caller Challenge.question) = _
      rw [hwrite]
      rfl
    unfold World.send at hsend
    simp only [hn] at hsend
    cases hsend
    cases hstep
    exact ⟨l', ha', rfl, rfl, Network.getElem?_modifyLink_self hl _⟩
  rcases hf with ⟨hx, hℓ, hl, ha⟩ | ⟨hh, hk, rfl, hstage, hl, ha⟩ | _ | _ | ha
  case queued =>
    obtain ⟨l', ha', rfl, rfl, hl'⟩ := hask hl ha
    exact .queued hx hℓ hl' ha'
  case attended =>
    obtain ⟨l', ha', rfl, rfl, hl'⟩ := hask hl ha
    exact .attended hh hk rfl hstage hl' ha'
  case astray => exact (hastray ha).fated List.mem_cons_self hstep

/-- A challenger hears nothing before the answer was given. -/
theorem Agreeing.fated_listening {reader : LineReader} {begun : Bool} (hw : w.Agreeing)
    (hfares : (Challenge.listening x reader begun).Fares w.network) (hf : w.Fate x true)
    (hs : w.serve? s .plain ((Challenge.listening x reader begun).request s) = some (r, w₁))
    (hstep : (Challenge.listening x reader begun).step s r = .going c')
    (hastray : w.Astray x → w₁.Astray x) : w₁.Fated c' := by
  obtain ⟨⟨r', n⟩, hh, heq⟩ := Option.map_eq_some_iff.mp hs
  cases heq
  have hwaits : ∀ {l : Link} {P : Place} {p : Pen}, w.network.links[x]? = some l →
      w.estate.Has P x p → p = .fresh ∨ p = .answering Attendance.answer →
      l.caller.ended = false → l.caller.reset = false → False := by
    intro l P p hl hp hpen hended hreset
    have hfits := hw.regular.answered hp
    have hsaid : w.network.said x = [] := by
      rcases hpen with rfl | rfl
      · exact hfits.1
      · exact List.self_eq_append_left.mp hfits.1.symm
    rw [Network.hear?_silent hl hfares.2.2.2 hsaid hended hreset] at hh
    cases hh
  rcases hf with ⟨hx, hℓ, hl, ha⟩ | ⟨hh', hk, rfl, hstage, hl, ha⟩ |
    ⟨hh', hk, rfl, hstage, hl, hended, hreset⟩ | hanswer | ha
  case queued =>
    have hp : w.estate.Has .queue x .fresh := .waiting (Network.waiting_pos_of_backlog hx)
    exact (hwaits hl hp (.inl rfl) ha.ended ha.reset).elim
  case attended a _ =>
    have hpen : a.stage.pen? = some .fresh := by rcases hstage with h | h <;> rw [h] <;> rfl
    exact (hwaits hl (.holder hh' (.attendant hk hpen)) (.inl rfl) ha.ended ha.reset).elim
  case answering a _ =>
    have hpen : a.stage.pen? = some (.answering Attendance.answer) := by rw [hstage]; rfl
    exact (hwaits hl (.holder hh' (.attendant hk hpen)) (.inr rfl) hended hreset).elim
  case answered =>
    obtain ⟨reader', begun', rfl⟩ := hfares.hears (hw.regular.candid hw.whole) hanswer hh hstep
    refine .answered ?_
    show _ <+: n.said x
    rw [(Network.like_hear? hh).said]
    exact hanswer
  case astray => exact (hastray ha).fated List.mem_cons_self hstep

/-- A challenge goes on as it is fated to. -/
theorem Agreeing.fated_step (hw : w.Agreeing) (hvalid : s.validate = .ok s)
    (hfares : c.Fares w.network) (hf : w.Fated c)
    (hs : w.serve? s .plain (c.request s) = some (r, w₁)) (hstep : c.step s r = .going c')
    (hastray : ∀ x, w.Astray x → w₁.Astray x) : w₁.Fated c' := by
  cases c
  case connecting => exact fated_connecting hs hstep
  case limiting x =>
    have hsuits : (Challenge.limiting x).Suits r := Challenge.suits hs rfl hvalid
    have hs : w.limit s.challengeTimeout .plain = (r, w₁) := Option.some.inj hs
    unfold World.limit at hs
    simp only at hs
    split at hs
    · cases hs; exact hsuits.elim
    · cases hs; cases hstep; exact hf
  case asking x => exact hw.fated_asking hf hs hstep (hastray x)
  case listening x reader begun => exact hw.fated_listening hfares hf hs hstep (hastray x)
  case closing =>
    cases hs
    cases hstep

end World

end LoopbackLock
