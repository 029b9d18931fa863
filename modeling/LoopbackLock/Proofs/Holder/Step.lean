import LoopbackLock.Holder.Basic

/-!
# What a holder's workers do

`Polled` says what a step of the accepting worker does, `Attended` what a step of an attendant does,
one case for each thing that can happen.
-/

namespace LoopbackLock

namespace Holder

/-- Leaving a holder to nobody empties its registry at most. -/
theorem settle_eq (h : Holder) (n : Network) :
    ∃ registry, (h.settle n).1 = { h with registry } := by
  unfold Holder.settle
  split <;> exact ⟨_, rfl⟩

@[simp] theorem settle_listener (h : Holder) (n : Network) :
    (h.settle n).1.listener = h.listener := by
  obtain ⟨_, he⟩ := h.settle_eq n; rw [he]

@[simp] theorem settle_stopping (h : Holder) (n : Network) :
    (h.settle n).1.stopping = h.stopping := by
  obtain ⟨_, he⟩ := h.settle_eq n; rw [he]

@[simp] theorem settle_worker (h : Holder) (n : Network) :
    (h.settle n).1.worker = h.worker := by
  obtain ⟨_, he⟩ := h.settle_eq n; rw [he]

/-- A step of the accepting worker. -/
inductive Polled (h : Holder) (n : Network) : Holder → Network → Prop
  | stopped (hw : h.worker = .checking) (hs : h.stopping = true) :
    Polled h n (({ h with worker := .gone } : Holder).settle (n.unbind h.listener)).1
      (({ h with worker := .gone } : Holder).settle (n.unbind h.listener)).2
  | turned {worker : Worker} (hw : h.worker ≠ .gone) (hworker : worker ≠ .gone) :
    Polled h n { h with worker } n
  | attached {x : LinkId} {n' : Network} (hw : h.worker = .accepting)
      (hx : n.accept? h.listener = some (x, n')) : Polled h n (h.attach n' x) n'

theorem polled_of_poll? {h : Holder} {n : Network} {chance : Chance} {next : Holder × Network}
    (hp : h.poll? n chance = some next) : h.Polled n next.1 next.2 := by
  unfold Holder.poll? at hp
  split at hp
  case h_1 hw =>
    split at hp
    · next hs =>
      cases hp
      exact .stopped hw hs
    · cases hp; exact .turned (by simp [hw]) (by simp)
  case h_2 f hw =>
    cases hp
    exact .turned (by simp [hw]) (by split <;> simp)
  case h_3 hw _ =>
    split at hp
    · next hx => cases hp; exact .attached hw hx
    · cases hp; exact .turned (by simp [hw]) (by simp)
  case h_4 hw => cases hp; exact .turned (by simp [hw]) (by simp)
  case h_5 | h_6 => cases hp

/-- A step of the attendant `a`, the holder's number `k`. -/
inductive Attended (h : Holder) (n : Network) (k : Nat) (a : Attendant) (chance : Chance) :
    Holder → Network → Prop
  | refused (hs : a.stage = .preparing) : Attended h n k a chance (h.move k (.parting 1)) n
  | prepared (hs : a.stage = .preparing) :
    Attended h n k a chance (h.move k (.reading {} false)) (n.modifyLink a.link (·.share .callee))
  | heard {reader : LineReader} {begun : Bool} {bytes : Bytes} {n' : Network}
      (hs : a.stage = .reading reader begun)
      (hh : n.hear? a.link .callee chance = some (.heard bytes, n')) :
    Attended h n k a chance (h.move k (.turn (reader.supply begun (.ok bytes)))) n'
  | missed {reader : LineReader} {begun : Bool} {f : Fault} {n' : Network}
      (hs : a.stage = .reading reader begun)
      (hh : n.hear? a.link .callee chance = some (.failed f, n')) :
    Attended h n k a chance (h.move k (.turn (reader.supply begun (.error f.kind)))) n'
  | answered {rest : Bytes} {reply : Reply} {n' : Network}
      (hs : a.stage = .answering rest) (hw : n.say a.link .callee rest chance = (reply, n')) :
    Attended h n k a chance (h.move k (.written rest reply)) n'
  | queued (hs : a.stage = .queuing) (hr : h.registrar = none) :
    Attended h n k a chance (({ h with registrar := some k } : Holder).move k .deciding) n
  | dismissed (hs : a.stage = .deciding) (hstop : h.stopping = true) :
    Attended h n k a chance (({ h with registrar := none } : Holder).move k (.parting 2)) n
  | welcomed (hs : a.stage = .deciding) (hstop : h.stopping = false) :
    Attended h n k a chance (h.move k .admitting) n
  | admitted (hs : a.stage = .admitting) :
    Attended h n k a chance ((h.enroll n a chance).1.move k (.parting 1))
      (h.enroll n a chance).2
  | parted {handles : Nat} (hs : a.stage = .parting handles) :
    Attended h n k a chance
      ((h.move k .gone).settle (n.releaseAll (List.replicate handles a.link))).1
      ((h.move k .gone).settle (n.releaseAll (List.replicate handles a.link))).2

/-- An attendant that is to file its connection does so, whatever chance makes of it. -/
theorem attend?_admitting {h : Holder} {k : Nat} {a : Attendant}
    (hk : h.attendants[k]? = some a) (hs : a.stage = .admitting) (n : Network) (chance : Chance) :
    h.attend? n k chance =
      some ((h.enroll n a chance).1.move k (.parting 1), (h.enroll n a chance).2) := by
  simp [attend?, hk, hs]

theorem attended_of_attend? {h : Holder} {n : Network} {k : Nat} {chance : Chance}
    {next : Holder × Network} (ha : h.attend? n k chance = some next) :
    ∃ a, h.attendants[k]? = some a ∧ h.Attended n k a chance next.1 next.2 := by
  unfold Holder.attend? at ha
  obtain ⟨a, hk, ha⟩ := Option.bind_eq_some_iff.mp ha
  refine ⟨a, hk, ?_⟩
  split at ha
  case h_1 hs =>
    split at ha
    · cases ha
    · next hr => cases ha; exact .queued hs (by simpa using hr)
  case h_2 hs =>
    split at ha
    · next hstop => cases ha; exact .dismissed hs hstop
    · next hstop => cases ha; exact .welcomed hs (by simpa using hstop)
  case h_3 hs => cases ha; exact .admitted hs
  case h_4 hs => cases ha; exact .parted hs
  case h_5 hs => cases ha
  case h_6 =>
    obtain ⟨⟨stage, n₁⟩, hserve, ha⟩ := Option.bind_eq_some_iff.mp ha
    cases ha
    unfold Attendant.serve? at hserve
    split at hserve
    · next hs =>
      have hprep := Option.some.inj hserve
      unfold Attendant.prepare at hprep
      split at hprep
      · cases hprep; exact .refused hs
      · split at hprep
        · cases hprep; exact .refused hs
        · cases hprep; exact .prepared hs
    · next reader begun hs =>
      obtain ⟨⟨reply, n₂⟩, hh, hserve⟩ := Option.bind_eq_some_iff.mp hserve
      split at hserve
      · next hr => cases hr; cases hserve; exact .heard hs hh
      · next hr => cases hr; cases hserve; exact .missed hs hh
      · cases hserve
    · next rest hs =>
      cases hserve
      exact .answered hs rfl
    · cases hserve

end Holder

end LoopbackLock
