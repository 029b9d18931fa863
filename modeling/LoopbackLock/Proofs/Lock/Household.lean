import LoopbackLock.Proofs.Lock.Listening
import LoopbackLock.Proofs.Lock.Mutex
import LoopbackLock.Proofs.World.Run

/-!
# A lock among its threads

The threads of a household share one lock. They begin to acquire it and to release it in any order,
and the system replies to their calls in any way, fitting or not. Beside the lock stands the mutex
that the results of the calls tell of: an acquisition takes effect when it returns, a release when
it begins. The mutex bears all results, and the lock shows what the mutex is
(`Household.refines_mutex`).
-/

namespace LoopbackLock

/-- A lock and what its threads do with it. -/
structure Household where
  lock : PortLock
  /-- The call that each thread is in. -/
  calls : ThreadId → Option Call := fun _ => none
  listening : Listening := .closed
  /-- The mutex, as long as it can bear what the calls return. -/
  mutex : Option Mutex := some .free

/-- What can happen in a household. -/
inductive Move
  | acquires (t : ThreadId)
  | releases (t : ThreadId)
  /-- The system replies to the request of a thread's call. -/
  | replied (t : ThreadId) (reply : Reply)
  /-- A sleeper in the gate wakes without having been roused. -/
  | stirs (t : ThreadId)
  deriving DecidableEq, Repr

namespace Household

/-- A new lock. -/
def new (s : Settings) : Household := { lock := { settings := s } }

/-- Where a thread stands. -/
def put (calls : ThreadId → Option Call) (t : ThreadId) (c : Option Call) :
    ThreadId → Option Call :=
  fun t' => if t' = t then c else calls t'

/-- A thread in no call begins one. -/
def begin? (H : Household) (t : ThreadId) (c : Call) : Option Household :=
  if H.calls t = none then some { H with calls := put H.calls t (some c) } else none

/-- A call of a thread takes a reply. -/
def replied (H : Household) (t : ThreadId) (c : Call) (r : Reply) : Household where
  lock := (H.lock.step t c r).1
  calls := put H.calls t (H.lock.step t c r).2.call?
  listening := H.listening.after (c.request H.lock.settings) r
  mutex := H.mutex.bind (·.settle? t (H.lock.step t c r).2)

/-- A thread makes a step, unless it is asleep. -/
def reply? (H : Household) (t : ThreadId) (r : Reply) : Option Household :=
  match H.calls t with
  | none => none
  | some c => if H.lock.isAsleep t c then none else some (H.replied t c r)

/-- Something happens, if it can. -/
def move? (H : Household) : Move → Option Household
  | .acquires t => H.begin? t .acquire
  | .releases t =>
    (H.begin? t .release).map fun H => { H with mutex := H.mutex.map (·.release t) }
  | .replied t r => H.reply? t r
  | .stirs t => some { H with lock := { H.lock with gate := H.lock.gate.stir t } }

/-- One thing happens after the other. -/
def run? (H : Household) (moves : List Move) : Option Household := moves.foldlM move? H

/-- What each move does. -/
inductive Moved (H : Household) : Move → Household → Prop
  | acquires {t : ThreadId} (h : H.calls t = none) :
    Moved H (.acquires t) { H with calls := put H.calls t (some .acquire) }
  | releases {t : ThreadId} (h : H.calls t = none) : Moved H (.releases t)
      { H with calls := put H.calls t (some .release), mutex := H.mutex.map (·.release t) }
  | replied {t : ThreadId} {r : Reply} {c : Call} (h : H.calls t = some c) :
    Moved H (.replied t r) (H.replied t c r)
  | stirs (t : ThreadId) :
    Moved H (.stirs t) { H with lock := { H.lock with gate := H.lock.gate.stir t } }

theorem moved_of_move? {H H' : Household} {move : Move} (h : H.move? move = some H') :
    H.Moved move H' := by
  rcases move with t | t | ⟨t, r⟩ | t
  · obtain ⟨hc, heq⟩ := Option.ite_none_right_eq_some.mp h
    cases heq
    exact .acquires hc
  · obtain ⟨H₁, hbegin, rfl⟩ := Option.map_eq_some_iff.mp h
    obtain ⟨hc, heq⟩ := Option.ite_none_right_eq_some.mp hbegin
    cases heq
    exact .releases hc
  · unfold move? reply? at h
    simp only at h
    split at h
    · cases h
    · next c hc =>
      split at h
      · cases h
      · cases h
        exact .replied hc
  · cases h
    exact .stirs t

theorem run?_concat {H₀ H H' : Household} {moves : List Move} {move : Move}
    (hrun : H₀.run? moves = some H) (hmove : H.move? move = some H') :
    H₀.run? (moves ++ [move]) = some H' := by
  unfold run? at hrun ⊢
  simp [List.foldlM_append, hrun, hmove]

theorem move?_releases {H : Household} {t : ThreadId} (hc : H.calls t = none) :
    H.move? (.releases t) = some { H with
      calls := put H.calls t (some .release), mutex := H.mutex.map (·.release t) } := by
  unfold move? begin?
  simp [hc]

theorem move?_replied {H : Household} {t : ThreadId} {c : Call} (hc : H.calls t = some c)
    (hawake : H.lock.isAsleep t c = false) (r : Reply) :
    H.move? (.replied t r) = some (H.replied t c r) := by
  unfold move? reply?
  simp [hc, hawake]

/-- What every household keeps. -/
structure Kept (H : Household) (m : Mutex) : Prop where
  gated : H.lock.Gated
  stands : ∀ t, H.lock.Stands t (H.calls t)
  undropped : ∀ t, ∀ c ∈ H.calls t, c.isDrop = false
  mutex : H.mutex = some m
  mirrors : H.lock.Mirrors H.calls m
  /-- What is open is told by where the owner of the gate stands. -/
  open_owned : ∀ t, H.lock.gate.owner = some t → H.listening = H.lock.listening (H.calls t)
  closed : H.lock.gate.owner = none → H.listening = .closed

variable {H H' : Household} {m : Mutex} {t : ThreadId} {move : Move}

theorem put_same {calls : ThreadId → Option Call} {c : Option Call} : put calls t c t = c :=
  if_pos rfl

theorem put_of_ne {calls : ThreadId → Option Call} {c : Option Call} {t' : ThreadId}
    (h : t' ≠ t) : put calls t c t' = calls t' := if_neg h

theorem Kept.new (s : Settings) : (Household.new s).Kept .free where
  gated := ⟨fun _ => rfl, fun _ => rfl, fun _ h => by cases h⟩
  stands _ := fun h => by cases h
  undropped _ _ h := by cases h
  mutex := rfl
  mirrors := ⟨fun _ => ⟨rfl, fun h => by cases h⟩, fun h => by cases h⟩
  open_owned _ h := by cases h
  closed _ := rfl

/-- A call begins with what the thread has, or with one hold less. -/
theorem Kept.begun (h : H.Kept m) {c : Call} (m' : Mutex) (hc : H.calls t = none)
    (hkind : c = .acquire ∨ c = .release)
    (hbooks : H.lock.Books t (m'.tenure t) (some c))
    (hothers : ∀ t', t' ≠ t → m'.tenure t' = m.tenure t')
    (htells : ∀ {o how n}, m' = .held o how n → H.lock.state.Tells how) :
    Kept { H with calls := put H.calls t (some c), mutex := some m' } m' where
  gated := h.gated
  stands t' := by
    by_cases htt : t' = t
    · subst htt
      have hrest := h.stands t'
      rw [hc] at hrest
      show H.lock.Stands t' (put H.calls t' (some c) t')
      rw [put_same]
      rcases hkind with rfl | rfl <;> exact hrest
    · show H.lock.Stands t' (put H.calls t (some c) t')
      rw [put_of_ne htt]
      exact h.stands t'
  undropped t' c' hc' := by
    by_cases htt : t' = t
    · have hc' : c' ∈ put H.calls t (some c) t' := hc'
      rw [htt, put_same] at hc'
      cases hc'
      rcases hkind with rfl | rfl <;> rfl
    · have hc' : c' ∈ put H.calls t (some c) t' := hc'
      rw [put_of_ne htt] at hc'
      exact h.undropped t' c' hc'
  mutex := rfl
  mirrors := by
    refine ⟨fun t' => ?_, htells⟩
    show H.lock.Books t' _ (put H.calls t (some c) t')
    by_cases htt : t' = t
    · subst htt
      rwa [put_same]
    · rw [put_of_ne htt, hothers t' htt]
      exact h.mirrors.books t'
  open_owned t' ho := by
    have hopen := h.open_owned t' ho
    show H.listening = H.lock.listening (put H.calls t (some c) t')
    by_cases htt : t' = t
    · subst htt
      rw [hopen, hc, put_same]
      rcases hkind with rfl | rfl <;> rfl
    · rw [put_of_ne htt, hopen]
  closed := h.closed

/-- After a step what is open is told by where the owner of the gate stands: the gate had this owner
already, or the thread has just entered it. -/
theorem Kept.open_replied (h : H.Kept m) {c : Call} (hc : H.calls t = some c) (r : Reply)
    {t' : ThreadId} (ho : (H.replied t c r).lock.gate.owner = some t') :
    (H.replied t c r).listening = (H.replied t c r).lock.listening ((H.replied t c r).calls t') := by
  have hs : H.lock.Stands t (some c) := hc ▸ h.stands t
  have hdrop : c.isDrop = false := h.undropped t c hc
  have howner := PortLock.step_owner H.lock t c r
  have ho : (H.lock.step t c r).1.gate.owner = some t' := ho
  show H.listening.after _ r = (H.lock.step t c r).1.listening (put H.calls t _ t')
  rcases hold : H.lock.gate.owner with _ | o
  · have hnone := PortLock.request_of_foreign hs (by simp [hold]) hdrop
    obtain rfl : t' = t := by
      rcases howner with heq | heq | heq
      · cases (hold.symm.trans heq.symm).trans ho
      · exact Option.some.inj (ho.symm.trans heq)
      · cases heq.symm.trans ho
    rw [put_same, PortLock.listening_entered r hs hold hdrop ho, hnone, h.closed hold]
    rfl
  by_cases hot : o = t
  · subst hot
    obtain rfl : t' = o := by
      rcases howner with heq | heq | heq
      · exact Option.some.inj ((ho.symm.trans heq).trans hold)
      · exact Option.some.inj (ho.symm.trans heq)
      · cases heq.symm.trans ho
    rw [put_same, ← PortLock.listening_step r hs hold hdrop, h.open_owned t' hold, hc]
  · obtain ⟨asleep, hl⟩ := PortLock.step_foreign r hold hot hs
    have hnone := PortLock.request_of_foreign hs (by simp [hold, hot]) hdrop
    obtain rfl : t' = o := by
      rw [hl] at ho
      exact Option.some.inj (ho.symm.trans hold)
    rw [put_of_ne hot, hl, hnone, h.open_owned t' hold]
    rfl

/-- After a step nothing is open if nobody owns the gate: nobody did, or the thread has just left
it. -/
theorem Kept.closed_replied (h : H.Kept m) {c : Call} (hc : H.calls t = some c) (r : Reply)
    (ho : (H.replied t c r).lock.gate.owner = none) : (H.replied t c r).listening = .closed := by
  have hs : H.lock.Stands t (some c) := hc ▸ h.stands t
  have hdrop : c.isDrop = false := h.undropped t c hc
  have ho : (H.lock.step t c r).1.gate.owner = none := ho
  show H.listening.after _ r = .closed
  rcases hold : H.lock.gate.owner with _ | o
  · rw [PortLock.request_of_foreign hs (by simp [hold]) hdrop, h.closed hold]
    rfl
  by_cases hot : o = t
  · subst hot
    obtain ⟨hgated, hstands⟩ := PortLock.stands_step r h.gated hs
    rw [h.open_owned o hold, hc, PortLock.listening_step r hs hold hdrop]
    exact PortLock.listening_of_open hgated hstands ho
  · obtain ⟨asleep, hl⟩ := PortLock.step_foreign r hold hot hs
    rw [hl] at ho
    cases hold.symm.trans ho

/-- A step of a call keeps what the household keeps. -/
theorem Kept.replied (h : H.Kept m) {c : Call} (hc : H.calls t = some c) (r : Reply) :
    ∃ m', (H.replied t c r).Kept m' := by
  have hs : H.lock.Stands t (some c) := hc ▸ h.stands t
  have hdrop : c.isDrop = false := h.undropped t c hc
  have hbooks : H.lock.Books t (m.tenure t) (some c) := hc ▸ h.mirrors.books t
  obtain ⟨m', hsettle, htenure, htells⟩ := h.mirrors.settle r hc hs hdrop
  obtain ⟨hgated, hstands⟩ := PortLock.stands_step r h.gated hs
  refine ⟨m', hgated, fun t' => ?_, fun t' c' hc' => ?_, ?_, ⟨fun t' => ?_, htells⟩,
    fun _ ho => h.open_replied hc r ho, fun ho => h.closed_replied hc r ho⟩
  · show PortLock.Stands _ t' (put H.calls t _ t')
    by_cases htt : t' = t
    · rw [htt, put_same]; exact hstands
    · rw [put_of_ne htt]; exact hs.of_step r htt (h.undropped t') (h.stands t')
  · have hc' : c' ∈ put H.calls t _ t' := hc'
    by_cases htt : t' = t
    · rw [htt, put_same] at hc'
      have hisDrop := PortLock.isDrop_step H.lock t c r
      rw [Progress.call?_eq_some hc'] at hisDrop
      exact hisDrop.trans hdrop
    · rw [put_of_ne htt] at hc'
      exact h.undropped t' c' hc'
  · show H.mutex.bind _ = _
    rw [h.mutex]
    exact hsettle
  · show PortLock.Books _ t' (m'.tenure t') (put H.calls t _ t')
    rw [htenure]
    by_cases htt : t' = t
    · subst htt
      rw [put_same, if_pos rfl]
      exact hbooks.step r hs hdrop
    · rw [put_of_ne htt, if_neg htt]
      exact (h.mirrors.books t').of_step r htt hs

/-- Every move keeps what the household keeps. -/
theorem Kept.moved (h : H.Kept m) (hm : H.Moved move H') : ∃ m', H'.Kept m' := by
  rcases hm with ⟨hc⟩ | ⟨hc⟩ | ⟨hc⟩ | t
  case acquires t =>
    refine ⟨m, ?_⟩
    have hbooks := h.mirrors.books t
    rw [hc] at hbooks
    have hbegun := h.begun m hc (.inl rfl) hbooks.acquire (fun _ _ => rfl) h.mirrors.tells
    rwa [← h.mutex] at hbegun
  case releases t =>
    refine ⟨m.release t, ?_⟩
    have hbooks := h.mirrors.books t
    rw [hc] at hbooks
    have hbegun := h.begun (m.release t) hc (.inr rfl)
      (by rw [Mutex.tenure_release, if_pos rfl]; exact hbooks.release)
      (fun t' htt => by rw [Mutex.tenure_release, if_neg htt])
      fun {o how n} hheld => by
        obtain ⟨n₀, hm₀⟩ := Mutex.of_release hheld
        exact h.mirrors.tells hm₀
    rw [h.mutex]
    exact hbegun
  case replied t r c =>
    exact h.replied hc r
  case stirs =>
    refine ⟨m, ⟨h.gated.holds_of_open, h.gated.idle_of_open, h.gated.holds_pos⟩,
      fun t' => (h.stands t').of_asleep, h.undropped, h.mutex,
      ⟨fun t' => ?_, h.mirrors.tells⟩, fun t' ho => ?_, h.closed⟩
    · obtain ⟨hcounts, hbound⟩ := h.mirrors.books t'
      exact ⟨hcounts, hbound⟩
    · exact h.open_owned t' ho

theorem kept_of_run {s : Settings} {moves : List Move}
    (hrun : (Household.new s).run? moves = some H) : ∃ m, H.Kept m := by
  refine foldlM_invariant (P := fun H => ∃ m, H.Kept m) (fun H move H' _ hH hmove => ?_)
    ⟨.free, Kept.new s⟩ hrun
  obtain ⟨m, hm⟩ := hH
  exact hm.moved (moved_of_move? hmove)

/-! ## What the household shows -/

/-- A household shows what its mutex is. -/
structure Shows (H : Household) (m : Mutex) : Prop where
  /-- A thread in no call holds the gate as often as it has the mutex. -/
  holds : ∀ t, H.calls t = none → H.lock.gate.holdsOf t = m.holdsOf t
  owner : ∀ t, m.owner = some t → H.lock.gate.owner = some t
  phase : ∀ t how n, m = .held t how n → H.lock.phase = how.phase
  listening : ∀ t n, m = .held t .bound n →
    ∃ h, H.lock.state = .holding h ∧ H.listening = .serving h
  open_gate : H.lock.gate.owner = none →
    H.lock.gate.holds = 0 ∧ H.lock.phase = .idle ∧ H.listening = .closed ∧ m = .free
  /-- A thread in no call that owns the gate has the mutex. -/
  at_rest : ∀ t, H.lock.gate.owner = some t → H.calls t = none → ∃ how n, m = .held t how n

/-- A move respects the mutex. -/
structure Respects (H : Household) (m : Mutex) (move : Move) (H' : Household) : Prop where
  /-- The phase changes with a step of the owner of the gate, and only while nobody has the
  mutex. -/
  phase : H'.lock.phase ≠ H.lock.phase →
    m = .free ∧ ∃ t r, move = .replied t r ∧ H.lock.gate.owner = some t
  listening : H'.listening ≠ H.listening →
    m = .free ∧ ∃ t r, move = .replied t r ∧ H.lock.gate.owner = some t
  /-- A call of the thread that has the mutex asks nothing of the system, and changes nothing of
  the lock but its gate. -/
  again : ∀ t r c, move = .replied t r → H.calls t = some c → m.owner = some t →
    (c.request H.lock.settings).isIdle = true ∧ ∃ gate, H'.lock = { H.lock with gate }
  /-- A release of a thread that does not own the gate changes nothing, and is over at once. -/
  foreign : ∀ t r, move = .replied t r → H.calls t = some .counting →
    H.lock.gate.owner ≠ some t →
    H'.lock = H.lock ∧ H'.listening = H.listening ∧ H'.mutex = H.mutex ∧
      (r = .done → H'.calls t = none)
  /-- The listener of a holder is closed by the release that dismantles the holder. -/
  closing : ∀ h, H.listening = .serving h → H'.listening ≠ .serving h →
    ∃ t r d, move = .replied t r ∧ H.calls t = some (.dismantling h d)

/-- While a thread has the mutex its state tells what is open. -/
theorem Kept.open_of_held (h : H.Kept m) {how : Acquisition} {n : Nat} (hm : m = .held t how n) :
    H.listening = H.lock.state.listening := by
  rw [h.open_owned t (h.mirrors.owner hm)]
  rcases hc : H.calls t with _ | c
  · rfl
  · have hstage := PortLock.stage_of_depth (hc ▸ h.stands t) (hc ▸ h.mirrors.books t)
      (by simp [hm, Mutex.tenure]) (h.undropped t c hc)
    rcases hstage with rfl | rfl | rfl | ⟨rfl, -⟩ <;> rfl

theorem Kept.shows (h : H.Kept m) : H.Shows m := by
  have hdepth : ∀ t, (m.tenure t).depth = m.holdsOf t := m.depth_tenure
  constructor
  · intro t hc
    have hbooks := h.mirrors.books t
    rw [hc] at hbooks
    rw [← hdepth]
    exact hbooks.counts.symm
  · intro t ho
    rcases hm : m with _ | ⟨o, how, n⟩
    · rw [hm] at ho; cases ho
    · rw [hm] at ho
      cases ho
      exact h.mirrors.owner hm
  · exact fun t how n hm => (h.mirrors.tells hm).phase
  · intro t n hm
    have htells := h.mirrors.tells hm
    have hopen := h.open_of_held hm
    rcases hst : H.lock.state with _ | _ | _ | k | _ <;> rw [hst] at htells hopen
    case holding => exact ⟨k, rfl, hopen⟩
    all_goals exact htells.elim
  · intro ho
    refine ⟨h.gated.holds_of_open ho, ?_, h.closed ho, ?_⟩
    · rw [PortLock.phase, h.gated.idle_of_open ho]; rfl
    · rcases hm : m with _ | ⟨o, how, n⟩
      · rfl
      · cases ho.symm.trans (h.mirrors.owner hm)
  · intro t ho hc
    have hbooks := h.mirrors.books t
    rw [hc] at hbooks
    have hcounts : (m.tenure t).depth = H.lock.gate.holdsOf t := hbooks.counts
    have hpos := h.gated.holds_pos t ho
    refine Mutex.eq_held ?_
    rw [hcounts, Gate.holdsOf, if_pos ho]
    exact hpos

/-- A step that changes the phase, or what is open, is of the owner of the gate, and nobody has the
mutex. -/
theorem Kept.quiet (h : H.Kept m) {c : Call} (hc : H.calls t = some c) (r : Reply) :
    (m = .free ∧ H.lock.gate.owner = some t) ∨
      (H.lock.step t c r).1.state = H.lock.state ∧ (c.request H.lock.settings).isIdle = true := by
  have hs : H.lock.Stands t (some c) := hc ▸ h.stands t
  have hbooks : H.lock.Books t (m.tenure t) (some c) := hc ▸ h.mirrors.books t
  have hdrop := h.undropped t c hc
  by_cases ho : H.lock.gate.owner = some t
  · by_cases hd : 1 ≤ (m.tenure t).depth
    · obtain ⟨⟨gate, hl⟩, hidle⟩ := PortLock.step_of_depth r hs hbooks hd hdrop
      exact .inr ⟨by rw [hl], hidle⟩
    · exact .inl ⟨h.mirrors.free ho (by omega), ho⟩
  · refine .inr ⟨?_, by rw [PortLock.request_of_foreign hs ho hdrop]; rfl⟩
    rcases PortLock.stage_of_foreign hs ho hdrop with rfl | rfl
    · cases r
      case done =>
        show (H.lock.enter t).1.state = _
        obtain ⟨_, _, heq, -⟩ := H.lock.enter_cases t
        rw [heq]
      all_goals rfl
    · cases r <;> rfl

/-- What is open of a holder changes with its dismantling only. -/
theorem Kept.dismantling_of_closing (h : H.Kept m) {c : Call} (hc : H.calls t = some c)
    {k : HolderId} {r : Reply} (hopen : H.listening = .serving k)
    (hclosed : H.listening.after (c.request H.lock.settings) r ≠ .serving k) :
    ∃ d, c = .dismantling k d := by
  have hbusy : (c.request H.lock.settings).isIdle = false := by
    rcases hidle : (c.request H.lock.settings).isIdle with _ | _
    · rfl
    · exact absurd ((Listening.after_of_isIdle hidle r).trans hopen) hclosed
  have howner : H.lock.gate.owner = some t := by
    rcases h.quiet hc r with ⟨-, ho⟩ | ⟨-, hidle⟩
    · exact ho
    · cases hbusy.symm.trans hidle
  have htold := h.open_owned t howner
  rw [hopen, hc] at htold
  cases c
  case contending c =>
    have htold : Listening.serving k = c.listening := htold
    cases c
    case installing => cases hbusy
    all_goals cases htold
  case dismantling k' d =>
    have htold : Listening.serving k = d.listening k' := htold
    cases d <;> cases htold <;> exact ⟨_, rfl⟩
  case dropping => cases h.undropped t _ hc
  all_goals cases hbusy

theorem Kept.respects (h : H.Kept m) (hm : H.Moved move H') : H.Respects m move H' := by
  rcases hm with ⟨hc⟩ | ⟨hc⟩ | @⟨t, r, c, hc⟩ | t
  case replied =>
    have hquiet := h.quiet hc r
    have hs : H.lock.Stands t (some c) := hc ▸ h.stands t
    constructor
    · intro hphase
      rcases hquiet with ⟨hfree, ho⟩ | ⟨hstate, -⟩
      · exact ⟨hfree, t, r, rfl, ho⟩
      · exact absurd (congrArg LockState.phase hstate) hphase
    · intro hopen
      rcases hquiet with ⟨hfree, ho⟩ | ⟨-, hidle⟩
      · exact ⟨hfree, t, r, rfl, ho⟩
      · exact absurd (Listening.after_of_isIdle hidle r) hopen
    · rintro t' r' c' heq hc' ho
      cases heq
      cases hc.symm.trans hc'
      have hdepth : 1 ≤ (m.tenure t).depth := by
        rw [Mutex.depth_tenure, Mutex.holdsOf, if_pos ho]
        exact Mutex.count_pos ho
      obtain ⟨hgate, hidle⟩ := PortLock.step_of_depth r hs (hc ▸ h.mirrors.books t) hdepth
        (h.undropped t c hc)
      exact ⟨hidle, hgate⟩
    · rintro t' r' heq hc' ho
      cases heq
      cases hc.symm.trans hc'
      have hcount : H.lock.count t = .over .released := by
        unfold PortLock.count
        rw [PortLock.holdsOf_of_ne ho]
        rfl
      have hmutex : H.mutex.bind (·.settle? t (H.lock.step t .counting r).2) = H.mutex := by
        rw [h.mutex]
        cases r
        case done =>
          show m.settle? t (H.lock.count t) = _
          rw [hcount]
          rfl
        all_goals rfl
      refine ⟨by cases r <;> rfl, rfl, hmutex, ?_⟩
      rintro rfl
      show put H.calls t (H.lock.count t).call? t = none
      rw [hcount]
      exact put_same
    · intro k hopen hclosed
      obtain ⟨d, rfl⟩ := h.dismantling_of_closing hc hopen hclosed
      exact ⟨t, r, d, rfl, hc⟩
  all_goals
    exact ⟨fun hphase => absurd rfl hphase, fun hopen => absurd rfl hopen,
      fun _ _ _ heq => (nomatch heq), fun _ _ heq => (nomatch heq),
      fun _ hopen hclosed => absurd hopen hclosed⟩

/-- The lock of a household is a re-entrant mutex, whatever its threads do and however the system
replies: the mutex bears the results of all calls, the lock shows what the mutex is, and every move
respects it. -/
theorem refines_mutex {s : Settings} {moves : List Move}
    (hrun : (Household.new s).run? moves = some H) :
    ∃ m, H.mutex = some m ∧ H.Shows m ∧
      ∀ move H', H.move? move = some H' → H.Respects m move H' := by
  obtain ⟨m, hm⟩ := kept_of_run hrun
  exact ⟨m, hm.mutex, hm.shows, fun move H' hmove => hm.respects (moved_of_move? hmove)⟩

/-- A thread acquires the lock twice, and another one releases it in vain. -/
def embrace : List Move :=
  [.acquires 0, .replied 0 .done, .replied 0 .done, .replied 0 (.bound 0), .replied 0 .done,
    .replied 0 (.founded 0), .replied 0 .done, .acquires 0, .replied 0 .done, .replied 0 .done,
    .releases 1, .replied 1 .done]

theorem embrace_held_twice : ∃ H, (Household.new {}).run? embrace = some H ∧
    H.mutex = some (.held 0 .bound 1) ∧ H.Shows (.held 0 .bound 1) := by
  have hmutex : ((Household.new {}).run? embrace).map (·.mutex) =
      some (some (.held 0 .bound 1)) := by decide +kernel
  obtain ⟨H, hrun, hm⟩ := Option.map_eq_some_iff.mp hmutex
  obtain ⟨m, hm', hshows, -⟩ := refines_mutex hrun
  obtain rfl := Option.some.inj (hm'.symm.trans hm)
  exact ⟨H, hrun, hm, hshows⟩

end Household

end LoopbackLock
