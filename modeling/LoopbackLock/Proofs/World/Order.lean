import LoopbackLock.Proofs.World.Run
import LoopbackLock.Proofs.World.Step

/-!
# Calls in order

In every world that comes about, each call stands on its lock (`PortLock.Stands`), calls are made on
locks that are there, and a lock that is being dropped has no other call on it. `Orderly` says so,
and every event keeps it.
-/

namespace LoopbackLock.World

variable {w w' : World} {t : ThreadId} {i : LockId} {e : Event}

/-- The lock is being dropped. -/
def IsRetiring (w : World) (i : LockId) : Prop :=
  ∃ t call, w.callOn i t = some call ∧ call.isDrop = true

/-- The calls of a world fit its locks. -/
structure Orderly (w : World) : Prop where
  gated : ∀ {i l}, w.lock? i = some l → l.Gated
  stands : ∀ {i l}, w.lock? i = some l → ∀ t, l.Stands t (w.callOn i t)
  /-- A lock that is being dropped has one call on it. -/
  alone : ∀ {i t call}, w.callOn i t = some call → call.isDrop = true →
    ∀ t', t' ≠ t → w.callOn i t' = none
  /-- Calls are made on locks that are there. -/
  present : ∀ {i t call}, w.callOn i t = some call → ∃ l, w.lock? i = some l

theorem callOn_congr (h : w'.threads = w.threads) : w'.callOn = w.callOn := by
  funext i t; unfold callOn; rw [h]

theorem lock?_congr (h : w'.locks = w.locks) : w'.lock? = w.lock? := by
  funext i; unfold World.lock?; rw [h]

theorem Orderly.blank (terrain : Terrain) : (World.blank terrain).Orderly where
  gated hl := by cases hl
  stands hl := by cases hl
  alone hc := by cases hc
  present hc := by cases hc

theorem Orderly.congr (h : w.Orderly) (hl : w'.locks = w.locks) (ht : w'.threads = w.threads) :
    w'.Orderly := by
  obtain ⟨h1, h2, h3, h4⟩ := h
  constructor
  · rw [lock?_congr hl]; exact h1
  · rw [lock?_congr hl, callOn_congr ht]; exact h2
  · rw [callOn_congr ht]; exact h3
  · rw [lock?_congr hl, callOn_congr ht]; exact h4

/-- Of two threads in calls on one lock neither drops it. -/
theorem Orderly.not_isDrop (h : w.Orderly) {t' : ThreadId} {c c' : Call}
    (hc : w.callOn i t = some c) (hc' : w.callOn i t' = some c') (hne : t' ≠ t) :
    c'.isDrop = false := by
  rcases hd : c'.isDrop with _ | _
  · rfl
  · have := h.alone hc' hd t (Ne.symm hne)
    simp [this] at hc

/-- A lock with a call on it that does not drop it is not being dropped. -/
theorem Orderly.not_isRetiring (h : w.Orderly) {c : Call} (hc : w.callOn i t = some c)
    (hkeeps : c.isDrop = false) : ¬w.IsRetiring i := by
  rintro ⟨t', c', hc', hdrop⟩
  by_cases htt : t' = t
  · subst htt
    cases hc.symm.trans hc'
    cases hkeeps.symm.trans hdrop
  · cases (h.not_isDrop hc hc' htt).symm.trans hdrop

/-- A thread's other locks have no call of it. -/
theorem callOn_of_busy {c : Call} {j : LockId} (hc : w.callOn i t = some c) (hj : j ≠ i) :
    w.callOn j t = none := by
  unfold callOn
  rw [callOn_eq_some.mp hc]
  exact if_neg (Ne.symm hj)

/-- A step of a thread on its lock keeps the order. -/
theorem Orderly.settle {c : Call} {l : PortLock} {r : Reply} (h : w.Orderly)
    (ht : w.threads[t]? = some (.busy i c)) (hl : w.lock? i = some l) :
    (w.settle t i (l.step t c r).1 (l.step t c r).2).Orderly := by
  have hc : w.callOn i t = some c := callOn_eq_some.mpr ht
  have hstands : l.Stands t (some c) := hc ▸ h.stands hl t
  obtain ⟨hg', hs'⟩ := PortLock.stands_step r (h.gated hl) hstands
  have hdrop := PortLock.isDrop_step l t c r
  have hothers : ∀ t', t' ≠ t → (l.step t c r).1.Stands t' (w.callOn i t') := fun t' htt =>
    hstands.of_step r htt (fun _ hc' => h.not_isDrop hc hc' htt) (h.stands hl t')
  have hcall := callOn_settle ht (l.step t c r).1 (l.step t c r).2
  have hlock := lock?_settle hl t (l.step t c r).1 (l.step t c r).2
  generalize l.step t c r = next at *
  obtain ⟨l', p⟩ := next
  constructor
  · intro j l₁ hj
    rw [hlock] at hj
    split at hj
    · rw [Progress.slot_eq_some hj]; exact hg'
    · exact h.gated hj
  · intro j l₁ hj t'
    rw [hlock] at hj
    rw [hcall]
    by_cases hji : j = i
    · rw [if_pos hji] at hj
      rw [Progress.slot_eq_some hj]
      by_cases htt : t' = t
      · rw [if_pos htt, if_pos hji.symm, htt]; exact hs'
      · rw [if_neg htt, hji]; exact hothers t' htt
    · rw [if_neg hji] at hj
      by_cases htt : t' = t
      · rw [if_pos htt, if_neg (Ne.symm hji), htt, ← callOn_of_busy hc hji]
        exact h.stands hj t
      · rw [if_neg htt]; exact h.stands hj t'
  · intro j t' call hj hd t'' hne
    rw [hcall] at hj ⊢
    by_cases htt : t' = t
    · rw [if_pos htt] at hj
      split at hj
      · next hij =>
        rw [htt] at hne
        rw [if_neg hne, ← hij]
        refine h.alone hc ?_ t'' hne
        rw [← hdrop, Progress.call?_eq_some hj]
        exact hd
      · cases hj
    · rw [if_neg htt] at hj
      have hrest := h.alone hj hd
      by_cases htt' : t'' = t
      · rw [if_pos htt']
        refine if_neg fun hij => ?_
        have := hrest t (Ne.symm htt)
        rw [← hij, hc] at this
        cases this
      · rw [if_neg htt']; exact hrest t'' hne
  · intro j t' call hj
    rw [hcall] at hj
    rw [hlock]
    by_cases htt : t' = t
    · rw [if_pos htt] at hj
      split at hj
      · next hij => rw [if_pos hij.symm, Progress.call?_eq_some hj]; exact ⟨l', rfl⟩
      · cases hj
    · rw [if_neg htt] at hj
      by_cases hji : j = i
      · rw [if_pos hji]
        refine Progress.slot_of_not_isDrop ?_
        rw [hdrop]
        exact h.not_isDrop (hji ▸ hj) hc (Ne.symm htt)
      · rw [if_neg hji]; exact h.present hj

/-- A lock that is being dropped is so until it is gone. -/
theorem IsRetiring.settle {c : Call} {l : PortLock} {r : Reply} {j : LockId}
    (h : w.IsRetiring j) (ht : w.threads[t]? = some (.busy i c)) (hl : w.lock? i = some l) :
    (w.settle t i (l.step t c r).1 (l.step t c r).2).IsRetiring j ∨
      (w.settle t i (l.step t c r).1 (l.step t c r).2).lock? j = none := by
  obtain ⟨t', c', hc', hd⟩ := h
  have hdrop := PortLock.isDrop_step l t c r
  have hcall := callOn_settle ht (l.step t c r).1 (l.step t c r).2
  have hlock := lock?_settle hl t (l.step t c r).1 (l.step t c r).2
  by_cases htt : t' = t
  · have hbusy := (callOn_eq_some.mp (htt ▸ hc')).symm.trans ht
    obtain ⟨rfl, rfl⟩ := Activity.busy.inj (Option.some.inj hbusy)
    rw [hd] at hdrop
    rcases hp : (l.step t c' r).2 with c'' | ending
    · rw [hp] at hdrop hcall
      exact .inl ⟨t, c'', by rw [hcall, if_pos rfl, if_pos rfl]; rfl, hdrop⟩
    · rw [hp] at hdrop hlock
      cases ending
      case dropped => exact .inr (by rw [hlock, if_pos rfl]; rfl)
      all_goals cases hdrop
  · exact .inl ⟨t', c', by rw [hcall, if_neg htt]; exact hc', hd⟩

/-- A lock that is there after a step and not being dropped was not being dropped before. -/
theorem not_isRetiring_of_settle {c : Call} {l l' : PortLock} {r : Reply} {j : LockId}
    (ht : w.threads[t]? = some (.busy i c)) (hl : w.lock? i = some l)
    (hl' : (w.settle t i (l.step t c r).1 (l.step t c r).2).lock? j = some l')
    (hret : ¬(w.settle t i (l.step t c r).1 (l.step t c r).2).IsRetiring j) :
    ¬w.IsRetiring j := by
  intro hr
  rcases hr.settle (r := r) ht hl with hr | hr
  · exact hret hr
  · cases hr.symm.trans hl'

/-- A lock that is gone or being dropped after a step was so before. -/
theorem leaving_of_settle {c : Call} {l : PortLock} {r : Reply} {j : LockId}
    (ht : w.threads[t]? = some (.busy i c)) (hl : w.lock? i = some l)
    (hj : (w.settle t i (l.step t c r).1 (l.step t c r).2).lock? j = none ∨
      (w.settle t i (l.step t c r).1 (l.step t c r).2).IsRetiring j) :
    w.lock? j = none ∨ w.IsRetiring j := by
  have hdropping : (l.step t c r).2.isDrop = true → w.IsRetiring i := fun hd =>
    ⟨t, c, callOn_eq_some.mpr ht, PortLock.isDrop_step l t c r ▸ hd⟩
  rcases hj with hj | ⟨t', c', hc', hd⟩
  · rw [lock?_settle hl] at hj
    by_cases hji : j = i
    · rw [if_pos hji] at hj
      rcases hd : (l.step t c r).2.isDrop with _ | _
      · obtain ⟨l₁, hl₁⟩ := Progress.slot_of_not_isDrop (l := (l.step t c r).1) hd
        cases hl₁.symm.trans hj
      · exact .inr (hji ▸ hdropping hd)
    · exact .inl (by rwa [if_neg hji] at hj)
  · rw [callOn_settle ht] at hc'
    by_cases htt : t' = t
    · rw [if_pos htt] at hc'
      split at hc'
      · next hij =>
        have hp := Progress.call?_eq_some hc'
        exact .inr (hij ▸ hdropping (by rw [hp]; exact hd))
      · cases hc'
    · rw [if_neg htt] at hc'
      exact .inr ⟨t', c', hc', hd⟩

theorem IsRetiring.begun {last : Option Ending} {j : LockId} (h : w.IsRetiring j)
    (ht : w.threads[t]? = some (.free last)) (a : Activity) :
    ({ w with threads := w.threads.set t a } : World).IsRetiring j := by
  obtain ⟨t', c, hc, hd⟩ := h
  have htt : t' ≠ t := by
    rintro rfl
    cases (callOn_eq_some.mp hc).symm.trans ht
  refine ⟨t', c, ?_, hd⟩
  rw [callOn_set ht, if_neg htt]
  exact hc

theorem isRetiring_of_begun (kind : CallKind) {last : Option Ending} {j : LockId}
    (ht : w.threads[t]? = some (.free last))
    (h : ({ w with threads := w.threads.set t (.busy i kind.call) } : World).IsRetiring j) :
    w.IsRetiring j ∨ j = i ∧ kind = .drop := by
  obtain ⟨t', c, hc, hd⟩ := h
  rw [callOn_set ht] at hc
  split at hc
  · simp only at hc
    split at hc
    · next hij => cases hc; cases kind <;> first | exact .inr ⟨hij.symm, rfl⟩ | cases hd
    · cases hc
  · exact .inl ⟨t', c, hc, hd⟩

/-- A call that begins keeps the order. -/
theorem Orderly.begun {kind : CallKind} {last : Option Ending} {l : PortLock} (h : w.Orderly)
    (hl : w.lock? i = some l) (ht : w.threads[t]? = some (.free last))
    (hfree : ∀ t' call, w.callOn i t' = some call → kind ≠ .drop ∧ call.isDrop = false) :
    ({ w with threads := w.threads.set t (.busy i kind.call) } : World).Orderly := by
  have hnone : ∀ j, w.callOn j t = none := fun j => by unfold callOn; rw [ht]
  have hcall := callOn_set ht (.busy i kind.call)
  constructor
  · exact h.gated
  · intro j l₁ hj t'
    rw [hcall]
    by_cases htt : t' = t
    · have hrest : l₁.Stands t none := hnone j ▸ h.stands hj t
      rw [if_pos htt, htt]
      show l₁.Stands t (if i = j then some kind.call else none)
      by_cases hij : i = j
      · rw [if_pos hij]; cases kind <;> exact hrest
      · rw [if_neg hij]; exact hrest
    · rw [if_neg htt]; exact h.stands hj t'
  · intro j t' call hj hd t'' hne
    rw [hcall] at hj ⊢
    by_cases htt : t' = t
    · rw [if_pos htt] at hj
      rw [htt] at hne
      rw [if_neg hne]
      rcases hij : w.callOn j t'' with _ | call'
      · rfl
      · simp only at hj
        split at hj
        · next heq =>
          cases hj
          have := (hfree t'' call' (heq ▸ hij)).1
          cases kind <;> simp_all [CallKind.call, Call.isDrop, Call.acquire, Call.release]
        · cases hj
    · rw [if_neg htt] at hj
      split
      · simp only
        refine if_neg fun hij => ?_
        have := (hfree t' call (hij ▸ hj)).2
        simp [this] at hd
      · exact h.alone hj hd t'' hne
  · intro j t' call hj
    rw [hcall] at hj
    split at hj
    · simp only at hj
      split at hj
      · next hij => exact ⟨l, hij ▸ hl⟩
      · cases hj
    · exact h.present hj

theorem lock?_lockMade {s : Settings} {l : PortLock} {j : LockId}
    (hj : ({ w with locks := w.locks ++ [some { settings := s }] } : World).lock? j = some l) :
    w.lock? j = some l ∨ w.lock? j = none ∧ l = { settings := s } := by
  unfold World.lock? at hj ⊢
  rw [getElem?_concat] at hj
  split at hj
  · next heq => exact .inr ⟨by simp [heq], (Option.some.inj hj).symm⟩
  · exact .inl hj

/-- A new lock keeps the order. -/
theorem Orderly.lockMade (h : w.Orderly) (s : Settings) :
    ({ w with locks := w.locks ++ [some { settings := s }] } : World).Orderly := by
  constructor
  · intro j l hj
    rcases lock?_lockMade hj with hj | ⟨-, rfl⟩
    · exact h.gated hj
    · exact ⟨fun _ => rfl, fun _ => rfl, fun _ ho => by cases ho⟩
  · intro j l hj t
    show l.Stands t (w.callOn j t)
    rcases lock?_lockMade hj with hj | ⟨hnone, rfl⟩
    · exact h.stands hj t
    · rcases hc : w.callOn j t with _ | call
      · exact fun ho => by cases ho
      · obtain ⟨l, hl⟩ := h.present hc
        cases hnone.symm.trans hl
  · exact h.alone
  · intro j t call hj
    obtain ⟨l, hl⟩ := h.present hj
    refine ⟨l, ?_⟩
    unfold World.lock? at hl ⊢
    rw [List.getElem?_append_left (lock?_lt hl)]
    exact hl

/-- A new thread is in no call. -/
theorem callOn_threadMade (w : World) :
    ({ w with threads := w.threads ++ [.free none] } : World).callOn = w.callOn := by
  funext j t
  refine Option.ext fun c => ?_
  rw [callOn_eq_some, callOn_eq_some]
  show (w.threads ++ [Activity.free none])[t]? = _ ↔ _
  rw [getElem?_concat]
  split
  · next heq => simp [heq]
  · rfl

theorem lock?_stirred {l l₁ : PortLock} {j : LockId} (hl : w.lock? i = some l)
    (hj : ({ w with locks := w.locks.set i (some { l with gate := l.gate.stir t }) } :
      World).lock? j = some l₁) :
    ∃ l₀, w.lock? j = some l₀ ∧ ∃ asleep, l₁ = { l₀ with gate := { l₀.gate with asleep } } := by
  have hj := (lock?_set (lock?_lt hl)).symm.trans hj
  split at hj
  · next hji => cases hj; exact ⟨l, hji ▸ hl, _, rfl⟩
  · exact ⟨l₁, hj, _, rfl⟩

/-- A sleeper that wakes keeps the order. -/
theorem Orderly.stirred {l : PortLock} (h : w.Orderly) (hl : w.lock? i = some l) :
    ({ w with locks := w.locks.set i (some { l with gate := l.gate.stir t }) } : World).Orderly := by
  constructor
  · intro j l₁ hj
    obtain ⟨l₀, hl₀, asleep, rfl⟩ := lock?_stirred hl hj
    obtain ⟨h1, h2, h3⟩ := h.gated hl₀
    exact ⟨h1, h2, h3⟩
  · intro j l₁ hj t'
    obtain ⟨l₀, hl₀, asleep, rfl⟩ := lock?_stirred hl hj
    exact (h.stands hl₀ t').of_asleep
  · exact h.alone
  · intro j t' call hj
    obtain ⟨l₀, hl₀⟩ := h.present hj
    refine ⟨if j = i then { l with gate := l.gate.stir t } else l₀, ?_⟩
    refine (lock?_set (lock?_lt hl)).trans ?_
    split
    · rfl
    · exact hl₀

/-- Every event keeps the order. -/
theorem Orderly.happened (h : w.Orderly) (he : w.Happened e w') : w'.Orderly := by
  rcases he with ⟨ht, hl, hs⟩ | ⟨-, -⟩ | ⟨-, -⟩ | ⟨-, hs⟩ | ⟨hl, ht, hfree⟩ | ⟨hl⟩ | s | _ | ⟨-⟩ |
    ⟨x, d⟩ | ⟨⟨-, -⟩⟩
  case threadStep =>
    have hserved := served_of_serve? hs
    have h₁ := h.congr hserved.locks hserved.threads
    exact h₁.settle (by rwa [hserved.threads]) (by rwa [hserved.lock?])
  case workerStep => exact h.congr rfl rfl
  case attendantStep => exact h.congr rfl rfl
  case occupantStep =>
    obtain ⟨_, _, rfl⟩ := stepOccupant?_eq_some hs
    exact h.congr rfl rfl
  case begun => exact h.begun hl ht hfree
  case stirred => exact h.stirred hl
  case lockMade => exact h.lockMade s
  case threadMade =>
    have hc := callOn_threadMade w
    exact ⟨h.gated, hc ▸ h.stands, hc ▸ h.alone, hc ▸ h.present⟩
  case called => exact h.congr rfl rfl
  case done =>
    obtain ⟨_, hd⟩ := deed_eq w x d
    rw [hd]
    exact h.congr rfl rfl
  case shuffled => exact h.congr rfl rfl

/-- The settings of all locks are as they should be. -/
def Fitted (P : Settings → Prop) (w : World) : Prop :=
  ∀ i l, w.lock? i = some l → P l.settings

/-- Only new locks bring new settings. -/
theorem Fitted.happened {P : Settings → Prop} (h : w.Fitted P)
    (hnew : ∀ s, e = .newLock s → P s) (he : w.Happened e w') : w'.Fitted P := by
  rcases he with ⟨ht, hl, hs⟩ | ⟨-, -⟩ | ⟨-, -⟩ | ⟨-, hs⟩ | ⟨hl, ht, hfree⟩ | ⟨hl⟩ | s | _ | ⟨-⟩ |
    ⟨x, d⟩ | ⟨⟨-, -⟩⟩
  case threadStep =>
    have hserved := served_of_serve? hs
    intro j l' hl'
    rw [lock?_settle (by rwa [hserved.lock?])] at hl'
    split at hl'
    · rw [Progress.slot_eq_some hl', PortLock.step_settings]
      exact h _ _ hl
    · exact h _ _ (by rwa [hserved.lock?] at hl')
  case occupantStep =>
    obtain ⟨_, _, rfl⟩ := stepOccupant?_eq_some hs
    exact h
  case stirred =>
    intro j l' hl'
    obtain ⟨l₀, hl₀, asleep, rfl⟩ := lock?_stirred hl hl'
    exact h j l₀ hl₀
  case lockMade =>
    intro j l' hl'
    rcases lock?_lockMade hl' with hl' | ⟨-, rfl⟩
    · exact h _ _ hl'
    · exact hnew s rfl
  case done =>
    obtain ⟨_, hd⟩ := deed_eq w x d
    rw [hd]
    exact h
  all_goals exact h

/-- No event brings an occupant that is no lock. -/
theorem occupants_happened (h : w.occupants = []) (he : w.Happened e w') : w'.occupants = [] := by
  rcases he with ⟨ht, hl, hs⟩ | ⟨-, -⟩ | ⟨-, -⟩ | ⟨ho, -⟩ | ⟨hl, ht, hfree⟩ | ⟨hl⟩ | s | _ | ⟨-⟩ |
    ⟨x, d⟩ | ⟨⟨-, -⟩⟩
  case threadStep => rw [settle_eq]; exact (served_of_serve? hs).occupants.trans h
  case occupantStep => simp [h] at ho
  case done =>
    obtain ⟨_, hd⟩ := deed_eq w x d
    rw [hd]
    exact h
  all_goals exact h

end LoopbackLock.World
