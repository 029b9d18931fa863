import LoopbackLock.Proofs.Lock.Household
import LoopbackLock.Proofs.World.Order

/-!
# The households of a world

Each lock of a world and the calls on it are a household (`World.household_of_run`): what happens in
the world happens to the lock as a move, or not at all. So a lock in a world is a re-entrant mutex
as long as it is not dropped, whatever the network and the other locks do.
-/

namespace LoopbackLock.World

variable {w w' : World} {t : ThreadId} {i : LockId} {l : PortLock}

/-- Only a call that is awake makes a step. -/
theorem awake_of_stepThread? {chance : Chance} {c : Call} (h : w.stepThread? t chance = some w')
    (ht : w.threads[t]? = some (.busy i c)) (hl : w.lock? i = some l) :
    l.isAsleep t c = false := by
  unfold World.stepThread? at h
  simp only [ht, hl, Option.bind_eq_bind, Option.bind_some] at h
  split at h
  · cases h
  · next hawake => simpa using hawake

/-- The lock and the calls on it have come about in a household. -/
def Houses (w : World) (i : LockId) (l : PortLock) : Prop :=
  ∃ moves H, (Household.new l.settings).run? moves = some H ∧ H.lock = l ∧ H.calls = w.callOn i

/-- A move goes on with what has come about. -/
theorem Houses.move {l' : PortLock} (h : w.Houses i l) (hsettings : l'.settings = l.settings)
    (hmove : ∀ H : Household, H.lock = l → H.calls = w.callOn i →
      ∃ move H', H.move? move = some H' ∧ H'.lock = l' ∧ H'.calls = w'.callOn i) :
    w'.Houses i l' := by
  obtain ⟨moves, H, hrun, hlock, hcalls⟩ := h
  obtain ⟨move, H', hH', hlock', hcalls'⟩ := hmove H hlock hcalls
  exact ⟨moves ++ [move], H', hsettings ▸ Household.run?_concat hrun hH', hlock', hcalls'⟩

/-- All locks that nobody drops, with the calls on them, have come about in households. -/
def Housed (w : World) : Prop := ∀ i l, w.lock? i = some l → ¬w.IsRetiring i → w.Houses i l

theorem Housed.congr (h : w.Housed) (hl : w'.lock? = w.lock?) (hc : w'.callOn = w.callOn) :
    w'.Housed := by
  intro i l hl' hret
  have hret₀ : ¬w.IsRetiring i := by
    unfold IsRetiring at hret ⊢
    rwa [hc] at hret
  obtain ⟨moves, H, hrun, hlock, hcalls⟩ := h i l (hl ▸ hl') hret₀
  exact ⟨moves, H, hrun, hlock, by rw [hc]; exact hcalls⟩

/-- A step of a thread is a move of the household it is in, and none of any other. -/
theorem Housed.settle {c : Call} {r : Reply} (h : w.Housed) (ht : w.threads[t]? = some (.busy i c))
    (hl : w.lock? i = some l) (hawake : l.isAsleep t c = false) :
    (w.settle t i (l.step t c r).1 (l.step t c r).2).Housed := by
  have hc : w.callOn i t = some c := callOn_eq_some.mpr ht
  have hcall := callOn_settle ht (l.step t c r).1 (l.step t c r).2
  have hlock := lock?_settle hl t (l.step t c r).1 (l.step t c r).2
  intro j l' hl' hret
  have hret₀ := not_isRetiring_of_settle ht hl hl' hret
  rw [hlock] at hl'
  by_cases hji : j = i
  · subst hji
    rw [if_pos rfl] at hl'
    obtain rfl := Progress.slot_eq_some hl'
    refine (h _ _ hl hret₀).move (PortLock.step_settings l t c r) fun H hH hcalls => ?_
    subst hH
    refine ⟨.replied t r, _, Household.move?_replied (by rw [hcalls]; exact hc) hawake r, rfl, ?_⟩
    funext t'
    rw [hcall, ← hcalls, if_pos rfl]
    rfl
  · rw [if_neg hji] at hl'
    obtain ⟨moves, H, hrun, hH, hcalls⟩ := h _ _ hl' hret₀
    refine ⟨moves, H, hrun, hH, ?_⟩
    funext t'
    rw [hcalls, hcall]
    by_cases htt : t' = t
    · rw [if_pos htt, if_neg (Ne.symm hji), htt]
      exact callOn_of_busy hc hji
    · rw [if_neg htt]

/-- A call that begins is a move of the household it is in. -/
theorem Housed.begun {kind : CallKind} {last : Option Ending} (h : w.Housed)
    (ht : w.threads[t]? = some (.free last)) :
    Housed { w with threads := w.threads.set t (.busy i kind.call) } := by
  have hcall := callOn_set ht (.busy i kind.call)
  have hnone : ∀ j, w.callOn j t = none := fun j => by unfold callOn; rw [ht]
  intro j l hl hret
  have hhouse := h j l hl fun hr => hret (hr.begun ht _)
  by_cases hij : i = j
  · subst hij
    refine hhouse.move rfl fun H hH hcalls => ?_
    have hfree : H.calls t = none := by rw [hcalls]; exact hnone i
    have hput : ({ w with threads := w.threads.set t (.busy i kind.call) } : World).callOn i =
        Household.put H.calls t (some kind.call) := by
      funext t'
      rw [hcall, hcalls]
      show (if t' = t then (if i = i then some kind.call else none) else _) =
        if t' = t then some kind.call else _
      rw [if_pos (rfl : i = i)]
    cases kind
    case acquire => exact ⟨.acquires t, _, if_pos hfree, hH, hput.symm⟩
    case release => exact ⟨.releases t, _, Household.move?_releases hfree, hH, hput.symm⟩
    case drop =>
      exact absurd ⟨t, .drop, by rw [hput]; exact if_pos rfl, rfl⟩ hret
  · obtain ⟨moves, H, hrun, hH, hcalls⟩ := hhouse
    refine ⟨moves, H, hrun, hH, ?_⟩
    funext t'
    rw [hcall, hcalls]
    by_cases htt : t' = t
    · rw [if_pos htt, htt, hnone]
      exact (if_neg hij).symm
    · rw [if_neg htt]

theorem Housed.happen? {e : Event} (h : w.Housed) (ho : w.Orderly) (he : w.happen? e = some w') :
    w'.Housed := by
  rcases happened_of_happen? he with ⟨ht, hl, hs⟩ | ⟨-, -⟩ | ⟨-, -⟩ | ⟨-, hs⟩ | ⟨hl, ht, -⟩ | ⟨hl⟩ |
    s | _ | ⟨-⟩ | ⟨x, d⟩ | ⟨⟨-, -⟩⟩
  case threadStep =>
    have hawake := awake_of_stepThread? he ht hl
    have hserved := served_of_serve? hs
    have h₁ := h.congr (lock?_congr hserved.locks) (callOn_congr hserved.threads)
    exact h₁.settle (hserved.threads ▸ ht) (by rwa [hserved.lock?]) hawake
  case begun => exact h.begun ht
  case stirred t i lock =>
    intro j l hl' hret
    have hj := (lock?_set (lock?_lt hl)).symm.trans hl'
    split at hj
    · next hji =>
      subst hji
      cases hj
      exact (h _ _ hl hret).move rfl fun H hH hcalls => ⟨.stirs t, _, rfl, by rw [← hH], hcalls⟩
    · exact h _ _ hj hret
  case lockMade =>
    intro j l hl hret
    rcases lock?_lockMade hl with hl | ⟨hnone, rfl⟩
    · exact h _ _ hl hret
    · refine ⟨[], _, rfl, rfl, ?_⟩
      funext t
      rcases hc : w.callOn j t with _ | c
      · exact hc.symm
      · obtain ⟨l, hl⟩ := ho.present hc
        cases hnone.symm.trans hl
  case threadMade => exact h.congr rfl (callOn_threadMade w)
  case occupantStep =>
    obtain ⟨_, _, rfl⟩ := stepOccupant?_eq_some hs
    exact h.congr rfl rfl
  case done =>
    obtain ⟨_, hd⟩ := deed_eq w x d
    rw [hd]
    exact h.congr rfl rfl
  all_goals exact h.congr rfl rfl

/-- In every run each lock that nobody drops, with the calls on it, is what its household has come
to, and shows what the mutex of the household is. -/
theorem household_of_run {terrain : Terrain} {es : List Event}
    (hrun : (World.blank terrain).run? es = some w) (hl : w.lock? i = some l)
    (hret : ¬w.IsRetiring i) :
    ∃ moves H m, (Household.new l.settings).run? moves = some H ∧ H.lock = l ∧
      H.calls = w.callOn i ∧ H.mutex = some m ∧ H.Shows m := by
  have hhoused : w.Orderly ∧ w.Housed := by
    refine foldlM_invariant (P := fun w => w.Orderly ∧ w.Housed) (fun w e w' _ hw he => ?_)
      ⟨.blank terrain, fun _ _ hl => by cases hl⟩ hrun
    exact ⟨hw.1.happened (happened_of_happen? he), hw.2.happen? hw.1 he⟩
  obtain ⟨moves, H, hmoves, hH, hcalls⟩ := hhoused.2 i l hl hret
  obtain ⟨m, hm⟩ := Household.kept_of_run hmoves
  exact ⟨moves, H, m, hmoves, hH, hcalls, hm.mutex, hm.shows⟩

end LoopbackLock.World
