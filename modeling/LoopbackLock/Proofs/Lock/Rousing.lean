import LoopbackLock.Proofs.Lock.Failure
import LoopbackLock.Proofs.Lock.Gathering

/-!
# Who is roused when the gate opens

Only threads that are entering sleep in the gate of a lock, and each of them once
(`Household.Dozes`). A call that opens the gate rouses one of them, if there is any, and the gate is
that thread's if it looks before the others do (`Household.opening_rouses`). So an acquisition that
fails leaves nobody asleep in front of an open gate that no thread was roused for
(`Household.failure_rouses`).
-/

namespace LoopbackLock

/-- A step of a call leaves the gate as it is, looks at it, or leaves it. -/
theorem PortLock.gate_step (l : PortLock) (t : ThreadId) (c : Call) (r : Reply) :
    (l.step t c r).1.gate = l.gate ∨ (c = .entering ∧ l.step t c r = l.enter t) ∨
      ∃ choice, (l.step t c r).1.gate = l.gate.leave t choice := by
  fun_cases PortLock.step l t c r
  case case1 => exact .inr (.inl ⟨rfl, rfl⟩)
  case case3 c =>
    left
    unfold PortLock.contend
    rcases c.step l.settings r with _ | _ | _ <;> cases c.stored? <;> cases r <;> rfl
  case case5 choice | case10 choice => exact .inr (.inr ⟨choice, rfl⟩)
  all_goals exact .inl rfl

namespace Household

/-- Who sleeps in the gate is entering, and sleeps there once. -/
structure Dozes (H : Household) : Prop where
  entering : ∀ t ∈ H.lock.gate.asleep, H.calls t = some .entering
  nodup : H.lock.gate.asleep.Nodup

variable {H H' : Household} {t : ThreadId} {c : Call} {r : Reply} {move : Move}
  {moves : List Move} {s : Settings}

theorem awake_of_move? (h : H.move? (.replied t r) = some H') :
    ∃ c, H.calls t = some c ∧ H.lock.isAsleep t c = false ∧ H' = H.replied t c r := by
  unfold move? reply? at h
  simp only at h
  split at h
  · cases h
  · next c hc =>
    obtain ⟨hawake, heq⟩ := Option.ite_none_left_eq_some.mp h
    exact ⟨c, hc, by simpa using hawake, (Option.some.inj heq).symm⟩

/-- A thread whose call can go on does not sleep. -/
theorem Dozes.not_asleep (h : H.Dozes) (hc : H.calls t = some c)
    (hawake : H.lock.isAsleep t c = false) : t ∉ H.lock.gate.asleep := by
  intro hmem
  obtain rfl := Option.some.inj ((h.entering t hmem).symm.trans hc)
  simp [PortLock.isAsleep, hmem] at hawake

/-- No thread falls asleep, and none that sleeps begins or ends a call. -/
theorem Dozes.of_sublist (h : H.Dozes)
    (hsub : H'.lock.gate.asleep.Sublist H.lock.gate.asleep)
    (hcalls : ∀ t ∈ H.lock.gate.asleep, H'.calls t = H.calls t) : H'.Dozes where
  entering t hmem := (hcalls t (hsub.subset hmem)).trans (h.entering t (hsub.subset hmem))
  nodup := h.nodup.sublist hsub

theorem Dozes.begun (h : H.Dozes) (hc : H.calls t = none) (c : Option Call) (m : Option Mutex) :
    Dozes { H with calls := put H.calls t c, mutex := m } :=
  h.of_sublist (.refl _) fun t' hmem => put_of_ne fun heq => by
    rw [heq] at hmem
    cases hc.symm.trans (h.entering t hmem)

theorem Dozes.replied (h : H.Dozes) (hc : H.calls t = some c)
    (hawake : H.lock.isAsleep t c = false) (r : Reply) : (H.replied t c r).Dozes := by
  have hself := h.not_asleep hc hawake
  have hcalls : ∀ t' ∈ H.lock.gate.asleep, (H.replied t c r).calls t' = H.calls t' :=
    fun t' hmem => put_of_ne fun heq => hself (heq ▸ hmem)
  have hgate : (H.replied t c r).lock.gate = (H.lock.step t c r).1.gate := rfl
  rcases H.lock.gate_step t c r with heq | ⟨rfl, heq⟩ | ⟨choice, heq⟩
  · exact h.of_sublist (by rw [hgate, heq]) hcalls
  · rcases ho : H.lock.gate.owner with _ | o
    · rw [PortLock.enter_open ho] at heq
      exact h.of_sublist (by rw [hgate, heq]) hcalls
    · by_cases hot : o = t
      · subst hot
        rw [PortLock.enter_own ho] at heq
        exact h.of_sublist (by rw [hgate, heq]) hcalls
      · rw [PortLock.enter_barred ho hot] at heq
        have hasleep : (H.replied t .entering r).lock.gate.asleep = H.lock.gate.asleep ++ [t] := by
          rw [hgate, heq]
        constructor
        · intro t' hmem
          rw [hasleep] at hmem
          rcases List.mem_append.mp hmem with hmem | hmem
          · exact (hcalls t' hmem).trans (h.entering t' hmem)
          · rw [List.mem_singleton.mp hmem]
            show put H.calls t (H.lock.step t .entering r).2.call? t = _
            rw [put_same, heq]
            rfl
        · rw [hasleep]
          exact List.nodup_append_comm.mp (List.nodup_cons.mpr ⟨hself, h.nodup⟩)
  · refine h.of_sublist ?_ hcalls
    rw [hgate, heq]
    rcases H.lock.gate.leave_cases t choice with ⟨-, heq⟩ | ⟨-, -, heq⟩ | ⟨-, -, heq⟩ <;> rw [heq]
    exact List.eraseIdx_sublist ..

theorem Dozes.moved (h : H.Dozes) (hmove : H.move? move = some H') : H'.Dozes := by
  rcases move with t | t | ⟨t, r⟩ | t
  · rcases moved_of_move? hmove with ⟨hc⟩
    exact h.begun hc _ _
  · rcases moved_of_move? hmove with - | ⟨hc⟩
    exact h.begun hc _ _
  · obtain ⟨c, hc, hawake, rfl⟩ := awake_of_move? hmove
    exact h.replied hc hawake r
  · cases hmove
    exact h.of_sublist List.erase_sublist fun _ _ => rfl

theorem dozes_of_run (h : (Household.new s).run? moves = some H) : H.Dozes :=
  foldlM_invariant (P := Dozes) (fun _ _ _ _ h hmove => h.moved hmove)
    ⟨fun _ hmem => absurd hmem List.not_mem_nil, List.nodup_nil⟩ h

/-- A thread has been roused: it slept before and does not now, all others sleep on, and if it looks
next, the gate is its own. -/
structure Roused (H H' : Household) (t : ThreadId) : Prop where
  slept : t ∈ H.lock.gate.asleep
  awake : t ∉ H'.lock.gate.asleep
  others : H'.lock.gate.asleep = H.lock.gate.asleep.erase t
  enters : ∃ H'', H'.move? (.replied t .done) = some H'' ∧ H''.lock.gate.owner = some t

/-- The last leave of the gate's owner rouses one of those who sleep in it. -/
theorem Dozes.roused (h : H.Dozes) (hc : H.calls t = some c)
    (hawake : H.lock.isAsleep t c = false) (choice : Nat) (hne : H.lock.gate.asleep ≠ [])
    (hopen : (H.replied t c r).lock.gate.owner = none)
    (hleft : (H.replied t c r).lock.gate.asleep =
      H.lock.gate.asleep.eraseIdx (choice % H.lock.gate.asleep.length)) :
    ∃ t', H.Roused (H.replied t c r) t' := by
  have hlt := Nat.mod_lt choice (List.length_pos_iff.mpr hne)
  let roused := H.lock.gate.asleep[choice % H.lock.gate.asleep.length]
  have hslept : roused ∈ H.lock.gate.asleep := List.getElem_mem hlt
  have hasleep : (H.replied t c r).lock.gate.asleep = H.lock.gate.asleep.erase roused := by
    rw [hleft, h.nodup.erase_getElem]
  have hup : roused ∉ (H.replied t c r).lock.gate.asleep := by
    rw [hasleep]
    exact h.nodup.not_mem_erase
  have hentering : (H.replied t c r).calls roused = some .entering := by
    have hne : roused ≠ t := fun heq => h.not_asleep hc hawake (heq ▸ hslept)
    exact (put_of_ne hne).trans (h.entering roused hslept)
  refine ⟨roused, hslept, hup, hasleep, _, move?_replied hentering ?_ .done, ?_⟩
  · simp [PortLock.isAsleep, hup]
  · show ((H.replied t c r).lock.enter roused).1.gate.owner = some roused
    rw [PortLock.enter_open hopen]

/-- The move that opens the gate rouses one of those who sleep in it, if there is any. -/
theorem opening_rouses (hrun : (Household.new s).run? moves = some H)
    (hmove : H.move? move = some H') (howned : H.lock.gate.owner ≠ none)
    (hopen : H'.lock.gate.owner = none) :
    H.lock.gate.asleep = [] ∧ H'.lock.gate.asleep = [] ∨ ∃ t, H.Roused H' t := by
  have hdozes := dozes_of_run hrun
  rcases move with t | t | ⟨t, r⟩ | t
  · rcases moved_of_move? hmove with ⟨-⟩
    exact absurd hopen howned
  · rcases moved_of_move? hmove with - | -
    exact absurd hopen howned
  · obtain ⟨c, hc, hawake, rfl⟩ := awake_of_move? hmove
    have hgate : (H.replied t c r).lock.gate = (H.lock.step t c r).1.gate := rfl
    rw [hgate] at hopen
    rcases H.lock.gate_step t c r with heq | ⟨rfl, heq⟩ | ⟨choice, heq⟩
    · rw [heq] at hopen
      exact absurd hopen howned
    · obtain ⟨o, ho⟩ := Option.ne_none_iff_exists'.mp howned
      by_cases hot : o = t
      · subst hot
        rw [heq, PortLock.enter_own ho] at hopen
        exact absurd hopen howned
      · rw [heq, PortLock.enter_barred ho hot] at hopen
        exact absurd hopen howned
    · rcases H.lock.gate.leave_cases t choice with ⟨-, hl⟩ | ⟨-, -, hl⟩ | ⟨-, -, hl⟩
      · rw [heq, hl] at hopen
        exact absurd hopen howned
      · rw [heq, hl] at hopen
        exact absurd hopen howned
      · have hleft := congrArg Gate.asleep (hgate.trans (heq.trans hl))
        by_cases hne : H.lock.gate.asleep = []
        · exact .inl ⟨hne, by rw [hleft, hne]; rfl⟩
        · exact .inr (hdozes.roused hc hawake choice hne hopen hleft)
  · cases hmove
    exact absurd hopen howned

/-- The last step of an acquisition that fails rouses one of those who sleep in the gate, if there
is any. -/
theorem failure_rouses {why : LockError} (hrun : (Household.new s).run? moves = some H)
    (hlast : H.move? (.replied t r) = some H')
    (hfail : H.ended? (.replied t r) = some (.failed why)) :
    H.lock.gate.asleep = [] ∧ H'.lock.gate.asleep = [] ∨ ∃ t', H.Roused H' t' := by
  obtain ⟨c, hc, hstep⟩ := failed_of_ended hfail
  obtain ⟨m, hkept⟩ := kept_of_run hrun
  obtain ⟨c', hc', -, heq⟩ := awake_of_move? hlast
  obtain rfl := Option.some.inj (hc.symm.trans hc')
  have hopen : H'.lock.gate.owner = none := heq ▸ hkept.open_of_failed hc hstep
  have howned : H.lock.gate.owner ≠ none := by
    obtain rfl := PortLock.failed_of_step hstep
    have hstands : H.lock.Stands t (some (.quitting why)) := hc ▸ hkept.stands t
    rw [hstands.1.1]
    exact nofun
  exact opening_rouses hrun hlast howned hopen

end Household

end LoopbackLock
