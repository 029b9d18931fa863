import LoopbackLock.Proofs.World.Minding
import LoopbackLock.Proofs.World.Regular

/-!
# Which lock a listener is of

A lock has bound a listener if a call on it once had the listener in hand (`HasBound`). From the call
a listener goes to the holder that the call founds, and the holder to the lock; so whoever runs a
listener runs one that the lock has bound, and no two locks have bound the same one
(`origins_of_run`).
-/

namespace LoopbackLock.World

variable {w w' w₀ w₁ : World} {t : ThreadId} {i j : LockId} {h : HolderId} {ℓ : ListenerId}
  {l : PortLock} {c : Call} {e : Event} {es : List Event} {s : Settings} {q : Request} {r : Reply}

/-- A call on the lock has the listener in hand. -/
def Grips (w : World) (i : LockId) (ℓ : ListenerId) : Prop :=
  ∃ t c, w.callOn i t = some c ∧ c.listener? = some ℓ

/-- The lock stores the holder, or a call on it has the holder in hand. -/
def Employs (w : World) (i : LockId) (h : HolderId) : Prop :=
  (∃ l, w.lock? i = some l ∧ l.state = .holding h) ∨
    ∃ t c, w.callOn i t = some c ∧ c.holder? = some h

/-- The listener is in the hands of a call on the lock, or of a holder of the lock. -/
def Runs (w : World) (i : LockId) (ℓ : ListenerId) : Prop :=
  w.Grips i ℓ ∨ ∃ h f, w.Employs i h ∧ w.fronts[h]? = some f ∧ f.listener = ℓ

/-- Along a run that starts here a call on the lock has had the listener in hand. -/
def HasBound (w₀ : World) (es : List Event) (i : LockId) (ℓ : ListenerId) : Prop :=
  ∃ es₁ es₂ w, es = es₁ ++ es₂ ∧ w₀.run? es₁ = some w ∧ w.Grips i ℓ

theorem hasBound_concat (hr : w₀.run? es = some w) (he : w.happen? e = some w') :
    w₀.HasBound (es ++ [e]) i ℓ ↔ w₀.HasBound es i ℓ ∨ w'.Grips i ℓ := by
  have hr' : w₀.run? (es ++ [e]) = some w' := by
    rw [run?_append, hr, Option.bind_some, run?_cons, he]
    rfl
  constructor
  · rintro ⟨es₁, es₂, w₁, heq, hrun, hgrips⟩
    rcases List.eq_nil_or_concat es₂ with rfl | ⟨es₂, e', rfl⟩
    · rw [List.append_nil] at heq
      subst heq
      cases hr'.symm.trans hrun
      exact .inr hgrips
    · rw [List.concat_eq_append, ← List.append_assoc] at heq
      obtain ⟨rfl, -⟩ := List.append_inj' heq rfl
      exact .inl ⟨es₁, es₂, w₁, rfl, hrun, hgrips⟩
  · rintro (⟨es₁, es₂, w₁, rfl, hrun, hgrips⟩ | hgrips)
    · exact ⟨es₁, es₂ ++ [e], w₁, List.append_assoc .., hrun, hgrips⟩
    · exact ⟨es ++ [e], [], w', (List.append_nil _).symm, hr', hgrips⟩

/-- What each event keeps of a world and the events before holds at the end of a run. -/
theorem run_history {P : List Event → World → Prop} {es' : List Event}
    (hstep : ∀ es w e w', w₀.run? es = some w → P es w → w.happen? e = some w' → P (es ++ [e]) w')
    (h₀ : w₀.run? es = some w) (hP : P es w) (hr : w.run? es' = some w') : P (es ++ es') w' := by
  induction es' generalizing es w with
  | nil =>
    cases hr
    rwa [List.append_nil]
  | cons e es' ih =>
    rw [run?_cons] at hr
    obtain ⟨w₁, he, hr⟩ := Option.bind_eq_some_iff.mp hr
    have h₁ : w₀.run? (es ++ [e]) = some w₁ := by
      rw [run?_append, h₀, Option.bind_some, run?_cons, he]
      rfl
    have hall := ih h₁ (hstep es w e w₁ h₀ hP he) hr
    rwa [List.append_assoc] at hall

/-- What holds at the start of a run and is kept, with the events so far, by each event in a regular
world. -/
theorem history_of_run {terrain : Terrain} {P : List Event → World → Prop}
    (h₀ : P [] (World.blank terrain))
    (hstep : ∀ es w e w', (World.blank terrain).run? es = some w → w.Regular → P es w →
      w.happen? e = some w' → P (es ++ [e]) w')
    (hr : (World.blank terrain).run? es = some w) : P es w := by
  have hnone : (World.blank terrain).run? [] = some (World.blank terrain) := rfl
  exact run_history (fun es w e w' hr => hstep es w e w' hr ((Regular.blank terrain).run hr))
    hnone h₀ hr

/-! ## Employers -/

theorem Employs.keepers (h₁ : w.Employs i h) : 1 ≤ w.keepers h := by
  unfold World.keepers
  rcases h₁ with ⟨l, hl, hs⟩ | ⟨t, c, hc, hh⟩
  · have hle := le_total (f := slotKeeps h) (getElem?_of_lock? hl)
    rw [slotKeeps_of_state hs] at hle
    omega
  · have hle := le_total (f := Activity.keeps h) (callOn_eq_some.mp hc)
    rw [keeps_of_holder hh] at hle
    omega

/-- A holder with a keeper is employed. -/
theorem employs_of_keepers (hk : 1 ≤ w.keepers h) : ∃ i, w.Employs i h := by
  have hkeeps : ∀ {place : Option HolderId}, 0 < keeps h place → place = some h := by
    intro place hpos
    unfold keeps at hpos
    split at hpos
    · assumption
    · cases hpos
  unfold World.keepers at hk
  rcases Nat.eq_zero_or_pos (total (slotKeeps h) w.locks) with hzero | hpos
  · obtain ⟨a, ha, hone⟩ := exists_of_total_pos (f := Activity.keeps h) (l := w.threads) (by omega)
    obtain ⟨t, ht⟩ := List.getElem?_of_mem ha
    rcases a with _ | ⟨i, c⟩
    · cases hone
    · exact ⟨i, .inr ⟨t, c, callOn_eq_some.mpr ht, hkeeps hone⟩⟩
  · obtain ⟨slot, hslot, hone⟩ := exists_of_total_pos hpos
    obtain ⟨i, hi⟩ := List.getElem?_of_mem hslot
    obtain ⟨l, rfl, hl⟩ := Option.bind_eq_some_iff.mp (hkeeps hone)
    refine ⟨i, .inl ⟨l, ?_, ?_⟩⟩
    · unfold World.lock?
      rw [hi]
      rfl
    · rcases hs : l.state with _ | _ | _ | k | _ <;> rw [hs] at hl <;> cases hl
      rfl

/-- A holder that is employed has been founded. -/
theorem Employs.founded (h₁ : w.Employs i h) (hk : w.Kept) : h < w.fronts.length := by
  have hkeepers := h₁.keepers
  rcases Nat.lt_or_ge h w.fronts.length with hlt | hge
  · exact hlt
  · have hnone := hk.founded h hge
    omega

/-! ## A step of a thread -/

/-- A call has its listener in hand from before, or has just bound it. -/
theorem Served.listener?_of (hs : w.Served l.settings (c.request l.settings) r w₁)
    (hℓ : (l.step t c r).2.call?.bind Call.listener? = some ℓ) :
    c.listener? = some ℓ ∨
      ℓ = w.network.ports.length ∧ w₁.network.ports.length = ℓ + 1 := by
  have hdeal := hs.deal
  generalize hq : c.request l.settings = q at hdeal
  rcases hdeal with hb | ℓ' | ℓ' | hh | ⟨hb, hf, hu, -, -⟩
  case bound ℓ' n =>
    obtain ⟨-, hsome⟩ := PortLock.listener?_bound (l := l) (t := t) hq ℓ'
    obtain ⟨hnew, hports⟩ := Network.ports_bind hb
    cases hsome.symm.trans hℓ
    exact .inr ⟨hnew, by rw [hports, List.length_append, ← hnew]; rfl⟩
  case founded =>
    obtain ⟨-, hnone⟩ := PortLock.listener?_founded (l := l) (t := t) hq w.holders.length
    cases hnone.symm.trans hℓ
  case unbound =>
    obtain ⟨-, hnone⟩ := PortLock.listener?_unbound (l := l) (t := t) hq
    cases hnone.symm.trans hℓ
  case stopped =>
    rw [PortLock.listener?_step (by simp) (by simp) (by simp [hq])] at hℓ
    exact .inl hℓ
  case quiet =>
    rw [PortLock.listener?_step hb hf fun ℓ' hℓ' => hu ℓ' (hq.symm.trans hℓ')] at hℓ
    exact .inl hℓ

/-- After a step a lock employs whom it did before, or whom the call has just founded. -/
theorem Employs.of_threadStep (ho : w.Orderly) (ht : w.threads[t]? = some (.busy i c))
    (hl : w.lock? i = some l) (hs : w.Served l.settings (c.request l.settings) r w₁)
    (h₁ : (w₁.settle t i (l.step t c r).1 (l.step t c r).2).Employs j h) :
    w.Employs j h ∨ j = i ∧ r = .founded h := by
  have hc : w.callOn i t = some c := callOn_eq_some.mpr ht
  have hstands : l.Stands t (some c) := hc ▸ ho.stands hl t
  rcases h₁ with ⟨l', hl', hst⟩ | ⟨t', c', hc', hh⟩
  · rw [lock?_settle (by rwa [hs.lock?])] at hl'
    split at hl'
    · next hji =>
      subst hji
      rw [Progress.slot_eq_some hl'] at hst
      rcases PortLock.holding_of_step hst with hst | rfl
      · exact .inl (.inl ⟨l, hl, hst⟩)
      · exact .inl (.inr ⟨t, _, hc, rfl⟩)
    · rw [hs.lock?] at hl'
      exact .inl (.inl ⟨l', hl', hst⟩)
  · rw [callOn_settle (by rwa [hs.threads])] at hc'
    split at hc'
    · split at hc'
      · next hij =>
        subst hij
        have hpass := PortLock.keeps_step (r := r) hstands h
        have hhas : keeps h ((l.step t c r).2.call?.bind Call.holder?) = 1 := by
          rw [hc', Option.bind_some, hh, keeps_some, if_pos rfl]
        by_cases hr : r = .founded h
        · exact .inr ⟨rfl, hr⟩
        · left
          rw [hhas, if_neg hr] at hpass
          by_cases hst : l.state.holder? = some h
          · refine .inl ⟨l, hl, ?_⟩
            rcases hs : l.state with _ | _ | _ | k | _ <;> rw [hs] at hst <;> cases hst
            rfl
          · refine .inr ⟨t, c, hc, ?_⟩
            by_cases hcall : c.holder? = some h
            · exact hcall
            · unfold keeps at hpass
              rw [if_neg hst, if_neg hcall] at hpass
              omega
      · cases hc'
    · rw [hs.callOn] at hc'
      exact .inl (.inr ⟨t', c', hc', hh⟩)

/-- After a step a lock runs what it did before, or what a call on it has in hand. -/
theorem Runs.of_threadStep (hk : w.Kept) (ho : w.Orderly) (ht : w.threads[t]? = some (.busy i c))
    (hl : w.lock? i = some l) (hs : w.Served l.settings (c.request l.settings) r w₁)
    (h₁ : (w₁.settle t i (l.step t c r).1 (l.step t c r).2).Runs j ℓ) :
    w.Runs j ℓ ∨ (w₁.settle t i (l.step t c r).1 (l.step t c r).2).Grips j ℓ := by
  rcases h₁ with hgrips | ⟨h, f, hemploys, hf, rfl⟩
  · exact .inr hgrips
  left
  have hfronts : (w₁.settle t i (l.step t c r).1 (l.step t c r).2).fronts = w₁.fronts := by
    rw [settle_eq]; rfl
  rw [hfronts] at hf
  have hemploys := hemploys.of_threadStep ho ht hl hs
  rcases hs.deal.front_of hf with ⟨f₀, hf₀, hlistener, -⟩ | ⟨ℓ, hq, hr, hnew, rfl⟩
  · rcases hemploys with hold | ⟨-, rfl⟩
    · exact .inr ⟨h, f₀, hold, hf₀, hlistener.symm⟩
    · have hnew := (hs.fronts_length.1 h rfl).1
      have hlt := (List.getElem?_eq_some_iff.mp hf₀).1
      exact absurd hlt (Nat.not_lt.mpr (Nat.le_of_eq hnew.symm))
  · rcases hemploys with hold | ⟨rfl, -⟩
    · exact absurd (hold.founded hk) (Nat.not_lt.mpr (Nat.le_of_eq hnew.symm))
    · obtain ⟨hsome, -⟩ := PortLock.listener?_founded (l := l) (t := t) hq h
      exact .inl ⟨t, c, callOn_eq_some.mpr ht, hsome⟩

/-! ## The other events -/

/-- A call has its listener in hand from before, or has just bound it. -/
theorem Happened.grips (he : w.Happened e w') (hocc : w.occupants = []) (hg : w'.Grips i ℓ) :
    w.Grips i ℓ ∨ ∃ t chance c, e = .step (.thread t) chance ∧ w.callOn i t = some c ∧
      ℓ = w.network.ports.length ∧ w'.network.ports.length = ℓ + 1 := by
  obtain ⟨t, c', hc', hℓ⟩ := hg
  rcases he.activity_of hocc (callOn_eq_some.mp hc') with ⟨hsame, -⟩ |
    ⟨chance, i₀, c, l, r, w₁, rfl, ht, hl, hs, rfl, hstep⟩ | ⟨i₀, kind, hbegun⟩ | hfree
  · exact .inl ⟨t, c', callOn_eq_some.mpr hsame, hℓ⟩
  · rcases hp : (l.step t c r).2 with c₁ | _ <;> rw [hp] at hstep <;> cases hstep
    have hhas : (l.step t c r).2.call?.bind Call.listener? = some ℓ := by
      rw [hp]
      exact hℓ
    rcases (served_of_serve? hs).listener?_of hhas with hold | ⟨hnew, hports⟩
    · exact .inl ⟨t, c, callOn_eq_some.mpr ht, hold⟩
    · refine .inr ⟨t, chance, c, rfl, callOn_eq_some.mpr ht, hnew, ?_⟩
      rw [network_settle]
      exact hports
  · cases hbegun
    cases kind <;> cases hℓ
  · cases hfree

/-- Only the steps of threads bring employers about. -/
theorem Happened.employs_quiet (he : w.Happened e w') (hocc : w.occupants = [])
    (hquiet : ∀ t chance, e ≠ .step (.thread t) chance) (h₁ : w'.Employs i h) :
    w.Employs i h := by
  rcases h₁ with ⟨l', hl', hst⟩ | ⟨t, c', hc', hh⟩
  · left
    rcases he with ⟨ht, hl, hs⟩ | ⟨hh, hp⟩ | ⟨hh, ha⟩ | ⟨ho', -⟩ | ⟨hl, ht, hfree⟩ | ⟨hl⟩ | s | _ |
      ⟨hc⟩ | ⟨x, d⟩ | ⟨⟨hh, hperm⟩⟩
    case threadStep => exact absurd rfl (hquiet _ _)
    case occupantStep => simp [hocc] at ho'
    case stirred =>
      obtain ⟨l₀, hl₀, asleep, rfl⟩ := lock?_stirred hl hl'
      exact ⟨l₀, hl₀, hst⟩
    case lockMade =>
      rcases lock?_lockMade hl' with hl' | ⟨-, rfl⟩
      · exact ⟨l', hl', hst⟩
      · cases hst
    case done =>
      obtain ⟨_, hd⟩ := deed_eq w x d
      rw [hd] at hl'
      exact ⟨l', hl', hst⟩
    all_goals exact ⟨l', hl', hst⟩
  · right
    rcases he.activity_of hocc (callOn_eq_some.mp hc') with ⟨hsame, -⟩ |
      ⟨chance, _, _, _, _, _, rfl, -⟩ | ⟨i₀, kind, hbegun⟩ | hfree
    · exact ⟨t, c', callOn_eq_some.mpr hsame, hh⟩
    · exact absurd rfl (hquiet _ _)
    · cases hbegun
      cases kind <;> cases hh
    · cases hfree

/-- Only the steps of threads bring holders about. -/
theorem Happened.front_quiet {f' : Front} (he : w.Happened e w') (hocc : w.occupants = [])
    (hquiet : ∀ t chance, e ≠ .step (.thread t) chance) (hf : w'.fronts[h]? = some f') :
    ∃ f, w.fronts[h]? = some f ∧ f'.listener = f.listener := by
  rcases he with ⟨ht, hl, hs⟩ | ⟨hh, hp⟩ | ⟨hh, ha⟩ | ⟨ho', -⟩ | ⟨hl, ht, hfree⟩ | ⟨hl⟩ | s | _ |
    ⟨hc⟩ | ⟨x, d⟩ | ⟨⟨hh, hperm⟩⟩
  case threadStep => exact absurd rfl (hquiet _ _)
  case workerStep h' _ holder next =>
    rw [fronts_setHolder] at hf
    rcases getElem?_set_cases hf with ⟨rfl, rfl⟩ | ⟨-, hold⟩
    · refine ⟨holder.front, fronts_getElem? hh, ?_⟩
      rcases (Holder.polled_of_poll? hp).front with ⟨-, -, hfront, -⟩ | ⟨_, -, -, hfront, -⟩ <;>
        rw [hfront]
    · exact ⟨f', hold, rfl⟩
  case attendantStep =>
    obtain ⟨a, -, ha⟩ := Holder.attended_of_attend? ha
    rw [fronts_setHolder_same hh ha.front] at hf
    exact ⟨f', hf, rfl⟩
  case occupantStep => simp [hocc] at ho'
  case done =>
    obtain ⟨_, hd⟩ := deed_eq w x d
    rw [hd] at hf
    exact ⟨f', hf, rfl⟩
  case shuffled =>
    rw [fronts_setHolder_same hh rfl] at hf
    exact ⟨f', hf, rfl⟩
  all_goals exact ⟨f', hf, rfl⟩

/-- A lock runs what it did before, or what a call on it has in hand. -/
theorem Happened.runs (he : w.Happened e w') (hk : w.Kept) (ho : w.Orderly)
    (hocc : w.occupants = []) (h₁ : w'.Runs i ℓ) : w.Runs i ℓ ∨ w'.Grips i ℓ := by
  obtain ⟨t, chance, rfl⟩ | hquiet := thread_or_quiet e
  · rcases he with ⟨ht, hl, hs⟩
    exact h₁.of_threadStep hk ho ht hl (served_of_serve? hs)
  · rcases h₁ with hgrips | ⟨h, f', hemploys, hf, rfl⟩
    · exact .inr hgrips
    · obtain ⟨f, hf, hlistener⟩ := he.front_quiet hocc hquiet hf
      exact .inl (.inr ⟨h, f, he.employs_quiet hocc hquiet hemploys, hf, hlistener.symm⟩)

/-! ## What stays -/

/-- Listeners keep their numbers. -/
theorem Happened.ports_le (he : w.Happened e w') (hocc : w.occupants = []) :
    w.network.ports.length ≤ w'.network.ports.length := by
  have hunbind : ∀ ℓ, (w.network.unbind ℓ).ports.length = w.network.ports.length := fun ℓ => by
    rw [Network.ports_unbind, List.length_modify]
  rcases he with ⟨ht, hl, hs⟩ | ⟨hh, hp⟩ | ⟨hh, ha⟩ | ⟨ho', -⟩ | ⟨hl, ht, hfree⟩ | ⟨hl⟩ | s | _ |
    ⟨hc⟩ | ⟨x, d⟩ | ⟨⟨hh, hperm⟩⟩
  case threadStep =>
    rw [network_settle]
    have hdeal := (served_of_serve? hs).deal
    generalize Call.request _ _ = q at hdeal
    rcases hdeal with hb | _ | ℓ | _ | ⟨-, -, -, hports, -⟩
    case bound =>
      rw [(Network.ports_bind hb).2, List.length_append]
      exact Nat.le_add_right ..
    case unbound => exact Nat.le_of_eq (hunbind ℓ).symm
    case quiet => exact Nat.le_of_eq (by rw [hports])
    all_goals exact Nat.le_refl _
  case workerStep =>
    rcases (Holder.polled_of_poll? hp).front with ⟨-, -, -, hports⟩ | ⟨_, -, -, -, hports⟩
    · exact Nat.le_of_eq ((hunbind _).symm.trans (by rw [← hports]; rfl))
    · exact Nat.le_of_eq (by rw [← hports]; rfl)
  case attendantStep =>
    obtain ⟨a, -, ha⟩ := Holder.attended_of_attend? ha
    exact Nat.le_of_eq (by rw [← ha.ports]; rfl)
  case occupantStep => simp [hocc] at ho'
  case called => exact Nat.le_of_eq (by rw [← Network.ports_connect hc])
  case done => exact Nat.le_of_eq (by rw [deed_ports])
  all_goals exact Nat.le_refl _

/-- Locks keep their numbers, and who was dropped stays so. -/
theorem Happened.dropped (he : w.Happened e w') (hocc : w.occupants = [])
    (hi : i < w.locks.length) :
    i < w'.locks.length ∧ (w.lock? i = none → w'.lock? i = none) := by
  rcases he with ⟨ht, hl, hs⟩ | ⟨hh, hp⟩ | ⟨hh, ha⟩ | ⟨ho', -⟩ | ⟨hl, ht, hfree⟩ | ⟨hl⟩ | s | _ |
    ⟨hc⟩ | ⟨x, d⟩ | ⟨⟨hh, hperm⟩⟩
  case threadStep t chance j c l r w₁ =>
    have hserved := served_of_serve? hs
    refine ⟨?_, fun hnone => ?_⟩
    · rw [settle_eq]
      show i < (w₁.locks.set _ _).length
      rwa [List.length_set, hserved.locks]
    · rw [lock?_settle (by rwa [hserved.lock?])]
      split
      · next hij => cases (hij ▸ hl).symm.trans hnone
      · rwa [hserved.lock?]
  case occupantStep => simp [hocc] at ho'
  case stirred t j l =>
    refine ⟨?_, fun hnone => ?_⟩
    · show i < (w.locks.set _ _).length
      rwa [List.length_set]
    · refine (lock?_set (lock?_lt hl)).trans ?_
      split
      · next hij => cases (hij ▸ hl).symm.trans hnone
      · exact hnone
  case lockMade =>
    refine ⟨?_, fun hnone => ?_⟩
    · show i < (w.locks ++ _).length
      rw [List.length_append]
      exact Nat.lt_add_right _ hi
    · unfold World.lock? at hnone ⊢
      rwa [List.getElem?_append_left hi]
  case done =>
    obtain ⟨_, hd⟩ := deed_eq w x d
    rw [hd]
    exact ⟨hi, id⟩
  all_goals exact ⟨hi, id⟩

/-! ## Origins -/

/-- Every listener in use is of the one lock that has bound it. -/
structure Origins (w₀ : World) (es : List Event) (w : World) : Prop where
  runs : ∀ {i ℓ}, w.Runs i ℓ → w₀.HasBound es i ℓ
  one : ∀ {i j ℓ}, w₀.HasBound es i ℓ → w₀.HasBound es j ℓ → i = j
  listener : ∀ {i ℓ}, w₀.HasBound es i ℓ → ℓ < w.network.ports.length
  lock : ∀ {i ℓ}, w₀.HasBound es i ℓ → i < w.locks.length

theorem Origins.blank (terrain : Terrain) : Origins (.blank terrain) [] (.blank terrain) := by
  have hnone : ∀ {i ℓ}, ¬ (World.blank terrain).HasBound [] i ℓ := by
    rintro i ℓ ⟨es₁, es₂, w, heq, hr, t, c, hc, -⟩
    obtain ⟨rfl, -⟩ := List.nil_eq_append_iff.mp heq
    cases hr
    cases hc
  constructor
  · rintro i ℓ (⟨t, c, hc, -⟩ | ⟨h, f, -, hf, -⟩)
    · cases hc
    · cases hf
  all_goals exact fun hb => absurd hb hnone

theorem Origins.happened (h : Origins w₀ es w) (hw : w.Regular) (hr : w₀.run? es = some w)
    (hstep : w.happen? e = some w') : Origins w₀ (es ++ [e]) w' := by
  have he := happened_of_happen? hstep
  have hocc := hw.unoccupied
  -- What a call has in hand was bound before, or just now by the thread that makes the step.
  have hnew : ∀ {i ℓ}, w'.Grips i ℓ → w₀.HasBound es i ℓ ∨ ∃ t chance c,
      e = .step (.thread t) chance ∧ w.callOn i t = some c ∧ ℓ = w.network.ports.length ∧
        w'.network.ports.length = ℓ + 1 := fun hg =>
    (he.grips hocc hg).imp_left fun hold => h.runs (.inl hold)
  constructor
  · intro i ℓ hruns
    rw [hasBound_concat hr hstep]
    exact (he.runs hw.kept hw.orderly hocc hruns).imp_left h.runs
  · intro i j ℓ hi hj
    rw [hasBound_concat hr hstep] at hi hj
    have hi := hi.elim .inl hnew
    have hj := hj.elim .inl hnew
    rcases hi with hi | ⟨t, chance, c, rfl, hc, rfl, -⟩
    · rcases hj with hj | ⟨t, chance, c, rfl, hc, rfl, -⟩
      · exact h.one hi hj
      · exact absurd (h.listener hi) (Nat.lt_irrefl _)
    · rcases hj with hj | ⟨t', chance', c', heq, hc', -⟩
      · exact absurd (h.listener hj) (Nat.lt_irrefl _)
      · cases heq
        have hbusy := (callOn_eq_some.mp hc).symm.trans (callOn_eq_some.mp hc')
        cases hbusy
        rfl
  · intro i ℓ hi
    rw [hasBound_concat hr hstep] at hi
    rcases hi.elim .inl hnew with hi | ⟨t, chance, c, -, -, rfl, hports⟩
    · exact Nat.lt_of_lt_of_le (h.listener hi) (he.ports_le hocc)
    · rw [hports]
      exact Nat.lt_succ_self _
  · intro i ℓ hi
    rw [hasBound_concat hr hstep] at hi
    rcases hi with hi | ⟨t, c, hc, -⟩
    · exact (he.dropped hocc (h.lock hi)).1
    · obtain ⟨l, hl⟩ := (hw.happened he).orderly.present hc
      exact lock?_lt hl

/-- Who runs a listener has bound it, and no two locks have bound the same one. -/
theorem origins_of_run {terrain : Terrain} (hr : (World.blank terrain).run? es = some w) :
    Origins (.blank terrain) es w :=
  history_of_run (P := Origins (.blank terrain)) (.blank terrain)
    (fun _ _ _ _ hr hw h hstep => h.happened hw hr hstep) hr

end LoopbackLock.World
