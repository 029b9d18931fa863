import LoopbackLock.Proofs.World.Listening
import LoopbackLock.Proofs.World.Order

/-!
# Who keeps the holders

A holder has one keeper at most: the lock that stores it, or the call that has it in hand. Only its
keeper tells a holder to stop. So the holder of a lock that nobody releases or drops is not
stopping, and its listener is open (`Kept.happened`, `Serving`).
-/

namespace LoopbackLock

/-- How often a call has a holder in hand. -/
def Activity.keeps (h : HolderId) : Activity → Nat
  | busy _ c => LoopbackLock.keeps h c.holder?
  | free _ => 0

/-- How often a lock stores a holder. -/
def slotKeeps (h : HolderId) (slot : Option PortLock) : Nat :=
  keeps h (slot.bind (·.state.holder?))

theorem Progress.keeps_activity (h : HolderId) (i : LockId) (p : Progress Call Ending) :
    (p.activity i).keeps h = keeps h (p.call?.bind Call.holder?) := by
  cases p <;> rfl

namespace World

variable {w w' w₁ : World} {t t' : ThreadId} {i j : LockId} {h : HolderId} {l : PortLock}

/-- How many keepers a holder has. -/
def keepers (w : World) (h : HolderId) : Nat :=
  total (slotKeeps h) w.locks + total (Activity.keeps h) w.threads

/-- Every holder has one keeper at most, and has been founded. -/
structure Kept (w : World) : Prop where
  one : ∀ h, w.keepers h ≤ 1
  founded : ∀ h, w.fronts.length ≤ h → w.keepers h = 0

theorem Kept.blank (terrain : Terrain) : (World.blank terrain).Kept where
  one _ := Nat.zero_le 1
  founded _ _ := rfl

theorem getElem?_of_lock? (hl : w.lock? i = some l) : w.locks[i]? = some (some l) := by
  unfold World.lock? at hl
  rcases hi : w.locks[i]? with _ | _ | l'
  · simp [hi] at hl
  · simp [hi] at hl
  · simpa [hi] using hl

theorem slotKeeps_of_state (hs : l.state = .holding h) : slotKeeps h (some l) = 1 := by
  simp [slotKeeps, hs, LockState.holder?]

theorem keeps_of_holder {c : Call} (hc : c.holder? = some h) :
    Activity.keeps h (.busy i c) = 1 := by
  simp [Activity.keeps, hc]

/-- Two locks store different holders. -/
theorem Kept.lock_unique {l' : PortLock} (hk : w.Kept) (hl : w.lock? i = some l)
    (hl' : w.lock? j = some l') (hs : l.state = .holding h) (hs' : l'.state = .holding h) :
    i = j := by
  by_cases hij : i = j
  · exact hij
  · have hpair := pair_le_total (f := slotKeeps h) (getElem?_of_lock? hl) (getElem?_of_lock? hl') hij
    have hone := hk.one h
    rw [slotKeeps_of_state hs, slotKeeps_of_state hs'] at hpair
    unfold keepers at hone
    omega

/-- A lock stores no holder that a call has in hand. -/
theorem Kept.lock_not_call {c : Call} (hk : w.Kept) (hl : w.lock? i = some l)
    (hs : l.state = .holding h) (hc : w.callOn j t = some c) : c.holder? ≠ some h := by
  intro hh
  have hlock := le_total (f := slotKeeps h) (getElem?_of_lock? hl)
  have hcall := le_total (f := Activity.keeps h) (callOn_eq_some.mp hc)
  have hone := hk.one h
  rw [slotKeeps_of_state hs] at hlock
  rw [keeps_of_holder hh] at hcall
  unfold keepers at hone
  omega

/-- Two calls have different holders in hand. -/
theorem Kept.call_unique {c c' : Call} (hk : w.Kept) (hc : w.callOn i t = some c)
    (hc' : w.callOn j t' = some c') (hh : c.holder? = some h) (hh' : c'.holder? = some h) :
    t = t' := by
  by_cases htt : t = t'
  · exact htt
  · have hpair := pair_le_total (f := Activity.keeps h) (callOn_eq_some.mp hc)
      (callOn_eq_some.mp hc') htt
    have hone := hk.one h
    rw [keeps_of_holder hh, keeps_of_holder hh'] at hpair
    unfold keepers at hone
    omega

/-! ## One keeper at most -/

theorem Kept.congr (hk : w.Kept) (hlocks : w'.locks = w.locks) (hthreads : w'.threads = w.threads)
    (hfronts : w'.fronts.length = w.fronts.length) : w'.Kept := by
  have hkeepers : ∀ h, w'.keepers h = w.keepers h := fun h => by
    unfold keepers; rw [hlocks, hthreads]
  exact ⟨fun h => by rw [hkeepers]; exact hk.one h,
    fun h hh => by rw [hkeepers]; exact hk.founded h (hfronts ▸ hh)⟩

theorem keepers_settle {c : Call} (ht : w.threads[t]? = some (.busy i c))
    (hl : w.lock? i = some l) (l' : PortLock) (p : Progress Call Ending) (h : HolderId) :
    (w.settle t i l' p).keepers h + (keeps h l.state.holder? + keeps h c.holder?) =
      w.keepers h +
        (keeps h ((p.slot l').bind (·.state.holder?)) + keeps h (p.call?.bind Call.holder?)) := by
  have hlocks := total_set (f := slotKeeps h) (b := p.slot l') (getElem?_of_lock? hl)
  have hthreads := total_set (f := Activity.keeps h) (b := p.activity i) ht
  rw [Progress.keeps_activity] at hthreads
  rw [settle_eq]
  simp only [keepers, slotKeeps, Activity.keeps, Option.bind_some] at hlocks hthreads ⊢
  omega

theorem Served.fronts_length {s : Settings} {q : Request} {r : Reply} (hs : w.Served s q r w₁) :
    (∀ h, r = .founded h → h = w.fronts.length ∧ w₁.fronts.length = w.fronts.length + 1) ∧
      w.fronts.length ≤ w₁.fronts.length := by
  rcases hs.deal with hb | ℓ | ℓ | hh | ⟨-, hf, -, -, hfronts⟩
  case founded => simp [fronts]
  case quiet => exact ⟨fun h hr => absurd hr (hf h), Nat.le_of_eq (by rw [hfronts])⟩
  all_goals simp [fronts, World.setHolder]

/-- A step of a thread passes holders on. -/
theorem Kept.threadStep {c : Call} {r : Reply} (hk : w.Kept) (ho : w.Orderly)
    (ht : w.threads[t]? = some (.busy i c)) (hl : w.lock? i = some l)
    (hs : w.Served l.settings (c.request l.settings) r w₁) :
    (w₁.settle t i (l.step t c r).1 (l.step t c r).2).Kept := by
  have hstands : l.Stands t (some c) := callOn_eq_some.mpr ht ▸ ho.stands hl t
  obtain ⟨hfounded, hlen⟩ := hs.fronts_length
  have hsettle := fun h => keepers_settle (by rwa [hs.threads]) (by rwa [hs.lock?])
    (l.step t c r).1 (l.step t c r).2 h
  have hstep := fun h => PortLock.keeps_step (r := r) hstands h
  have hkeepers : ∀ h, w₁.keepers h = w.keepers h := fun h => by
    unfold keepers; rw [hs.locks, hs.threads]
  have hfronts : (w₁.settle t i (l.step t c r).1 (l.step t c r).2).fronts = w₁.fronts := by
    rw [settle_eq]; rfl
  constructor
  · intro h
    have h1 := hsettle h
    have h2 := hstep h
    rw [hkeepers] at h1
    by_cases hr : r = .founded h
    · have hnew := hk.founded h (Nat.le_of_eq (hfounded h hr).1.symm)
      rw [if_pos hr] at h2
      omega
    · have hone := hk.one h
      rw [if_neg hr] at h2
      omega
  · intro h hh
    rw [hfronts] at hh
    have h1 := hsettle h
    have h2 := hstep h
    have hold := hk.founded h (Nat.le_trans hlen hh)
    rw [hkeepers] at h1
    by_cases hr : r = .founded h
    · obtain ⟨heq, hmore⟩ := hfounded h hr
      have hlt : w₁.fronts.length = h + 1 := by rw [hmore, heq]
      rw [hlt] at hh
      exact absurd hh (Nat.not_succ_le_self h)
    · rw [if_neg hr] at h2
      omega

theorem thread_or_quiet (e : Event) : (∃ t chance, e = .step (.thread t) chance) ∨
    ∀ t chance, e ≠ .step (.thread t) chance := by
  by_cases h : ∃ t chance, e = .step (.thread t) chance
  · exact .inl h
  · exact .inr fun t chance heq => h ⟨t, chance, heq⟩

/-- Only the steps of threads pass holders on. -/
theorem keepers_quiet {e : Event} (hocc : w.occupants = []) (he : w.Happened e w')
    (hquiet : ∀ t chance, e ≠ .step (.thread t) chance) (h : HolderId) :
    w'.keepers h = w.keepers h := by
  rcases he with ⟨ht, hl, hs⟩ | ⟨hh, hp⟩ | ⟨hh, ha⟩ | ⟨ho', -⟩ | ⟨hl, ht, hfree⟩ | ⟨hl⟩ | s | _ |
    ⟨hc⟩ | ⟨x, d⟩ | ⟨⟨hh, hperm⟩⟩
  case threadStep => exact absurd rfl (hquiet _ _)
  case occupantStep => simp [hocc] at ho'
  case begun t i kind _ _ =>
    have hset := total_set (f := Activity.keeps h) (b := .busy i kind.call) ht
    have hnone : Activity.keeps h (.busy i kind.call) = 0 := by cases kind <;> rfl
    rw [hnone] at hset
    simp only [keepers, Activity.keeps] at hset ⊢
    omega
  case stirred t i l =>
    have hset := total_set (f := slotKeeps h) (b := some { l with gate := l.gate.stir t })
      (getElem?_of_lock? hl)
    simp only [keepers, slotKeeps, Option.bind_some] at hset ⊢
    omega
  case lockMade => simp [keepers, slotKeeps, LockState.holder?]
  case threadMade => simp [keepers, Activity.keeps]
  case done =>
    obtain ⟨_, hd⟩ := deed_eq w x d
    rw [hd]
    rfl
  all_goals rfl

theorem fronts_length_happened {e : Event} (he : w.Happened e w')
    (hquiet : ∀ t chance, e ≠ .step (.thread t) chance) : w'.fronts.length = w.fronts.length := by
  rcases he with ⟨ht, hl, hs⟩ | ⟨hh, hp⟩ | ⟨hh, ha⟩ | ⟨ho', hs⟩ | ⟨hl, ht, hfree⟩ | ⟨hl⟩ | s | _ |
    ⟨hc⟩ | ⟨x, d⟩ | ⟨⟨hh, hperm⟩⟩
  case threadStep => exact absurd rfl (hquiet _ _)
  case workerStep | attendantStep | shuffled => rw [fronts_setHolder, List.length_set]
  case occupantStep =>
    obtain ⟨_, _, rfl⟩ := stepOccupant?_eq_some hs
    rfl
  case done =>
    obtain ⟨_, hd⟩ := deed_eq w x d
    rw [hd]
    rfl
  all_goals rfl

theorem Kept.happened {e : Event} (hk : w.Kept) (ho : w.Orderly) (hocc : w.occupants = [])
    (he : w.Happened e w') : w'.Kept := by
  obtain ⟨t, chance, rfl⟩ | hquiet := thread_or_quiet e
  · rcases he with ⟨ht, hl, hs⟩
    exact hk.threadStep ho ht hl (served_of_serve? hs)
  · have hkeepers := keepers_quiet hocc he hquiet
    exact ⟨fun h => hkeepers h ▸ hk.one h,
      fun h hh => hkeepers h ▸ hk.founded h (fronts_length_happened he hquiet ▸ hh)⟩

/-! ## Holders that are not stopping -/

/-- The holder is there, and was not told to stop. -/
def IsServing (w : World) (h : HolderId) : Prop :=
  ∃ f, w.fronts[h]? = some f ∧ f.stopping = false

/-- The holders that locks and contenders rely on were not told to stop. -/
structure Serving (w : World) : Prop where
  lock : ∀ {i l h}, w.lock? i = some l → l.state = .holding h → ¬ w.IsRetiring i → w.IsServing h
  call : ∀ {i t h}, w.callOn i t = some (.contending (.installing h)) → w.IsServing h
  /-- An accepting worker ends only when it was told to. -/
  alive : ∀ f ∈ w.fronts, f.stopping = false → f.worker ≠ .gone

theorem Deal.isServing {s : Settings} {q : Request} {r : Reply} (hd : w.Deal s q r w₁)
    (hs : w.IsServing h) (hq : q ≠ .stop h) : w₁.IsServing h := by
  obtain ⟨f, hf, hstop⟩ := hs
  refine ⟨f, ?_, hstop⟩
  rcases hd with hb | ℓ | ℓ | @⟨h', holder, hh⟩ | ⟨-, -, -, -, hfronts⟩
  case founded =>
    rw [fronts_founded, List.getElem?_append_left (List.getElem?_eq_some_iff.mp hf).1]
    exact hf
  case stopped =>
    have hne : h' ≠ h := fun heq => hq (by rw [heq])
    rw [fronts_setHolder, List.getElem?_set_ne hne]
    exact hf
  case quiet => rw [hfronts]; exact hf
  all_goals exact hf

/-- A new holder serves. -/
theorem Deal.isServing_founded {s : Settings} {q : Request}
    (hd : w.Deal s q (.founded h) w₁) : w₁.IsServing h := by
  rcases hd with _ | ℓ | _ | _ | ⟨-, hf, -, -, -⟩
  case founded =>
    refine ⟨(Holder.found s ℓ).front, ?_, rfl⟩
    simp [fronts]
  case quiet => exact absurd rfl (hf h)

theorem Deal.alive {s : Settings} {q : Request} {r : Reply} (hd : w.Deal s q r w₁)
    (ha : ∀ f ∈ w.fronts, f.stopping = false → f.worker ≠ .gone) :
    ∀ f ∈ w₁.fronts, f.stopping = false → f.worker ≠ .gone := by
  intro f hf
  rcases hd with hb | ℓ | ℓ | @⟨h', holder, hh⟩ | ⟨-, -, -, -, hfronts⟩
  case founded =>
    rw [fronts_founded] at hf
    rcases List.mem_append.mp hf with hf | hf
    · exact ha f hf
    · rw [List.mem_singleton.mp hf]
      exact fun _ => by simp
  case stopped =>
    rw [fronts_setHolder] at hf
    rcases List.mem_or_eq_of_mem_set hf with hf | rfl
    · exact ha f hf
    · intro hstop; cases hstop
  case quiet => exact ha f (hfronts ▸ hf)
  all_goals exact ha f hf

/-- A call that tells a holder to stop has it in hand, or drops the lock that stores it. -/
theorem stop_keeper {c : Call} {s : Settings} (hstands : l.Stands t (some c))
    (hq : c.request s = .stop h) :
    c.holder? = some h ∨ c.isDrop = true ∧ l.state = .holding h := by
  rcases PortLock.stop_of_request hq with ⟨d, rfl⟩ | ⟨d, rfl⟩
  · exact .inl rfl
  · exact .inr ⟨rfl, hstands⟩

theorem Serving.threadStep {c : Call} {r : Reply} (h : w.Serving) (hk : w.Kept) (ho : w.Orderly)
    (ht : w.threads[t]? = some (.busy i c)) (hl : w.lock? i = some l)
    (hs : w.Served l.settings (c.request l.settings) r w₁) :
    (w₁.settle t i (l.step t c r).1 (l.step t c r).2).Serving := by
  have hc : w.callOn i t = some c := callOn_eq_some.mpr ht
  have hstands : l.Stands t (some c) := hc ▸ ho.stands hl t
  have ht₁ : w₁.threads[t]? = some (.busy i c) := by rwa [hs.threads]
  have hl₁ : w₁.lock? i = some l := by rwa [hs.lock?]
  have hfronts : (w₁.settle t i (l.step t c r).1 (l.step t c r).2).fronts = w₁.fronts := by
    rw [settle_eq]; rfl
  have hcall := callOn_settle ht₁ (l.step t c r).1 (l.step t c r).2
  have hlock := lock?_settle hl₁ t (l.step t c r).1 (l.step t c r).2
  have hserving : ∀ h, w.IsServing h → c.request l.settings ≠ .stop h →
      (w₁.settle t i (l.step t c r).1 (l.step t c r).2).IsServing h := by
    intro h hserve hq
    unfold IsServing
    rw [hfronts]
    exact hs.deal.isServing hserve hq
  constructor
  · intro j l' h' hl' hst hret
    have hret₀ : ¬ w.IsRetiring j := by
      have hret₁ := not_isRetiring_of_settle ht₁ hl₁ hl' hret
      unfold IsRetiring at hret₁ ⊢
      rwa [callOn_congr hs.threads] at hret₁
    rw [hlock] at hl'
    by_cases hji : j = i
    · subst hji
      rw [if_pos rfl] at hl'
      rw [Progress.slot_eq_some hl'] at hst
      rcases PortLock.holding_of_step hst with hst₀ | rfl
      · refine hserving _ (h.lock hl hst₀ hret₀) fun hq => ?_
        rcases stop_keeper hstands hq with hh | ⟨hd, -⟩
        · exact hk.lock_not_call hl hst₀ hc hh
        · exact hret₀ ⟨t, c, hc, hd⟩
      · exact hserving _ (h.call hc) (by simp [Call.request, Contention.request])
    · rw [if_neg hji, hs.lock?] at hl'
      refine hserving _ (h.lock hl' hst hret₀) fun hq => ?_
      rcases stop_keeper hstands hq with hh | ⟨-, hst'⟩
      · exact hk.lock_not_call hl' hst hc hh
      · exact hji (hk.lock_unique hl' hl hst hst')
  · intro j t' h' hc'
    rw [hcall] at hc'
    by_cases htt : t' = t
    · rw [if_pos htt] at hc'
      split at hc'
      · rcases PortLock.installing_of_step (Progress.call?_eq_some hc') with rfl | rfl
        · exact hserving _ (h.call hc) (by simp [Call.request, Contention.request])
        · unfold IsServing
          rw [hfronts]
          exact hs.deal.isServing_founded
      · cases hc'
    · rw [if_neg htt, hs.callOn] at hc'
      refine hserving _ (h.call hc') fun hq => ?_
      rcases stop_keeper hstands hq with hh | ⟨-, hst⟩
      · exact htt (hk.call_unique hc' hc rfl hh)
      · exact hk.lock_not_call hl hst hc' rfl
  · rw [hfronts]
    exact hs.deal.alive h.alive

/-- Locks, contenders and fronts that were there before serve as they did. -/
theorem Serving.of_fronts (h : w.Serving) (hf : w'.fronts = w.fronts)
    (hlock : ∀ {i l h}, w'.lock? i = some l → l.state = .holding h →
      ∃ l₀, w.lock? i = some l₀ ∧ l₀.state = .holding h)
    (hcall : ∀ {i t h}, w'.callOn i t = some (.contending (.installing h)) →
      w.callOn i t = some (.contending (.installing h)))
    (hret : ∀ {i}, w.IsRetiring i → w'.IsRetiring i) : w'.Serving := by
  have hserving : w'.IsServing = w.IsServing := by funext h; unfold IsServing; rw [hf]
  constructor
  · intro i l h' hl hst hnot
    obtain ⟨l₀, hl₀, hst₀⟩ := hlock hl hst
    rw [hserving]
    exact h.lock hl₀ hst₀ fun hr => hnot (hret hr)
  · intro i t h' hc
    rw [hserving]
    exact h.call (hcall hc)
  · rw [hf]; exact h.alive

theorem Serving.congr (h : w.Serving) (hl : w'.locks = w.locks) (ht : w'.threads = w.threads)
    (hf : w'.fronts = w.fronts) : w'.Serving := by
  refine h.of_fronts hf (fun hl' hst => ⟨_, ?_, hst⟩) (fun hc => ?_) fun hr => ?_
  · rwa [← lock?_congr hl]
  · rwa [← callOn_congr ht]
  · unfold IsRetiring; rw [callOn_congr ht]; exact hr

/-- An accepting worker leaves the flag of its holder as it is. -/
theorem IsServing.workerStep {k : HolderId} {holder : Holder} {next : Holder × Network}
    (h₁ : w.IsServing h) (hh : w.holders[k]? = some holder)
    (hp : holder.Polled w.network next.1 next.2) : (w.setHolder k next).IsServing h := by
  obtain ⟨f, hf, hstop⟩ := h₁
  unfold IsServing
  rw [fronts_setHolder, getElem?_set_some (fronts_getElem? hh)]
  by_cases hhk : h = k
  · subst hhk
    obtain rfl := Option.some.inj (hf.symm.trans (fronts_getElem? hh))
    rw [if_pos rfl]
    refine ⟨_, rfl, Eq.trans ?_ hstop⟩
    rcases hp.front with ⟨-, -, hf, -⟩ | ⟨_, -, -, hf, -⟩ <;> rw [hf]
  · rw [if_neg hhk]
    exact ⟨f, hf, hstop⟩

theorem Serving.workerStep {k : HolderId} {holder : Holder} {next : Holder × Network}
    (h : w.Serving) (hh : w.holders[k]? = some holder)
    (hp : holder.Polled w.network next.1 next.2) : (w.setHolder k next).Serving := by
  have hflag : next.1.front.stopping = holder.front.stopping := by
    rcases hp.front with ⟨-, -, hf, -⟩ | ⟨_, -, -, hf, -⟩ <;> rw [hf]
  have hserving : ∀ h, w.IsServing h → (w.setHolder k next).IsServing h := fun _ hs =>
    hs.workerStep hh hp
  constructor
  · intro i l h' hl hst hret; exact hserving _ (h.lock hl hst hret)
  · intro i t h' hc; exact hserving _ (h.call hc)
  · intro f hf
    rw [fronts_setHolder] at hf
    rcases List.mem_or_eq_of_mem_set hf with hf | rfl
    · exact h.alive f hf
    · intro hstop
      rcases hp.front with ⟨htold, -, -, -⟩ | ⟨worker, -, hworker, hf, -⟩
      · rw [hflag] at hstop
        cases hstop.symm.trans htold
      · rw [hf]; exact hworker

theorem Serving.happened {e : Event} (h : w.Serving) (hk : w.Kept) (ho : w.Orderly)
    (hocc : w.occupants = []) (he : w.Happened e w') : w'.Serving := by
  rcases he with ⟨ht, hl, hs⟩ | ⟨hh, hp⟩ | ⟨hh, ha⟩ | ⟨ho', -⟩ | ⟨hl, ht, hfree⟩ | ⟨hl⟩ | s | _ |
    ⟨hc⟩ | ⟨x, d⟩ | ⟨⟨hh, hperm⟩⟩
  case threadStep => exact h.threadStep hk ho ht hl (served_of_serve? hs)
  case workerStep => exact h.workerStep hh (Holder.polled_of_poll? hp)
  case attendantStep =>
    obtain ⟨a, -, ha⟩ := Holder.attended_of_attend? ha
    exact h.congr rfl rfl (fronts_setHolder_same hh ha.front)
  case occupantStep => simp [hocc] at ho'
  case begun t i kind _ _ =>
    have hcall := callOn_set ht (.busy i kind.call)
    refine h.of_fronts rfl (fun hl' hst => ⟨_, hl', hst⟩) (fun hc => ?_) fun hr => hr.begun ht _
    rw [hcall] at hc
    split at hc
    · simp only at hc
      split at hc
      · cases kind <;> cases hc
      · cases hc
    · exact hc
  case stirred =>
    refine h.of_fronts rfl (fun hl' hst => ?_) id id
    obtain ⟨l₀, hl₀, asleep, rfl⟩ := lock?_stirred hl hl'
    exact ⟨l₀, hl₀, hst⟩
  case lockMade =>
    refine h.of_fronts rfl (fun hl' hst => ?_) id id
    rcases lock?_lockMade hl' with hl' | ⟨-, rfl⟩
    · exact ⟨_, hl', hst⟩
    · cases hst
  case threadMade =>
    have hcall := callOn_threadMade w
    refine h.of_fronts rfl (fun hl' hst => ⟨_, hl', hst⟩) (fun hc => ?_) fun hr => ?_
    · rwa [hcall] at hc
    · unfold IsRetiring; rwa [hcall]
  case called => exact h.congr rfl rfl rfl
  case done =>
    obtain ⟨_, hd⟩ := deed_eq w x d
    rw [hd]
    exact h.congr rfl rfl rfl
  case shuffled => exact h.congr rfl rfl (fronts_setHolder_same hh rfl)

end World

end LoopbackLock
