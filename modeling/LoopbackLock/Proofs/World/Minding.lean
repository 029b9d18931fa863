import LoopbackLock.Proofs.World.Keeping

/-!
# Who minds the working holders

While the accepting worker of a holder is at work, the holder has a keeper: the lock that stores it,
or the call that has it in hand. For a keeper lets go of a holder only after it has waited for the
worker (`Minded.happened`). So when no call is under way and every lock is idle, no worker is left
behind.
-/

namespace LoopbackLock

namespace World

variable {w w' w₁ : World} {t : ThreadId} {i : LockId} {h : HolderId} {l : PortLock} {e : Event}
variable {s : Settings} {q : Request} {r : Reply} {c : Call}

/-- The accepting worker of the holder is at work. -/
def IsWorking (w : World) (h : HolderId) : Prop := ∃ f, w.fronts[h]? = some f ∧ f.worker ≠ .gone

/-- Whoever waits for an accepting worker waits until it is gone, and until then the holder has a
keeper. -/
structure Minded (w : World) : Prop where
  keeper : ∀ h, w.IsWorking h → 1 ≤ w.keepers h
  joined : ∀ (t : ThreadId) i c h, w.threads[t]? = some (.busy i c) → c.joined? = some h →
    h < w.fronts.length ∧ ¬ w.IsWorking h

theorem Minded.blank (terrain : Terrain) : (World.blank terrain).Minded where
  keeper _ hw := by
    obtain ⟨_, hf, -⟩ := hw
    cases hf
  joined _ _ _ _ ht := by cases ht

theorem Minded.congr (hm : w.Minded) (hlocks : w'.locks = w.locks) (hthreads : w'.threads = w.threads)
    (hfronts : w'.fronts = w.fronts) : w'.Minded := by
  obtain ⟨hkeeper, hjoined⟩ := hm
  constructor
  · unfold IsWorking keepers
    rw [hfronts, hlocks, hthreads]
    exact hkeeper
  · unfold IsWorking
    rw [hfronts, hthreads]
    exact hjoined

/-- A worker is at work from before, or its holder is new. -/
theorem Deal.isWorking (hd : w.Deal s q r w₁) (hw : w₁.IsWorking h) :
    w.IsWorking h ∨ ∃ ℓ, q = .found ℓ ∧ r = .founded h ∧ h = w.fronts.length := by
  obtain ⟨f', hf, hne⟩ := hw
  rcases hd.front_of hf with ⟨f, hf, -, hworker⟩ | ⟨ℓ, hq, hr, hnew, -⟩
  · exact .inl ⟨f, hf, hworker ▸ hne⟩
  · exact .inr ⟨ℓ, hq, hr, hnew⟩

/-- What is served when a call has waited for an accepting worker: the worker is gone. -/
theorem Served.joined_gone (hs : w.Served s (.join h) .done w₁) :
    w₁ = w ∧ h < w.fronts.length ∧ ¬ w.IsWorking h := by
  cases hs
  case joined holder hgone hh =>
    have hf := fronts_getElem? hh
    refine ⟨rfl, (List.getElem?_eq_some_iff.mp hf).1, ?_⟩
    rintro ⟨f, hf', hne⟩
    cases hf.symm.trans hf'
    exact hne hgone

/-- What is known to be over stays over when a request is served. -/
theorem Deal.not_isWorking (hd : w.Deal s q r w₁) (hlen : w.fronts.length ≤ w₁.fronts.length)
    (hdone : h < w.fronts.length ∧ ¬ w.IsWorking h) : h < w₁.fronts.length ∧ ¬ w₁.IsWorking h := by
  refine ⟨Nat.lt_of_lt_of_le hdone.1 hlen, fun hw => ?_⟩
  rcases hd.isWorking hw with hold | ⟨_, -, -, rfl⟩
  · exact hdone.2 hold
  · exact Nat.lt_irrefl _ hdone.1

theorem Minded.threadStep (hm : w.Minded) (hk : w.Kept) (ho : w.Orderly)
    (ht : w.threads[t]? = some (.busy i c)) (hl : w.lock? i = some l)
    (hs : w.Served l.settings (c.request l.settings) r w₁) :
    (w₁.settle t i (l.step t c r).1 (l.step t c r).2).Minded := by
  have hstands : l.Stands t (some c) := callOn_eq_some.mpr ht ▸ ho.stands hl t
  have hfronts : (w₁.settle t i (l.step t c r).1 (l.step t c r).2).fronts = w₁.fronts := by
    rw [settle_eq]; rfl
  have hworking : ∀ h, (w₁.settle t i (l.step t c r).1 (l.step t c r).2).IsWorking h ↔
      w₁.IsWorking h := fun h => by unfold IsWorking; rw [hfronts]
  have hstays := fun {h} => hs.deal.not_isWorking (h := h) hs.fronts_length.2
  have hkeepers : ∀ h, w₁.keepers h = w.keepers h := fun h => by
    unfold keepers; rw [hs.locks, hs.threads]
  constructor
  · intro h hw
    have hsettle := keepers_settle (by rwa [hs.threads]) (by rwa [hs.lock?])
      (l.step t c r).1 (l.step t c r).2 h
    rw [hkeepers] at hsettle
    rcases hs.deal.isWorking ((hworking h).mp hw) with hold | ⟨ℓ, hq, rfl, hnew⟩
    · have hj : c.joined? ≠ some h := fun hj => (hm.joined t i c h ht hj).2 hold
      have hone := hm.keeper h hold
      have hpass := PortLock.keeps_of_step (r := r) hstands hj
      omega
    · have hnone := hk.founded h (Nat.le_of_eq hnew.symm)
      have hlock := le_total (f := slotKeeps h) (getElem?_of_lock? hl)
      have hcall := le_total (f := Activity.keeps h) ht
      have hhas : keeps h ((l.step t c (.founded h)).2.call?.bind Call.holder?) = 1 := by
        rw [PortLock.holder?_founded hq h, keeps_some, if_pos rfl]
      simp only [keepers, slotKeeps, Activity.keeps, Option.bind_some] at hnone hlock hcall
      omega
  · intro t' i' c' h ht' hj
    rw [hfronts, hworking]
    have hset : (w₁.threads.set t ((l.step t c r).2.activity i))[t']? = some (.busy i' c') := by
      rw [settle_eq] at ht'
      exact ht'
    rw [hs.threads] at hset
    rcases getElem?_set_cases hset with ⟨rfl, heq⟩ | ⟨-, hsame⟩
    · rcases hstep : (l.step t c r).2 with c₁ | _ <;> rw [hstep] at heq <;> cases heq
      rcases PortLock.joined?_step hstep hj with hold | ⟨hq, rfl⟩
      · exact hstays (hm.joined t i c h ht hold)
      · rw [hq] at hs
        obtain ⟨rfl, hdone⟩ := hs.joined_gone
        exact hdone
    · exact hstays (hm.joined t' i' c' h hsame hj)

/-- No other event sets an accepting worker to work again. -/
theorem Happened.isWorking (he : w.Happened e w') (hocc : w.occupants = [])
    (hquiet : ∀ t chance, e ≠ .step (.thread t) chance) (hw : w'.IsWorking h) : w.IsWorking h := by
  obtain ⟨f, hf, hne⟩ := hw
  rcases he with ⟨ht, hl, hs⟩ | ⟨hh, hp⟩ | ⟨hh, ha⟩ | ⟨ho', -⟩ | ⟨hl, ht, hfree⟩ | ⟨hl⟩ | s | _ |
    ⟨hc⟩ | ⟨x, d⟩ | ⟨⟨hh, hperm⟩⟩
  case threadStep => exact absurd rfl (hquiet _ _)
  case workerStep h' _ holder next =>
    rw [fronts_setHolder] at hf
    rcases getElem?_set_cases hf with ⟨rfl, -⟩ | ⟨-, hold⟩
    · refine ⟨holder.front, fronts_getElem? hh, ?_⟩
      rcases (Holder.polled_of_poll? hp).front with ⟨-, hbefore, -, -⟩ | ⟨_, hbefore, -, -, -⟩ <;>
        exact hbefore
    · exact ⟨f, hold, hne⟩
  case attendantStep =>
    obtain ⟨a, -, ha⟩ := Holder.attended_of_attend? ha
    rw [fronts_setHolder_same hh ha.front] at hf
    exact ⟨f, hf, hne⟩
  case occupantStep => simp [hocc] at ho'
  case done =>
    obtain ⟨_, hd⟩ := deed_eq w x d
    rw [hd] at hf
    exact ⟨f, hf, hne⟩
  case shuffled =>
    rw [fronts_setHolder_same hh rfl] at hf
    exact ⟨f, hf, hne⟩
  all_goals exact ⟨f, hf, hne⟩

/-- Whatever happens, working holders have keepers. -/
theorem Minded.happened (hm : w.Minded) (hk : w.Kept) (ho : w.Orderly) (hocc : w.occupants = [])
    (he : w.Happened e w') : w'.Minded := by
  obtain ⟨t, chance, rfl⟩ | hquiet := thread_or_quiet e
  · rcases he with ⟨ht, hl, hs⟩
    exact hm.threadStep hk ho ht hl (served_of_serve? hs)
  constructor
  · intro h hw
    rw [keepers_quiet hocc he hquiet]
    exact hm.keeper h (he.isWorking hocc hquiet hw)
  · intro t i c h ht hj
    rw [fronts_length_happened he hquiet]
    rcases he.activity_of hocc ht with ⟨hsame, -⟩ | ⟨chance, _, _, _, _, _, rfl, -⟩ |
      ⟨j, kind, heq⟩ | heq
    · obtain ⟨hlt, hdone⟩ := hm.joined t i c h hsame hj
      exact ⟨hlt, fun hw => hdone (he.isWorking hocc hquiet hw)⟩
    · exact absurd rfl (hquiet _ _)
    · cases heq
      cases kind <;> cases hj
    · cases heq

end World

end LoopbackLock
