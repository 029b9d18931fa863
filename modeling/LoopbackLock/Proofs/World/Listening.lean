import LoopbackLock.Proofs.Total
import LoopbackLock.Proofs.World.Front

/-!
# Who has the open listeners

Every open listener is in one pair of hands: a contender's that has just bound it, or those of a
holder whose accepting worker is not gone. No closed listener is in anybody's hands
(`Claimed.happened`). So nobody closes a listener that another one still works with.
-/

namespace LoopbackLock

/-- How often a holder has a listener. -/
def Front.claims (ℓ : ListenerId) (f : Front) : Nat :=
  if f.listener = ℓ ∧ f.worker ≠ .gone then 1 else 0

/-- How often a call has a listener in hand. -/
def Activity.claims (ℓ : ListenerId) : Activity → Nat
  | busy _ c => keeps ℓ c.listener?
  | free _ => 0

theorem Progress.claims_activity (ℓ : ListenerId) (i : LockId) (p : Progress Call Ending) :
    (p.activity i).claims ℓ = keeps ℓ (p.call?.bind Call.listener?) := by
  cases p <;> rfl

namespace World

variable {w w' w₁ : World} {t : ThreadId} {i : LockId} {ℓ : ListenerId}

/-- How often a listener is in somebody's hands. -/
def claims (w : World) (ℓ : ListenerId) : Nat :=
  total (Activity.claims ℓ) w.threads + total (Front.claims ℓ) w.fronts

/-- Every open listener is in one pair of hands, and no closed one is in any. -/
def Claimed (w : World) : Prop := ∀ ℓ, w.claims ℓ = (w.network.isListening ℓ).toNat

theorem Claimed.congr (h : w.Claimed) (ht : w'.threads = w.threads) (hf : w'.fronts = w.fronts)
    (hp : w'.network.ports = w.network.ports) : w'.Claimed := by
  intro ℓ
  unfold claims
  rw [ht, hf, Network.isListening_congr hp]
  exact h ℓ

theorem claims_settle {c : Call} {l : PortLock} {p : Progress Call Ending}
    (ht : w.threads[t]? = some (.busy i c)) :
    (w.settle t i l p).claims ℓ + keeps ℓ c.listener? =
      w.claims ℓ + keeps ℓ (p.call?.bind Call.listener?) := by
  have htotal := total_set (f := Activity.claims ℓ) (b := p.activity i) ht
  rw [Progress.claims_activity] at htotal
  rw [settle_eq]
  simp only [claims, fronts, Activity.claims] at htotal ⊢
  omega

@[simp] theorem network_settle (l : PortLock) (p : Progress Call Ending) :
    (w.settle t i l p).network = w.network := by
  rw [settle_eq]

/-- Serving a request, and what the call then has in hand, change the claims alike. -/
theorem Claimed.served {c : Call} {l : PortLock} {r : Reply} (h : w.Claimed)
    (ht : w.threads[t]? = some (.busy i c))
    (hs : w.Served l.settings (c.request l.settings) r w₁) (ℓ : ListenerId) :
    w₁.claims ℓ + keeps ℓ ((l.step t c r).2.call?.bind Call.listener?) =
      (w₁.network.isListening ℓ).toNat + keeps ℓ c.listener? := by
  have hold : w.claims ℓ = (w.network.isListening ℓ).toNat := h ℓ
  have hthreads := hs.threads
  have hdeal := hs.deal
  generalize hq : c.request l.settings = q at hdeal
  unfold claims at hold ⊢
  rw [hthreads]
  rcases hdeal with hb | ℓ' | ℓ' | @⟨_, holder, hh⟩ | ⟨hb, hf, hu, hports, hfronts⟩
  case bound ℓ' n =>
    obtain ⟨hnone, hsome⟩ := PortLock.listener?_bound (l := l) (t := t) hq ℓ'
    obtain ⟨hfresh, hopen⟩ := Network.isListening_bind hb ℓ
    rw [hnone, hsome, hopen]
    have hfronts : ({ w with network := n } : World).fronts = w.fronts := rfl
    rw [hfronts, hold, keeps_some, keeps_none]
    by_cases hℓ : ℓ = ℓ'
    · subst hℓ; simp [hfresh]
    · simp [hℓ, Ne.symm hℓ]
  case founded =>
    obtain ⟨hsome, hnone⟩ := PortLock.listener?_founded (l := l) (t := t) hq w.holders.length
    rw [hnone, hsome, fronts_founded, total_append, keeps_some, keeps_none]
    have hnew : total (Front.claims ℓ) [⟨ℓ', .checking, false⟩] = if ℓ' = ℓ then 1 else 0 := by
      simp [Front.claims]
    rw [hnew]
    show _ = (w.network.isListening ℓ).toNat + _
    omega
  case unbound =>
    obtain ⟨hsome, hnone⟩ := PortLock.listener?_unbound (l := l) (t := t) hq
    rw [hnone, hsome, keeps_some, keeps_none, Network.isListening_unbind]
    show total _ _ + total (Front.claims ℓ) w.fronts + 0 = _
    by_cases hℓ : ℓ' = ℓ
    · have hclaim : keeps ℓ c.listener? ≤ total (Activity.claims ℓ) w.threads :=
        le_total (f := Activity.claims ℓ) ht
      rw [hsome, hℓ] at hclaim
      rw [hold, if_pos hℓ]
      rcases hlis : w.network.isListening ℓ with _ | _
      · simp only [hlis, Bool.toNat_false] at hold
        simp only [keeps_some, if_true] at hclaim
        omega
      · simp [hℓ]
    · rw [hold, if_neg hℓ]
      simp [Ne.symm hℓ]
  case stopped =>
    have hset := total_set (f := Front.claims ℓ)
      (b := ({ holder with stopping := true } : Holder).front) (fronts_getElem? hh)
    have hsame := PortLock.listener?_step (l := l) (t := t) (c := c) (r := .done) (by simp)
      (by simp) (by simp [hq])
    have hclaims : Front.claims ℓ ({ holder with stopping := true } : Holder).front =
        Front.claims ℓ holder.front := rfl
    rw [hsame, fronts_setHolder]
    show total _ _ + total (Front.claims ℓ) (w.fronts.set _
      ({ holder with stopping := true } : Holder).front) + _ = (w.network.isListening ℓ).toNat + _
    omega
  case quiet =>
    have hsame := PortLock.listener?_step (l := l) (t := t) (c := c) hb hf
      fun ℓ hℓ => hu ℓ (hq.symm.trans hℓ)
    rw [hsame, hfronts, Network.isListening_congr hports, hold]

/-- A step of a thread passes listeners on. -/
theorem Claimed.threadStep {c : Call} {l : PortLock} {r : Reply} (h : w.Claimed)
    (ht : w.threads[t]? = some (.busy i c))
    (hs : w.Served l.settings (c.request l.settings) r w₁) :
    (w₁.settle t i (l.step t c r).1 (l.step t c r).2).Claimed := by
  intro ℓ
  have hsettle := claims_settle (w := w₁) (l := (l.step t c r).1) (p := (l.step t c r).2)
    (ℓ := ℓ) (hs.threads.symm ▸ ht)
  have hserved := h.served ht hs ℓ
  rw [network_settle]
  omega

/-- An accepting worker that ends closes its listener. -/
theorem Claimed.workerStep {k : HolderId} {holder : Holder} {next : Holder × Network}
    (h : w.Claimed) (hh : w.holders[k]? = some holder)
    (hp : holder.Polled w.network next.1 next.2) : (w.setHolder k next).Claimed := by
  intro ℓ
  have hold : w.claims ℓ = (w.network.isListening ℓ).toNat := h ℓ
  have hset := total_set (f := Front.claims ℓ) (b := next.1.front) (fronts_getElem? hh)
  have hle : Front.claims ℓ holder.front ≤ total (Front.claims ℓ) w.fronts :=
    le_total (fronts_getElem? hh)
  unfold claims at hold ⊢
  rw [fronts_setHolder]
  show total (Activity.claims ℓ) w.threads + _ = (next.2.isListening ℓ).toNat
  rcases hp.front with ⟨-, hw, hf, hports⟩ | ⟨worker, hw, hworker, hf, hports⟩
  · rw [Network.isListening_congr hports, Network.isListening_unbind]
    have hgone : Front.claims ℓ next.1.front = 0 := by rw [hf]; simp [Front.claims]
    by_cases hℓ : holder.listener = ℓ
    · have hclaim : Front.claims ℓ holder.front = 1 := by
        unfold Front.claims Holder.front
        rw [if_pos ⟨hℓ, hw⟩]
      have hbit := Bool.toNat_le (w.network.isListening ℓ)
      simp only [hℓ, ne_eq, not_true_eq_false, decide_false, Bool.and_false, Bool.toNat_false]
      omega
    · have hclaim : Front.claims ℓ holder.front = 0 := by
        unfold Front.claims Holder.front
        rw [if_neg fun h => hℓ h.1]
      simp only [ne_eq, Ne.symm hℓ, not_false_eq_true, decide_true, Bool.and_true]
      omega
  · have hsame : Front.claims ℓ next.1.front = Front.claims ℓ holder.front := by
      rw [hf]
      unfold Front.claims Holder.front
      simp [hw, hworker]
    rw [Network.isListening_congr hports]
    omega

theorem deed_ports (w : World) (x : LinkId) (d : Deed) :
    (w.deed x d).network.ports = w.network.ports := by
  unfold World.deed
  split
  · split
    · next hw => exact Network.ports_write hw
    · rfl
  · rfl
  · split
    · next hf => exact Network.ports_finish hf
    · rfl
  · rfl

theorem Claimed.happened {e : Event} (h : w.Claimed) (ho : w.occupants = [])
    (he : w.Happened e w') : w'.Claimed := by
  rcases he with ⟨ht, hl, hs⟩ | ⟨hh, hp⟩ | ⟨hh, ha⟩ | ⟨ho', -⟩ | ⟨hl, ht, hfree⟩ | ⟨hl⟩ | s | _ |
    ⟨hc⟩ | ⟨x, d⟩ | ⟨⟨hh, hperm⟩⟩
  case threadStep => exact h.threadStep ht (served_of_serve? hs)
  case workerStep => exact h.workerStep hh (Holder.polled_of_poll? hp)
  case attendantStep =>
    obtain ⟨a, -, ha⟩ := Holder.attended_of_attend? ha
    exact h.congr rfl (fronts_setHolder_same hh ha.front) ha.ports
  case occupantStep => simp [ho] at ho'
  case begun t i kind _ _ =>
    intro ℓ
    have hset := total_set (f := Activity.claims ℓ) (b := .busy i kind.call) ht
    have hfree : Activity.claims ℓ (.busy i kind.call) = 0 := by cases kind <;> rfl
    rw [hfree] at hset
    have hold : total (Activity.claims ℓ) w.threads + total (Front.claims ℓ) w.fronts =
      (w.network.isListening ℓ).toNat := h ℓ
    show total (Activity.claims ℓ) (w.threads.set t (.busy i kind.call)) +
      total (Front.claims ℓ) w.fronts = (w.network.isListening ℓ).toNat
    simp only [Activity.claims, Nat.add_zero] at hset
    omega
  case stirred => exact h.congr rfl rfl rfl
  case lockMade => exact h.congr rfl rfl rfl
  case threadMade =>
    intro ℓ
    show total (Activity.claims ℓ) (w.threads ++ [.free none]) + total (Front.claims ℓ) w.fronts = _
    rw [total_append]
    exact h ℓ
  case called => exact h.congr rfl rfl (Network.ports_connect hc)
  case done =>
    obtain ⟨_, hd⟩ := deed_eq w x d
    exact h.congr (by rw [hd]) (by rw [hd]; rfl) (deed_ports w x d)
  case shuffled => exact h.congr rfl (fronts_setHolder_same hh rfl) rfl

end World

end LoopbackLock
