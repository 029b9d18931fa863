import LoopbackLock.Proofs.Estate.Clearing
import LoopbackLock.Proofs.Estate.Settled
import LoopbackLock.Proofs.Lock.Farewell
import LoopbackLock.Proofs.Network.Delivery
import LoopbackLock.Proofs.World.Exclusion
import LoopbackLock.Proofs.World.Minding
import LoopbackLock.Proofs.World.Regular

/-!
# The worlds that come about

`Steady` gathers what is needed of the worlds that come about; every event keeps it
(`Steady.happened`), also one that makes a registry yield its entries in another order. `Goes` is a
run with what a thread asks of the system along it and what the replies are.
-/

namespace LoopbackLock

namespace Network

variable {n n' : Network} {ℓ ℓ' : ListenerId}

/-- The listener was there and is closed, which it stays. -/
def IsClosed (n : Network) (ℓ : ListenerId) : Prop :=
  ℓ < n.ports.length ∧ n.isListening ℓ = false

theorem IsClosed.congr (h : n.IsClosed ℓ) (hp : n'.ports = n.ports) : n'.IsClosed ℓ := by
  rw [IsClosed, hp, isListening_congr hp]
  exact h

theorem IsClosed.bind {e : Endpoint} (h : n.IsClosed ℓ) (hb : n.bind e = .ok (ℓ', n')) :
    n'.IsClosed ℓ := by
  obtain ⟨rfl, hp⟩ := ports_bind hb
  refine ⟨by rw [hp, List.length_append]; exact Nat.lt_add_right _ h.1, ?_⟩
  rw [(isListening_bind hb ℓ).2, h.2, decide_eq_false (Nat.ne_of_lt h.1)]
  rfl

theorem IsClosed.unbind (h : n.IsClosed ℓ) (ℓ' : ListenerId) : (n.unbind ℓ').IsClosed ℓ := by
  refine ⟨by rw [ports_unbind, List.length_modify]; exact h.1, ?_⟩
  rw [isListening_unbind, h.2]
  rfl

/-- Closing an open listener closes it for good. -/
theorem isClosed_unbind (h : n.isListening ℓ = true) : (n.unbind ℓ).IsClosed ℓ := by
  have hlt : ℓ < n.ports.length := by
    refine Nat.lt_of_not_le fun hle => ?_
    rw [isListening, List.getElem?_eq_none hle] at h
    cases h
  refine ⟨by rw [ports_unbind, List.length_modify]; exact hlt, ?_⟩
  rw [isListening_unbind, decide_eq_false fun hne => hne rfl, Bool.and_false]

end Network

namespace World

variable {w w' w₀ w₁ : World} {e : Event} {es : List Event} {t : ThreadId} {ℓ : ListenerId}
variable {s : Settings} {q : Request} {r : Reply} {x : LinkId}

/-! ## Listeners that are closed for good -/

/-- Where the accepting worker is gone, the listener is closed. -/
def Closed (w : World) : Prop :=
  ∀ f ∈ w.fronts, f.worker = .gone → w.network.IsClosed f.listener

theorem Closed.congr (h : w.Closed) (hf : w'.fronts = w.fronts)
    (hp : w'.network.ports = w.network.ports) : w'.Closed := by
  intro f hmem hgone
  rw [hf] at hmem
  exact (h f hmem hgone).congr hp

theorem Deal.isClosed (hd : w.Deal s q r w₁) (h : w.network.IsClosed ℓ) :
    w₁.network.IsClosed ℓ := by
  cases hd
  case bound hb => exact h.bind hb
  case unbound ℓ' => exact h.unbind ℓ'
  case quiet hports hfronts => exact h.congr hports
  all_goals exact h

theorem Closed.threadStep {i : LockId} {c : Call} {l : PortLock} (h : w.Closed)
    (hs : w.Served l.settings (c.request l.settings) r w₁) :
    (w₁.settle t i (l.step t c r).1 (l.step t c r).2).Closed := by
  have hfronts : (w₁.settle t i (l.step t c r).1 (l.step t c r).2).fronts = w₁.fronts := by
    rw [settle_eq]; rfl
  intro f hmem hgone
  rw [network_settle]
  rw [hfronts] at hmem
  obtain ⟨k, hk⟩ := List.getElem?_of_mem hmem
  rcases hs.deal.front_of hk with ⟨f₀, hf₀, hlistener, hworker⟩ | ⟨ℓ, -, -, -, rfl⟩
  · rw [hlistener]
    exact hs.deal.isClosed (h f₀ (List.mem_of_getElem? hf₀) (hworker.symm.trans hgone))
  · cases hgone

theorem Closed.workerStep {k : HolderId} {holder : Holder} {next : Holder × Network}
    (h : w.Closed) (hclaimed : w.Claimed) (hh : w.holders[k]? = some holder)
    (hp : holder.Polled w.network next.1 next.2) : (w.setHolder k next).Closed := by
  intro f hmem hgone
  rw [fronts_setHolder] at hmem
  show next.2.IsClosed f.listener
  rcases hp.front with ⟨-, hw, hf, hports⟩ | ⟨worker, hw, hworker, hf, hports⟩
  · have hopen := hclaimed.isListening (fronts_getElem? hh) hw
    refine Network.IsClosed.congr ?_ hports
    rcases List.mem_or_eq_of_mem_set hmem with hmem | rfl
    · exact (h f hmem hgone).unbind _
    · rw [hf]
      exact Network.isClosed_unbind hopen
  · refine Network.IsClosed.congr ?_ hports
    rcases List.mem_or_eq_of_mem_set hmem with hmem | rfl
    · exact h f hmem hgone
    · rw [hf] at hgone
      exact absurd hgone hworker

theorem Closed.happened (h : w.Closed) (hclaimed : w.Claimed) (hocc : w.occupants = [])
    (he : w.Happened e w') : w'.Closed := by
  rcases he with ⟨ht, hl, hs⟩ | ⟨hh, hp⟩ | ⟨hh, ha⟩ | ⟨ho', -⟩ | ⟨hl, ht, hfree⟩ | ⟨hl⟩ | s | _ |
    ⟨hc⟩ | ⟨x, d⟩ | ⟨⟨hh, hperm⟩⟩
  case threadStep => exact h.threadStep (served_of_serve? hs)
  case workerStep => exact h.workerStep hclaimed hh (Holder.polled_of_poll? hp)
  case attendantStep =>
    obtain ⟨a, -, ha⟩ := Holder.attended_of_attend? ha
    exact h.congr (fronts_setHolder_same hh ha.front) ha.ports
  case occupantStep => simp [hocc] at ho'
  case called => exact h.congr rfl (Network.ports_connect hc)
  case done =>
    obtain ⟨_, hd⟩ := deed_eq w x d
    exact h.congr (by rw [hd]; rfl) (deed_ports w x d)
  case shuffled => exact h.congr (fronts_setHolder_same hh rfl) rfl
  all_goals exact h.congr rfl rfl

/-- All that is needed of the worlds that come about. -/
structure Steady (w : World) : Prop where
  regular : w.Regular
  claimed : w.Claimed
  closed : w.Closed
  minded : w.Minded
  cleared : w.estate.Cleared
  manned : w.estate.Manned
  received : w.network.Received

theorem Steady.blank (terrain : Terrain) : (World.blank terrain).Steady where
  regular := .blank terrain
  claimed _ := rfl
  closed _ hf := by cases hf
  minded := .blank terrain
  cleared := .blank terrain
  manned := .blank terrain
  received _ hl := by cases hl

theorem Steady.happened (h : w.Steady) (he : w.Happened e w') : w'.Steady where
  regular := h.regular.happened he
  claimed := h.claimed.happened h.regular.unoccupied he
  closed := h.closed.happened h.claimed h.regular.unoccupied he
  minded := h.minded.happened h.regular.kept h.regular.orderly h.regular.unoccupied he
  cleared := h.cleared.moves h.regular.registered h.regular.stopped (h.regular.moves he)
  manned := h.manned.moves (h.regular.moves he)
  received := h.received.evolves (he.evolves h.regular.unoccupied h.regular.accounted)

theorem Steady.run (h : w.Steady) (hr : w.run? es = some w') : w'.Steady :=
  foldlM_invariant (fun _ _ _ _ h he => h.happened (happened_of_happen? he)) h hr

/-! ## Runs -/

/-- A holder keeps its number and its listener. -/
theorem Regular.listener_of_run {h : HolderId} {holder : Holder} (hw : w.Regular)
    (hr : w.run? es = some w') (hh : w.holders[h]? = some holder) :
    ∃ holder', w'.holders[h]? = some holder' ∧ holder'.listener = holder.listener := by
  refine hw.run_invariant (P := fun v => ∃ holder', v.holders[h]? = some holder' ∧
    holder'.listener = holder.listener) ?_ ⟨holder, hh, rfl⟩ hr
  rintro v e v' hv ⟨holder₁, hh₁, hsame⟩ he
  obtain ⟨holder₂, hh₂, hturns⟩ := (hv.moves he).turns hh₁
  exact ⟨holder₂, hh₂, hturns.listener.trans hsame⟩

/-- What a thread's next step asks of the system, and the reply. -/
def exchange? (w : World) (t : ThreadId) (chance : Chance) : Option Exchange :=
  match w.threads[t]? with
  | some (.busy i c) => do
    let l ← w.lock? i
    let (r, _) ← w.serve? l.settings chance (c.request l.settings)
    some (c.request l.settings, r)
  | _ => none

/-- A run on which a thread begins no other call: what it has asked of the system, and the
replies. -/
inductive Goes (t : ThreadId) (w₀ : World) : List Exchange → World → Prop
  | start : Goes t w₀ [] w₀
  | own {es : List Exchange} {w w' : World} {chance : Chance} {x : Exchange} (h : Goes t w₀ es w)
      (hx : w.exchange? t chance = some x) (he : w.step? (.thread t) chance = some w') :
    Goes t w₀ (es ++ [x]) w'
  | other {es : List Exchange} {w w' : World} {e : Event} (h : Goes t w₀ es w)
      (hstep : ∀ chance, e ≠ .step (.thread t) chance) (hbegin : ∀ i kind, e ≠ .begins t i kind)
      (he : w.happen? e = some w') : Goes t w₀ es w'

/-- A thread that makes a step has asked for something. -/
theorem exchange?_of_step {chance : Chance} (he : w.step? (.thread t) chance = some w') :
    ∃ x, w.exchange? t chance = some x := by
  obtain ⟨i, c, l, r, w₁, ht, hl, hs, -⟩ := stepThread?_eq_some he
  refine ⟨(c.request l.settings, r), ?_⟩
  unfold exchange?
  rw [ht]
  simp only [hl, hs, Option.bind_eq_bind, Option.bind_some]

theorem exchange?_of_free {chance : Chance} {last : Option Ending}
    (ht : w.threads[t]? = some (.free last)) : w.exchange? t chance = none := by
  unfold exchange?
  rw [ht]

/-- Each run on which the thread begins no call tells what it has asked for. -/
theorem goes_of_run (hr : w.run? es = some w')
    (hbegin : ∀ e ∈ es, ∀ i kind, e ≠ .begins t i kind) : ∃ xs, w.Goes t xs w' := by
  refine foldlM_invariant (P := fun w' => ∃ xs, w.Goes t xs w') ?_ ⟨[], .start⟩ hr
  rintro w₁ e w₂ he ⟨xs, hg⟩ hstep
  by_cases hown : ∃ chance, e = .step (.thread t) chance
  · obtain ⟨chance, rfl⟩ := hown
    obtain ⟨x, hx⟩ := exchange?_of_step hstep
    exact ⟨xs ++ [x], hg.own hx hstep⟩
  · exact ⟨xs, hg.other (fun chance heq => hown ⟨chance, heq⟩) (hbegin e he) hstep⟩

theorem Goes.run {xs : List Exchange} (h : w₀.Goes t xs w) : ∃ es, w₀.run? es = some w := by
  have hone : ∀ {es : List Event} {e : Event} {v v' : World}, w₀.run? es = some v →
      v.happen? e = some v' → w₀.run? (es ++ [e]) = some v' := by
    intro es e v v' hr he
    rw [run?_append, hr, Option.bind_some, run?_cons, he]
    rfl
  induction h with
  | start => exact ⟨[], rfl⟩
  | own _ _ he ih =>
    obtain ⟨es, hr⟩ := ih
    exact ⟨_, hone (e := .step (.thread t) _) hr he⟩
  | other _ _ _ he ih =>
    obtain ⟨es, hr⟩ := ih
    exact ⟨_, hone hr he⟩

theorem Steady.goes {xs : List Exchange} (h : w₀.Steady) (hg : w₀.Goes t xs w) : w.Steady := by
  obtain ⟨es, hr⟩ := hg.run
  exact h.run hr

/-- A run can be split at each step that its thread makes. -/
theorem Goes.split {front back : List Exchange} {x : Exchange}
    (h : w₀.Goes t (front ++ x :: back) w) :
    ∃ w₁ w₂ chance, w₀.Goes t front w₁ ∧ w₁.exchange? t chance = some x ∧
      w₁.step? (.thread t) chance = some w₂ ∧ w₂.Goes t back w := by
  generalize hes : front ++ x :: back = es at h
  induction h generalizing back with
  | start => cases (List.append_eq_nil_iff.mp hes).2
  | @own es w w' chance y h hy he ih =>
    rcases List.eq_nil_or_concat back with rfl | ⟨back, y', rfl⟩
    · obtain ⟨rfl, hlast⟩ := List.append_inj' hes rfl
      cases hlast
      exact ⟨w, w', chance, h, hy, he, .start⟩
    · rw [List.concat_eq_append, ← List.cons_append, ← List.append_assoc] at hes
      obtain ⟨hfront, hlast⟩ := List.append_inj' hes rfl
      cases hlast
      obtain ⟨w₁, w₂, chance', h₁, hx, hstep, h₂⟩ := ih hfront
      rw [List.concat_eq_append]
      exact ⟨w₁, w₂, chance', h₁, hx, hstep, h₂.own hy he⟩
  | other _ hstep hbegin he ih =>
    obtain ⟨w₁, w₂, chance, h₁, hx, hmade, h₂⟩ := ih hes
    exact ⟨w₁, w₂, chance, h₁, hx, hmade, h₂.other hstep hbegin he⟩

end World

end LoopbackLock
