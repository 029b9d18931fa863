import LoopbackLock.Exchange.Chance
import LoopbackLock.Proofs.Table

/-!
# Which ports are listened at

`Network.ports` is all of a network that decides who can listen. Binding adds an open listener to it,
unbinding closes one, and nothing else that happens on a network changes it.
-/

namespace LoopbackLock.Network

variable {n n' : Network} {ℓ ℓ' : ListenerId} {x : LinkId} {side : Side} {e : Endpoint}

/-- The endpoints of the listeners, and which listeners are open. -/
def ports (n : Network) : List (Endpoint × Bool) := n.listeners.map fun l => (l.endpoint, l.isOpen)

/-- The listener is open. -/
def isListening (n : Network) (ℓ : ListenerId) : Bool := (n.ports[ℓ]?).any (·.2)

theorem isListening_congr (h : n'.ports = n.ports) : n'.isListening ℓ = n.isListening ℓ := by
  unfold isListening; rw [h]

theorem isListening_eq (n : Network) (ℓ : ListenerId) :
    n.isListening ℓ = (n.listeners[ℓ]?).any (·.isOpen) := by
  unfold isListening ports
  rw [List.getElem?_map]
  cases n.listeners[ℓ]? <;> rfl

/-! ## What leaves the ports alone -/

@[simp] theorem ports_modifyLink (f : Link → Link) : (n.modifyLink x f).ports = n.ports := rfl

theorem ports_modifyListener {f : Listener → Listener}
    (hf : ∀ l, ((f l).endpoint, (f l).isOpen) = (l.endpoint, l.isOpen)) :
    (n.modifyListener ℓ f).ports = n.ports := by
  unfold ports modifyListener
  refine List.ext_getElem? fun i => ?_
  simp only [List.getElem?_map, List.getElem?_modify]
  cases n.listeners[i]? with
  | none => rfl
  | some l => by_cases hi : ℓ = i <;> simp [hi, hf]

@[simp] theorem ports_release : (n.release x side).ports = n.ports := rfl

/-- What holds and is kept by giving up one handle holds once all are given up. -/
theorem releaseAll_induction {P : Network → Prop} (n : Network) (xs : List LinkId) (h : P n)
    (hrelease : ∀ n, ∀ x ∈ xs, P n → P (n.release x .callee)) : P (n.releaseAll xs) :=
  List.foldlRecOn xs _ h fun n hn x hx => hrelease n x hx hn

/-- What giving up one handle leaves alone is left alone by giving up all. -/
theorem releaseAll_same {α : Type} (f : Network → α)
    (hrelease : ∀ n x, f (n.release x .callee) = f n) (n : Network) (xs : List LinkId) :
    f (n.releaseAll xs) = f n :=
  releaseAll_induction (P := fun n' => f n' = f n) n xs rfl fun n x _ h => (hrelease n x).trans h

@[simp] theorem ports_releaseAll (links : List LinkId) :
    (n.releaseAll links).ports = n.ports :=
  releaseAll_same ports (fun _ _ => ports_release) n links

theorem write_eq_ok {bytes : Bytes} (h : n.write x side bytes = .ok n') :
    ∃ l l', n.links[x]? = some l ∧ l.write side bytes = .ok l' ∧
      n' = n.modifyLink x fun _ => l' := by
  unfold Network.write at h
  split at h
  · cases h
  · next l hl =>
    rcases hw : l.write side bytes with f | l'
    · rw [hw] at h; cases h
    · rw [hw] at h; cases h; exact ⟨l, l', hl, hw, rfl⟩

theorem finish_eq_ok (h : n.finish x side = .ok n') :
    ∃ l l', n.links[x]? = some l ∧ l.finish side = .ok l' ∧ n' = n.modifyLink x fun _ => l' := by
  unfold Network.finish at h
  split at h
  · cases h
  · next l hl =>
    rcases hw : l.finish side with f | l'
    · rw [hw] at h; cases h
    · rw [hw] at h; cases h; exact ⟨l, l', hl, hw, rfl⟩

theorem ports_write {bytes : Bytes} (h : n.write x side bytes = .ok n') : n'.ports = n.ports := by
  obtain ⟨_, _, -, -, rfl⟩ := write_eq_ok h; rfl

theorem ports_finish (h : n.finish x side = .ok n') : n'.ports = n.ports := by
  obtain ⟨_, _, -, -, rfl⟩ := finish_eq_ok h; rfl

/-- A read finds something and takes it, or finds nothing and leaves the network alone. -/
theorem read?_cases {most : Nat} {answer : ReadAnswer}
    (h : n.read? x side most = some (answer, n')) :
    ∃ l, n.links[x]? = some l ∧ (l.atSide side).found most = some answer ∧
      ((∃ bytes, answer = .ok bytes ∧ n' = n.modifyLink x (·.take side bytes.length)) ∨
        ((∃ k, answer = .error k) ∧ n' = n)) := by
  unfold Network.read? at h
  obtain ⟨l, hl, h⟩ := Option.bind_eq_some_iff.mp h
  obtain ⟨answer', ha, h⟩ := Option.bind_eq_some_iff.mp h
  refine ⟨l, hl, ?_⟩
  rcases answer' with k | bytes
  · cases h; exact ⟨ha, .inr ⟨⟨k, rfl⟩, rfl⟩⟩
  · cases h; exact ⟨ha, .inl ⟨bytes, rfl, rfl⟩⟩

/-- What a read can come to. -/
theorem hear?_cases {chance : Chance} {reply : Reply}
    (h : n.hear? x side chance = some (reply, n')) :
    (∃ f, reply = .failed f ∧ n' = n) ∨
      ∃ l most bytes, n.links[x]? = some l ∧ (l.atSide side).found most = some (.ok bytes) ∧
        1 ≤ most ∧ reply = .heard bytes ∧ n' = n.modifyLink x (·.take side bytes.length) := by
  have hread : ∀ most, 1 ≤ most →
      (n.read? x side most).map (fun p => (replyOf p.1, p.2)) = some (reply, n') →
      (∃ f, reply = .failed f ∧ n' = n) ∨
        ∃ l most bytes, n.links[x]? = some l ∧ (l.atSide side).found most = some (.ok bytes) ∧
          1 ≤ most ∧ reply = .heard bytes ∧ n' = n.modifyLink x (·.take side bytes.length) := by
    intro most hmost h
    obtain ⟨⟨answer, n₁⟩, hr, heq⟩ := Option.map_eq_some_iff.mp h
    cases heq
    obtain ⟨l, hl, hfound, ⟨bytes, rfl, rfl⟩ | ⟨⟨k, rfl⟩, rfl⟩⟩ := read?_cases hr
    · exact .inr ⟨l, most, bytes, hl, hfound, hmost, rfl, rfl⟩
    · refine .inl ?_
      cases k <;> exact ⟨_, rfl, rfl⟩
  unfold Network.hear? at h
  split at h
  · exact hread _ (by decide) h
  · exact hread _ (by omega) h
  · split at h
    · cases h; exact .inl ⟨_, rfl, rfl⟩
    · cases h
  · cases h; exact .inl ⟨_, rfl, rfl⟩
  · cases h

theorem ports_hear? {chance : Chance} {reply : Reply}
    (h : n.hear? x side chance = some (reply, n')) : n'.ports = n.ports := by
  rcases hear?_cases h with ⟨_, -, rfl⟩ | ⟨_, _, _, -, -, -, -, rfl⟩ <;> rfl

/-- A write takes a part of the bytes, or nothing happens. -/
theorem say_cases {n n' : Network} {x : LinkId} {side : Side} {bytes : Bytes} {chance : Chance}
    {reply : Reply} (h : n.say x side bytes chance = (reply, n')) :
    (∃ f, reply = .failed f ∧ n' = n) ∨
      ∃ count, reply = .took (bytes.take count).length ∧
        n.write x side (bytes.take count) = .ok n' := by
  have hattempt : ∀ bs, say.attempt n x side bs = (reply, n') →
      (∃ f, reply = .failed f ∧ n' = n) ∨
        reply = .took bs.length ∧ n.write x side bs = .ok n' := by
    intro bs hbs
    unfold say.attempt at hbs
    split at hbs
    · next n₁ hw =>
      obtain ⟨rfl, rfl⟩ := Prod.mk.inj hbs
      exact .inr ⟨rfl, hw⟩
    · next f _ =>
      obtain ⟨rfl, rfl⟩ := Prod.mk.inj hbs
      exact .inl ⟨f, rfl, rfl⟩
  unfold Network.say at h
  split at h
  · next f =>
    obtain ⟨rfl, rfl⟩ := Prod.mk.inj h
    exact .inl ⟨f, rfl, rfl⟩
  · next count =>
    rcases hattempt _ h with hf | hw
    · exact .inl hf
    · exact .inr ⟨count, hw⟩
  · rcases hattempt _ h with hf | hw
    · exact .inl hf
    · exact .inr ⟨bytes.length, by rwa [List.take_length]⟩

theorem connect_eq_ok {source target : Endpoint} (h : n.connect source target = .ok (x, n')) :
    x = n.links.length ∧ n.isLinked source target = false ∧
      ∃ i, n.listenerAt? target = some i ∧
        n' = { n with links := n.links ++ [{ source, target : Link }] }.modifyListener i
          fun l => { l with backlog := l.backlog ++ [n.links.length] } := by
  unfold Network.connect at h
  split at h
  · cases h
  · split at h
    · cases h
    · next hlinked =>
      split at h
      · cases h
      · next i hi => cases h; exact ⟨rfl, by simpa using hlinked, i, hi, rfl⟩

theorem ports_connect {source target : Endpoint} (h : n.connect source target = .ok (x, n')) :
    n'.ports = n.ports := by
  obtain ⟨-, -, i, -, rfl⟩ := connect_eq_ok h
  exact ports_modifyListener fun _ => rfl

theorem accept?_eq_some (h : n.accept? ℓ = some (x, n')) :
    ∃ l rest, n.listeners[ℓ]? = some l ∧ l.backlog = x :: rest ∧
      n' = n.modifyListener ℓ fun l => { l with backlog := rest } := by
  unfold Network.accept? at h
  obtain ⟨l, hl, h⟩ := Option.bind_eq_some_iff.mp h
  split at h
  · cases h
  · next x' rest hb => cases h; exact ⟨l, rest, hl, hb, rfl⟩

theorem ports_accept? (h : n.accept? ℓ = some (x, n')) : n'.ports = n.ports := by
  obtain ⟨_, _, -, -, rfl⟩ := accept?_eq_some h
  exact ports_modifyListener fun _ => rfl

/-! ## Binding and unbinding -/

theorem bind_eq_ok (h : n.bind e = .ok (ℓ, n')) :
    n.terrain.bindFault? e.host = none ∧ n.isTaken (n.settle e) = false ∧
      ℓ = n.listeners.length ∧
      n' = { n with listeners := n.listeners ++ [{ endpoint := n.settle e }] } := by
  unfold Network.bind at h
  split at h
  · cases h
  · next hfault =>
    split at h
    · cases h
    · next htaken => cases h; exact ⟨hfault, by simpa using htaken, rfl, rfl⟩

theorem ports_bind (h : n.bind e = .ok (ℓ, n')) :
    ℓ = n.ports.length ∧ n'.ports = n.ports ++ [(n.settle e, true)] := by
  obtain ⟨-, -, rfl, rfl⟩ := bind_eq_ok h
  simp [ports]

/-- What closing the listener brings about and refusing one connection keeps holds once all that
waited are refused. -/
theorem unbind_induction {P : Network → Prop} (n : Network) (ℓ : ListenerId)
    (hclose : P (n.modifyListener ℓ fun l => { l with isOpen := false, backlog := [] }))
    (hrefuse : ∀ n', ∀ x ∈ ((n.listeners[ℓ]?).map (·.backlog)).getD [],
      P n' → P (n'.modifyLink x (·.refuse .callee))) : P (n.unbind ℓ) :=
  List.foldlRecOn _ _ hclose fun n' hn' x hx => hrefuse n' x hx hn'

/-- What refusing one connection leaves alone changes with the listener only. -/
theorem unbind_same {α : Type} (f : Network → α)
    (hrefuse : ∀ n x, f (n.modifyLink x (·.refuse .callee)) = f n) (n : Network) (ℓ : ListenerId) :
    f (n.unbind ℓ) = f (n.modifyListener ℓ fun l => { l with isOpen := false, backlog := [] }) :=
  unbind_induction (P := fun n' => f n' = f _) n ℓ rfl fun n' x _ h => (hrefuse n' x).trans h

theorem ports_unbind (n : Network) (ℓ : ListenerId) :
    (n.unbind ℓ).ports = n.ports.modify ℓ fun p => (p.1, false) := by
  rw [unbind_same ports fun _ _ => ports_modifyLink _]
  unfold ports modifyListener
  refine List.ext_getElem? fun i => ?_
  simp only [List.getElem?_map, List.getElem?_modify]
  cases n.listeners[i]? with
  | none => rfl
  | some l => by_cases hi : ℓ = i <;> simp [hi]

theorem isListening_bind (h : n.bind e = .ok (ℓ, n')) (ℓ' : ListenerId) :
    n.isListening ℓ = false ∧ n'.isListening ℓ' = (n.isListening ℓ' || decide (ℓ' = ℓ)) := by
  obtain ⟨rfl, hp⟩ := ports_bind h
  refine ⟨by simp [isListening], ?_⟩
  unfold isListening
  rw [hp, getElem?_concat]
  by_cases heq : ℓ' = n.ports.length
  · simp [heq]
  · simp [heq]

theorem isListening_unbind (n : Network) (ℓ ℓ' : ListenerId) :
    (n.unbind ℓ).isListening ℓ' = (n.isListening ℓ' && decide (ℓ' ≠ ℓ)) := by
  unfold isListening
  rw [ports_unbind, List.getElem?_modify]
  cases n.ports[ℓ']? with
  | none => rfl
  | some p =>
    by_cases h : ℓ' = ℓ
    · simp [h]
    · simp [h, Ne.symm h]

/-- While no listener is open, only the terrain is in the way of one. -/
theorem isBindable_of_closed (h : ∀ ℓ, n.isListening ℓ = false) (e : Endpoint) :
    n.isBindable e = (n.terrain.bindFault? e.host).isNone := by
  have htaken : n.isTaken (n.settle e) = false := by
    refine List.any_eq_false.mpr fun l hl => ?_
    obtain ⟨ℓ, hℓ⟩ := List.getElem?_of_mem hl
    have hclosed := h ℓ
    rw [isListening_eq, hℓ] at hclosed
    have hl : l.isOpen = false := hclosed
    simp [hl]
  unfold isBindable Network.bind
  rcases n.terrain.bindFault? e.host with _ | f
  · simp only [htaken]; rfl
  · rfl

/-! ## One endpoint -/

/-- All listeners have the endpoint, and one of them at most is open. -/
structure Lone (e : Endpoint) (n : Network) : Prop where
  place : ∀ p ∈ n.ports, p.1 = e
  one_open : ∀ {ℓ ℓ'}, n.isListening ℓ = true → n.isListening ℓ' = true → ℓ = ℓ'

theorem Lone.congr (h : n.Lone e) (hp : n'.ports = n.ports) : n'.Lone e := by
  refine ⟨hp ▸ h.place, fun hℓ hℓ' => h.one_open ?_ ?_⟩
  · rwa [← isListening_congr hp]
  · rwa [← isListening_congr hp]

theorem Lone.unbind (h : n.Lone e) (ℓ : ListenerId) : (n.unbind ℓ).Lone e := by
  constructor
  · intro p hp
    rw [ports_unbind] at hp
    obtain ⟨i, hi⟩ := List.getElem?_of_mem hp
    rw [List.getElem?_modify] at hi
    obtain ⟨q, hq, rfl⟩ := Option.map_eq_some_iff.mp hi
    have hplace := h.place q (List.mem_of_getElem? hq)
    split <;> exact hplace
  · intro ℓ₁ ℓ₂ h₁ h₂
    rw [isListening_unbind] at h₁ h₂
    simp only [Bool.and_eq_true] at h₁ h₂
    exact h.one_open h₁.1 h₂.1

theorem clashes_self (e : Endpoint) : e.clashes e = true := by
  simp [Endpoint.clashes, Endpoint.hears, Host.covers]

/-- Nobody binds the endpoint while a listener is open. -/
theorem Lone.bind (h : n.Lone e) (hport : e.port ≠ 0) (hb : n.bind e = .ok (ℓ, n')) :
    n'.Lone e := by
  have hsettle : n.settle e = e := if_neg hport
  obtain ⟨-, htaken, -, -⟩ := bind_eq_ok hb
  have hclosed : ∀ ℓ, n.isListening ℓ = false := by
    intro ℓ
    rw [isListening_eq]
    rcases hl : n.listeners[ℓ]? with _ | l
    · rfl
    · have hmem := List.mem_of_getElem? hl
      have hplace : l.endpoint = e := h.place _ (List.mem_map_of_mem hmem)
      unfold isTaken at htaken
      have hfree := List.any_eq_false.mp htaken l hmem
      rw [hsettle, hplace, clashes_self] at hfree
      simpa using hfree
  constructor
  · intro p hp
    rw [(ports_bind hb).2, hsettle] at hp
    rcases List.mem_append.mp hp with hp | hp
    · exact h.place p hp
    · rw [List.mem_singleton.mp hp]
  · intro ℓ₁ ℓ₂ h₁ h₂
    rw [(isListening_bind hb _).2, hclosed] at h₁ h₂
    simp only [Bool.false_or, decide_eq_true_eq] at h₁ h₂
    rw [h₁, h₂]

end LoopbackLock.Network
