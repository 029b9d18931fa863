import LoopbackLock.Proofs.Network.Ports
import LoopbackLock.Proofs.Total

/-!
# The called ends of connections

What the lock side of a connection can see and change: how many owners the called end has, what it
has written, whether it has said its last, and whether the connection still waits at a listener.
Whatever callers do leaves all of this alone (`Network.Like`); what the called side does is one
equation for each operation.
-/

namespace LoopbackLock.Network

variable {n n' n'' : Network} {ℓ : ListenerId} {x y : LinkId} {β : Type} {p : Link → β} {d : β}

/-- A part of a connection, for one that is not there the given value. -/
def view (p : Link → β) (d : β) (n : Network) (x : LinkId) : β := ((n.links[x]?).map p).getD d

/-- How many owners the called end has. -/
abbrev handles : Network → LinkId → Nat := view (·.callee.handles) 0

/-- What the called end has written. -/
abbrev said : Network → LinkId → Bytes := view (·.callee.said) []

/-- The called end has said that it sends no more. -/
abbrev isShut : Network → LinkId → Bool := view (·.callee.finished) false

/-- How often a connection waits to be accepted. -/
def waiting (n : Network) (x : LinkId) : Nat := total (fun l => l.backlog.count x) n.listeners

theorem view_modifyLink (f : Link → Link) :
    (n.modifyLink x f).view p d y =
      if y = x then ((n.links[x]?).map fun l => p (f l)).getD d else n.view p d y := by
  unfold view modifyLink
  rw [List.getElem?_modify]
  by_cases hyx : y = x
  · subst hyx
    rw [if_pos rfl]
    cases n.links[y]? <;> simp
  · rw [if_neg hyx]
    cases n.links[y]? <;> simp [Ne.symm hyx]

theorem getElem?_modifyLink_self {l : Link} (hl : n.links[x]? = some l) (f : Link → Link) :
    (n.modifyLink x f).links[x]? = some (f l) :=
  (getElem?_modify_some hl f x).trans (if_pos rfl)

theorem view_modifyLink_same {f : Link → Link} (hf : ∀ l, p (f l) = p l) :
    (n.modifyLink x f).view p d = n.view p d := by
  funext y
  rw [view_modifyLink]
  split
  · next h => subst h; unfold view; cases n.links[y]? <;> simp [hf]
  · rfl

theorem view_some {l : Link} (h : n.links[x]? = some l) : n.view p d x = p l := by
  unfold view; rw [h]; rfl

theorem view_none (h : n.links[x]? = none) : n.view p d x = d := by
  unfold view; rw [h]; rfl

theorem view_replaceLink {l l' : Link} (hl : n.links[x]? = some l) (hp : p l' = p l) :
    (n.modifyLink x fun _ => l').view p d = n.view p d := by
  funext y
  rw [view_modifyLink, hl]
  split
  · next h => subst h; rw [view_some hl]; exact hp
  · rfl

theorem length_modifyLink (f : Link → Link) :
    (n.modifyLink x f).links.length = n.links.length := by
  simp [Network.modifyLink]

theorem waiting_modifyListener {f : Listener → Listener} {l : Listener}
    (h : n.listeners[ℓ]? = some l) (y : LinkId) :
    (n.modifyListener ℓ f).waiting y + l.backlog.count y =
      n.waiting y + (f l).backlog.count y :=
  total_modify h

/-! ## What callers do -/

/-- The called ends are alike, and so is what waits. -/
structure Like (n n' : Network) : Prop where
  handles : n'.handles = n.handles
  said : n'.said = n.said
  shut : n'.isShut = n.isShut
  waiting : n'.waiting = n.waiting
  length : n'.links.length = n.links.length

theorem Like.refl (n : Network) : n.Like n := ⟨rfl, rfl, rfl, rfl, rfl⟩

theorem Like.modifyLink {f : Link → Link} (hhandles : ∀ l, (f l).callee.handles = l.callee.handles)
    (hsaid : ∀ l, (f l).callee.said = l.callee.said)
    (hshut : ∀ l, (f l).callee.finished = l.callee.finished) : n.Like (n.modifyLink x f) where
  handles := view_modifyLink_same hhandles
  said := view_modifyLink_same hsaid
  shut := view_modifyLink_same hshut
  waiting := rfl
  length := by simp [Network.modifyLink]

/-- A connection that is replaced by one with the same called end. -/
theorem Like.replaceLink {l l' : Link} (hl : n.links[x]? = some l)
    (hhandles : l'.callee.handles = l.callee.handles) (hsaid : l'.callee.said = l.callee.said)
    (hshut : l'.callee.finished = l.callee.finished) : n.Like (n.modifyLink x fun _ => l') where
  handles := view_replaceLink hl hhandles
  said := view_replaceLink hl hsaid
  shut := view_replaceLink hl hshut
  waiting := rfl
  length := length_modifyLink _

theorem like_write {bytes : Bytes} (h : n.write x .caller bytes = .ok n') : n.Like n' := by
  obtain ⟨l, l', hl, hw, rfl⟩ := write_eq_ok h
  unfold Link.write at hw
  split at hw
  · cases hw
  · split at hw <;> cases hw <;> exact .replaceLink hl rfl rfl rfl

theorem like_finish (h : n.finish x .caller = .ok n') : n.Like n' := by
  obtain ⟨l, l', hl, hf, rfl⟩ := finish_eq_ok h
  unfold Link.finish at hf
  split at hf
  · cases hf
  · cases hf; exact .replaceLink hl rfl rfl rfl

theorem like_take (side : Side) (count : Nat) : n.Like (n.modifyLink x (·.take side count)) := by
  cases side <;> exact .modifyLink (fun _ => rfl) (fun _ => rfl) fun _ => rfl

theorem like_hear? {side : Side} {chance : Chance} {reply : Reply}
    (h : n.hear? x side chance = some (reply, n')) : n.Like n' := by
  rcases hear?_cases h with ⟨_, -, rfl⟩ | ⟨_, _, _, -, -, -, -, rfl⟩
  · exact .refl _
  · exact like_take side _

theorem like_hangUp (n : Network) (x : LinkId) : n.Like (n.release x .caller) := by
  have hcases : ∀ l : Link, (l.release .caller).callee.handles = l.callee.handles ∧
      (l.release .caller).callee.said = l.callee.said ∧
      (l.release .caller).callee.finished = l.callee.finished := by
    intro l
    unfold Link.release
    simp only
    split
    · exact ⟨rfl, rfl, rfl⟩
    · split <;> exact ⟨rfl, rfl, rfl⟩
  exact .modifyLink (fun l => (hcases l).1) (fun l => (hcases l).2.1) fun l => (hcases l).2.2

theorem like_bind {e : Endpoint} (h : n.bind e = .ok (ℓ, n')) : n.Like n' := by
  obtain ⟨-, -, -, rfl⟩ := bind_eq_ok h
  refine ⟨rfl, rfl, rfl, ?_, rfl⟩
  funext y
  simp [waiting]

/-! ## What the called side does -/

/-- One more owner of a called end that is there. -/
theorem handles_share (hx : x < n.links.length) :
    (n.modifyLink x (·.share .callee)).handles y = n.handles y + if y = x then 1 else 0 := by
  obtain ⟨l, hl⟩ : ∃ l, n.links[x]? = some l := ⟨n.links[x], by simp [hx]⟩
  unfold handles
  rw [view_modifyLink, hl]
  split
  · next h => subst h; rw [view_some hl]; rfl
  · rfl

theorem release_callee (l : Link) :
    (l.release .callee).callee.handles = l.callee.handles - 1 ∧
      (l.release .callee).callee.said = l.callee.said ∧
      (l.release .callee).callee.finished = l.callee.finished := by
  unfold Link.release
  simp only
  split
  · exact ⟨rfl, rfl, rfl⟩
  · split <;> exact ⟨rfl, rfl, rfl⟩

theorem handles_release (n : Network) (x y : LinkId) :
    (n.release x .callee).handles y = n.handles y - if y = x then 1 else 0 := by
  unfold handles Network.release
  rw [view_modifyLink]
  split
  · next h =>
    subst h
    unfold view
    cases n.links[y]? <;> simp [(release_callee _).1]
  · rfl

theorem said_release (n : Network) (x : LinkId) : (n.release x .callee).said = n.said :=
  view_modifyLink_same fun l => (release_callee l).2.1

theorem isShut_release (n : Network) (x : LinkId) : (n.release x .callee).isShut = n.isShut :=
  view_modifyLink_same fun l => (release_callee l).2.2

theorem length_release (n : Network) (x : LinkId) (side : Side) :
    (n.release x side).links.length = n.links.length := by
  simp [Network.release, Network.modifyLink]

theorem handles_releaseAll (n : Network) (xs : List LinkId) (y : LinkId) :
    (n.releaseAll xs).handles y = n.handles y - xs.count y := by
  induction xs generalizing n with
  | nil => rfl
  | cons x xs ih =>
    refine (ih _).trans ?_
    rw [handles_release, List.count_cons]
    by_cases hxy : y = x
    · simp [hxy]; omega
    · simp [hxy, Ne.symm hxy]

theorem said_releaseAll (n : Network) (xs : List LinkId) : (n.releaseAll xs).said = n.said :=
  releaseAll_same said said_release n xs

theorem isShut_releaseAll (n : Network) (xs : List LinkId) :
    (n.releaseAll xs).isShut = n.isShut :=
  releaseAll_same isShut isShut_release n xs

theorem waiting_releaseAll (n : Network) (xs : List LinkId) :
    (n.releaseAll xs).waiting = n.waiting :=
  releaseAll_same waiting (fun _ _ => rfl) n xs

theorem length_releaseAll (n : Network) (xs : List LinkId) :
    (n.releaseAll xs).links.length = n.links.length :=
  releaseAll_same (·.links.length) (fun n x => length_release n x .callee) n xs

theorem said_write {bytes : Bytes} (h : n.write x .callee bytes = .ok n') :
    n'.said y = if y = x then n.said y ++ bytes else n.said y := by
  obtain ⟨l, l', hl, hw, rfl⟩ := write_eq_ok h
  have hsaid : l'.callee.said = l.callee.said ++ bytes := by
    unfold Link.write at hw
    split at hw
    · cases hw
    · split at hw <;> cases hw <;> rfl
  unfold said
  rw [view_modifyLink, hl]
  split
  · next h => subst h; rw [view_some hl]; exact hsaid
  · rfl

theorem write_callee {bytes : Bytes} (h : n.write x .callee bytes = .ok n') :
    n'.handles = n.handles ∧ n'.isShut = n.isShut ∧ n'.waiting = n.waiting ∧
      n'.links.length = n.links.length := by
  obtain ⟨l, l', hl, hw, rfl⟩ := write_eq_ok h
  have hsame : l'.callee.handles = l.callee.handles ∧ l'.callee.finished = l.callee.finished := by
    unfold Link.write at hw
    split at hw
    · cases hw
    · split at hw <;> cases hw <;> exact ⟨rfl, rfl⟩
  exact ⟨view_replaceLink hl hsame.1, view_replaceLink hl hsame.2, rfl, length_modifyLink _⟩

theorem isShut_finish (h : n.finish x .callee = .ok n') :
    n'.isShut y = (n.isShut y || decide (y = x)) := by
  obtain ⟨l, l', hl, hf, rfl⟩ := finish_eq_ok h
  have hshut : l'.callee.finished = true := by
    unfold Link.finish at hf
    split at hf
    · cases hf
    · cases hf; rfl
  unfold isShut
  rw [view_modifyLink, hl]
  by_cases hyx : y = x
  · rw [if_pos hyx]; simp [hshut, hyx]
  · rw [if_neg hyx]; simp [hyx]

theorem finish_callee (h : n.finish x .callee = .ok n') :
    n'.handles = n.handles ∧ n'.said = n.said ∧ n'.waiting = n.waiting ∧
      n'.links.length = n.links.length := by
  obtain ⟨l, l', hl, hf, rfl⟩ := finish_eq_ok h
  have hsame : l'.callee.handles = l.callee.handles ∧ l'.callee.said = l.callee.said := by
    unfold Link.finish at hf
    split at hf
    · cases hf
    · cases hf; exact ⟨rfl, rfl⟩
  exact ⟨view_replaceLink hl hsame.1, view_replaceLink hl hsame.2, rfl, length_modifyLink _⟩

/-! ## Connections that come and go -/

theorem view_accept? (h : n.accept? ℓ = some (x, n')) : n'.links = n.links := by
  obtain ⟨_, _, -, -, rfl⟩ := accept?_eq_some h
  rfl

theorem waiting_accept? (h : n.accept? ℓ = some (x, n')) (y : LinkId) :
    n'.waiting y + (if y = x then 1 else 0) = n.waiting y := by
  obtain ⟨l, rest, hl, hb, rfl⟩ := accept?_eq_some h
  have hw := waiting_modifyListener (f := fun l => { l with backlog := rest }) hl y
  rw [hb, List.count_cons] at hw
  by_cases hyx : y = x
  · simp [hyx] at hw ⊢; omega
  · simp [hyx, Ne.symm hyx] at hw ⊢; omega

/-- A connection is the new one, or it was there before. -/
theorem getElem?_connect {source target : Endpoint} (h : n.connect source target = .ok (x, n'))
    (y : LinkId) : n'.links[y]? = if y = x then some { source, target } else n.links[y]? := by
  obtain ⟨rfl, -, i, -, rfl⟩ := connect_eq_ok h
  exact getElem?_concat ..

theorem view_connect {source target : Endpoint} (h : n.connect source target = .ok (x, n')) :
    n'.view p d y = if y = x then p { source, target } else n.view p d y := by
  unfold view
  rw [getElem?_connect h]
  split <;> rfl

theorem waiting_connect {source target : Endpoint} (h : n.connect source target = .ok (x, n'))
    (y : LinkId) : n'.waiting y = n.waiting y + if y = x then 1 else 0 := by
  obtain ⟨rfl, -, i, hi, rfl⟩ := connect_eq_ok h
  obtain ⟨l, hl⟩ : ∃ l, n.listeners[i]? = some l := by
    have hlt := (List.findIdx?_eq_some_iff_getElem.mp hi).1
    exact ⟨n.listeners[i], by simp [hlt]⟩
  have hw := waiting_modifyListener (n := { n with
    links := n.links ++ [{ source, target : Link }] })
    (f := fun l => { l with backlog := l.backlog ++ [n.links.length] }) hl y
  rw [List.count_append] at hw
  have hold : ({ n with links := n.links ++ [{ source, target : Link }] } : Network).waiting y =
    n.waiting y := rfl
  rw [hold] at hw
  by_cases hyx : y = n.links.length
  · simp [hyx] at hw ⊢; omega
  · simp [hyx, Ne.symm hyx] at hw ⊢; omega

theorem length_connect {source target : Endpoint} (h : n.connect source target = .ok (x, n')) :
    x = n.links.length ∧ n'.links.length = n.links.length + 1 := by
  obtain ⟨rfl, -, i, -, rfl⟩ := connect_eq_ok h
  exact ⟨rfl, by simp [modifyListener]⟩

theorem links_of_connect {source target : Endpoint} (h : n.connect source target = .ok (x, n')) :
    n.links[x]? = none := by
  rw [(length_connect h).1]
  exact List.getElem?_eq_none (Nat.le_refl _)

theorem getElem?_connect_old {source target : Endpoint} {l : Link}
    (h : n.connect source target = .ok (x, n')) (hy : n.links[y]? = some l) :
    n'.links[y]? = some l := by
  rw [getElem?_connect h, if_neg]
  · exact hy
  · rintro rfl
    cases (links_of_connect h).symm.trans hy

/-- What is nothing for a new connection is nothing for one that is not there. -/
theorem view_connect_same {source target : Endpoint} (h : n.connect source target = .ok (x, n'))
    (hp : p { source, target } = d) : n'.view p d = n.view p d := by
  funext y
  rw [view_connect h]
  split
  · next heq =>
    rw [heq, view_none (links_of_connect h)]
    exact hp
  · rfl

/-- The connections that wait at a listener. -/
def backlog (n : Network) (ℓ : ListenerId) : List LinkId :=
  ((n.listeners[ℓ]?).map (·.backlog)).getD []

theorem view_unbind_same (hp : ∀ l, p (l.refuse .callee) = p l) (n : Network) (ℓ : ListenerId) :
    (n.unbind ℓ).view p d = n.view p d :=
  unbind_same (view p d) (fun _ _ => view_modifyLink_same hp) n ℓ

theorem handles_unbind (n : Network) (ℓ : ListenerId) (y : LinkId) :
    (n.unbind ℓ).handles y = if y ∈ n.backlog ℓ then 0 else n.handles y := by
  have hfold : ∀ (links : List LinkId) (n : Network),
      (links.foldl (fun n link => n.modifyLink link (·.refuse .callee)) n).handles y =
        if y ∈ links then 0 else n.handles y := by
    intro links
    induction links with
    | nil => exact fun _ => by simp
    | cons x links ih =>
      intro n
      refine (ih _).trans ?_
      unfold handles
      rw [view_modifyLink]
      by_cases hy : y ∈ links
      · rw [if_pos hy, if_pos (List.mem_cons_of_mem _ hy)]
      · rw [if_neg hy]
        by_cases hyx : y = x
        · subst hyx
          rw [if_pos rfl, if_pos List.mem_cons_self]
          cases n.links[y]? <;> rfl
        · rw [if_neg hyx, if_neg fun hmem => (List.mem_cons.mp hmem).elim hyx hy]
  unfold Network.unbind
  exact hfold _ _

theorem waiting_unbind (n : Network) (ℓ : ListenerId) (y : LinkId) :
    (n.unbind ℓ).waiting y + (n.backlog ℓ).count y = n.waiting y := by
  rw [unbind_same waiting fun _ _ => rfl]
  rcases hl : n.listeners[ℓ]? with _ | l
  · unfold backlog waiting modifyListener
    rw [hl, List.modify_eq_self (List.getElem?_eq_none_iff.mp hl)]
    simp
  · have hw := waiting_modifyListener (f := fun l => { l with isOpen := false, backlog := [] }) hl y
    unfold backlog
    rw [hl]
    simpa using hw

theorem length_unbind (n : Network) (ℓ : ListenerId) :
    (n.unbind ℓ).links.length = n.links.length :=
  unbind_same (·.links.length) (fun _ _ => length_modifyLink _) n ℓ

end LoopbackLock.Network
