import LoopbackLock.Proofs.Estate.Filing

/-!
# Connections that are left alone

What is done with one connection leaves every other one as it is, and in the backlog in which it
waits (`Network.Leaves`). And nobody gets into a backlog but by connecting (`Network.Recalls`).
-/

namespace LoopbackLock

namespace Network

variable {n n' n'' : Network} {x y : LinkId} {ℓ : ListenerId} {side : Side} {bytes : Bytes}

/-- A connection is as it was, and waits where it waited. -/
structure Leaves (n : Network) (x : LinkId) (n' : Network) : Prop where
  link : n'.links[x]? = n.links[x]?
  queue : ∀ ℓ, x ∈ n.backlog ℓ → n.isListening ℓ = true →
    x ∈ n'.backlog ℓ ∧ n'.isListening ℓ = true

theorem Leaves.refl (n : Network) (x : LinkId) : n.Leaves x n := ⟨rfl, fun _ hx hℓ => ⟨hx, hℓ⟩⟩

theorem Leaves.trans (h : n.Leaves x n') (h' : n'.Leaves x n'') : n.Leaves x n'' where
  link := h'.link.trans h.link
  queue ℓ hx hℓ := by
    obtain ⟨hx', hℓ'⟩ := h.queue ℓ hx hℓ
    exact h'.queue ℓ hx' hℓ'

theorem leaves_modifyLink (hne : y ≠ x) (f : Link → Link) : n.Leaves x (n.modifyLink y f) where
  link := by
    show (n.links.modify y f)[x]? = _
    rw [List.getElem?_modify]
    cases n.links[x]? <;> simp [hne]
  queue _ hx hℓ := ⟨hx, hℓ⟩

theorem leaves_release (hne : y ≠ x) (side : Side) : n.Leaves x (n.release y side) :=
  leaves_modifyLink hne _

theorem leaves_releaseAll {ys : List LinkId} (hx : x ∉ ys) : n.Leaves x (n.releaseAll ys) := by
  refine releaseAll_induction n ys (.refl n x) fun _ y hy h => h.trans (leaves_release ?_ .callee)
  rintro rfl
  exact hx hy

theorem leaves_write (hne : y ≠ x) (h : n.write y side bytes = .ok n') : n.Leaves x n' := by
  obtain ⟨_, _, -, -, rfl⟩ := write_eq_ok h
  exact leaves_modifyLink hne _

theorem leaves_finish (hne : y ≠ x) (h : n.finish y side = .ok n') : n.Leaves x n' := by
  obtain ⟨_, _, -, -, rfl⟩ := finish_eq_ok h
  exact leaves_modifyLink hne _

theorem leaves_hear? {chance : Chance} {reply : Reply} (hne : y ≠ x)
    (h : n.hear? y side chance = some (reply, n')) : n.Leaves x n' := by
  rcases hear?_cases h with ⟨_, -, rfl⟩ | ⟨_, _, _, -, -, -, -, rfl⟩
  · exact .refl _ _
  · exact leaves_modifyLink hne _

theorem leaves_say {chance : Chance} {reply : Reply} (hne : y ≠ x)
    (h : n.say y side bytes chance = (reply, n')) : n.Leaves x n' := by
  rcases say_cases h with ⟨_, -, rfl⟩ | ⟨_, -, hw⟩
  · exact .refl _ _
  · exact leaves_write hne hw

theorem leaves_bind {e : Endpoint} (h : n.bind e = .ok (ℓ, n')) : n.Leaves x n' where
  link := by
    obtain ⟨-, -, -, rfl⟩ := bind_eq_ok h
    rfl
  queue ℓ' hx hℓ := by
    refine ⟨?_, by rw [(isListening_bind h ℓ').2, hℓ]; rfl⟩
    obtain ⟨-, -, -, rfl⟩ := bind_eq_ok h
    unfold backlog at hx ⊢
    show x ∈ (((n.listeners ++ [_])[ℓ']?).map (·.backlog)).getD []
    rcases hl : n.listeners[ℓ']? with _ | l
    · rw [hl] at hx
      cases hx
    · rw [hl] at hx
      rwa [List.getElem?_append_left (List.getElem?_eq_some_iff.mp hl).1, hl]

theorem backlog_modifyListener (f : Listener → Listener) (ℓ' : ListenerId) :
    (n.modifyListener ℓ f).backlog ℓ' =
      if ℓ' = ℓ then ((n.listeners[ℓ]?).map fun l => (f l).backlog).getD [] else n.backlog ℓ' := by
  unfold backlog modifyListener
  rw [List.getElem?_modify]
  by_cases h : ℓ' = ℓ
  · subst h
    rw [if_pos rfl]
    cases n.listeners[ℓ']? <;> simp
  · rw [if_neg h]
    cases n.listeners[ℓ']? <;> simp [Ne.symm h]

theorem leaves_connect {source target : Endpoint} (hx : x < n.links.length)
    (h : n.connect source target = .ok (y, n')) : n.Leaves x n' where
  link := by
    obtain ⟨-, -, i, -, rfl⟩ := connect_eq_ok h
    exact List.getElem?_append_left hx
  queue ℓ hℓ hopen := by
    refine ⟨?_, by rw [isListening_congr (ports_connect h)]; exact hopen⟩
    obtain ⟨-, -, i, -, rfl⟩ := connect_eq_ok h
    rw [backlog_modifyListener]
    split
    · next heq =>
      subst heq
      unfold backlog at hℓ
      rcases hl : n.listeners[ℓ]? with _ | l
      · rw [hl] at hℓ
        cases hℓ
      · rw [hl] at hℓ
        exact List.mem_append_left _ hℓ
    · exact hℓ

/-- A new connection waits at a listener that is open. -/
theorem queued_connect {source target : Endpoint} (h : n.connect source target = .ok (x, n')) :
    ∃ ℓ, x ∈ n'.backlog ℓ ∧ n'.isListening ℓ = true := by
  have hports := ports_connect h
  obtain ⟨rfl, -, i, hi, rfl⟩ := connect_eq_ok h
  obtain ⟨hlt, hopen, -⟩ := List.findIdx?_eq_some_iff_getElem.mp hi
  refine ⟨i, ?_, ?_⟩
  · rw [backlog_modifyListener, if_pos rfl]
    show _ ∈ ((n.listeners[i]?).map fun l => l.backlog ++ [_]).getD []
    rw [List.getElem?_eq_getElem hlt]
    exact List.mem_append_right _ List.mem_cons_self
  · rw [isListening_congr hports, isListening_eq, List.getElem?_eq_getElem hlt]
    rw [Bool.and_eq_true] at hopen
    exact hopen.1

/-- Who is not accepted goes on waiting. -/
theorem leaves_accept? (hne : y ≠ x) (h : n.accept? ℓ = some (y, n')) : n.Leaves x n' where
  link := by rw [view_accept? h]
  queue ℓ' hx hopen := by
    refine ⟨?_, by rw [isListening_congr (ports_accept? h)]; exact hopen⟩
    obtain ⟨l, rest, hl, hb, rfl⟩ := accept?_eq_some h
    rw [backlog_modifyListener]
    split
    · next heq =>
      subst heq
      unfold backlog at hx
      rw [hl] at hx
      have hx : x ∈ l.backlog := hx
      rw [hb] at hx
      rw [hl]
      exact (List.mem_cons.mp hx).resolve_left (Ne.symm hne)
    · exact hx

/-- Who waits elsewhere is not refused when a listener closes. -/
theorem leaves_unbind (hx : x ∉ n.backlog ℓ) : n.Leaves x (n.unbind ℓ) := by
  have hclosed : n.Leaves x
      (n.modifyListener ℓ fun l => { l with isOpen := false, backlog := [] }) := by
    refine ⟨rfl, fun ℓ' hx' hopen => ?_⟩
    have hne : ℓ' ≠ ℓ := by
      rintro rfl
      exact hx hx'
    constructor
    · rw [backlog_modifyListener, if_neg hne]
      exact hx'
    · rw [isListening_eq] at hopen ⊢
      show ((n.listeners.modify ℓ _)[ℓ']?).any (·.isOpen) = true
      rw [List.getElem?_modify]
      cases hl : n.listeners[ℓ']? <;> rw [hl] at hopen
      · cases hopen
      · simpa [Ne.symm hne] using hopen
  refine unbind_induction n ℓ hclosed fun _ y hy h => h.trans (leaves_modifyLink ?_ _)
  rintro rfl
  exact hx hy

/-- Who is in a backlog waits. -/
theorem waiting_pos_of_backlog (hx : x ∈ n.backlog ℓ) : 0 < n.waiting x := by
  have hunbind := waiting_unbind n ℓ x
  have hcount := List.count_pos_iff.mpr hx
  omega

/-! ## Who waits where -/

/-- A connection that waits somewhere waited there before. -/
def Recalls (n : Network) (x : LinkId) (n' : Network) : Prop :=
  ∀ ℓ, x ∈ n'.backlog ℓ → x ∈ n.backlog ℓ

theorem Recalls.trans (h : n.Recalls x n') (h' : n'.Recalls x n'') : n.Recalls x n'' :=
  fun ℓ hx => h ℓ (h' ℓ hx)

theorem Recalls.of_listeners (h : n'.listeners = n.listeners) : n.Recalls x n' := by
  intro ℓ hx
  unfold backlog at hx ⊢
  rwa [h] at hx

theorem listeners_releaseAll (n : Network) (xs : List LinkId) :
    (n.releaseAll xs).listeners = n.listeners :=
  releaseAll_same (·.listeners) (fun _ _ => rfl) n xs

theorem listeners_write (h : n.write y side bytes = .ok n') : n'.listeners = n.listeners := by
  obtain ⟨_, _, -, -, rfl⟩ := write_eq_ok h
  rfl

theorem listeners_finish (h : n.finish y side = .ok n') : n'.listeners = n.listeners := by
  obtain ⟨_, _, -, -, rfl⟩ := finish_eq_ok h
  rfl

theorem listeners_hear? {chance : Chance} {reply : Reply}
    (h : n.hear? y side chance = some (reply, n')) : n'.listeners = n.listeners := by
  rcases hear?_cases h with ⟨_, -, rfl⟩ | ⟨_, _, _, -, -, -, -, rfl⟩ <;> rfl

theorem recalls_bind {e : Endpoint} (h : n.bind e = .ok (ℓ, n')) : n.Recalls x n' := by
  obtain ⟨-, -, -, rfl⟩ := bind_eq_ok h
  intro ℓ' hx
  unfold backlog at hx ⊢
  have hx : x ∈ (((n.listeners ++ [_])[ℓ']?).map (·.backlog)).getD [] := hx
  rw [getElem?_concat] at hx
  split at hx
  · cases hx
  · exact hx

theorem recalls_connect {source target : Endpoint} (hx : x < n.links.length)
    (h : n.connect source target = .ok (y, n')) : n.Recalls x n' := by
  obtain ⟨-, -, i, -, rfl⟩ := connect_eq_ok h
  intro ℓ hmem
  rw [backlog_modifyListener] at hmem
  split at hmem
  · next heq =>
    subst heq
    unfold backlog
    rcases hl : n.listeners[ℓ]? with _ | l
    · rw [hl] at hmem
      cases hmem
    · rw [hl] at hmem
      rcases List.mem_append.mp hmem with hold | hnew
      · exact hold
      · exact absurd (List.mem_singleton.mp hnew) (Nat.ne_of_lt hx)
  · exact hmem

theorem recalls_accept? (h : n.accept? ℓ = some (y, n')) : n.Recalls x n' := by
  obtain ⟨l, rest, hl, hb, rfl⟩ := accept?_eq_some h
  intro ℓ' hmem
  rw [backlog_modifyListener] at hmem
  split at hmem
  · next heq =>
    subst heq
    rw [hl] at hmem
    unfold backlog
    rw [hl]
    show x ∈ l.backlog
    rw [hb]
    exact List.mem_cons_of_mem _ hmem
  · exact hmem

theorem recalls_unbind (n : Network) (ℓ : ListenerId) : n.Recalls x (n.unbind ℓ) := by
  have hclosed : n.Recalls x
      (n.modifyListener ℓ fun l => { l with isOpen := false, backlog := [] }) := by
    intro ℓ' hmem
    rw [backlog_modifyListener] at hmem
    split at hmem
    · cases hl : n.listeners[ℓ]? <;> rw [hl] at hmem <;> cases hmem
    · exact hmem
  exact hclosed.trans (.of_listeners (unbind_same (·.listeners) (fun _ _ => rfl) n ℓ))

end Network

namespace Holder

variable {h h' : Holder} {n n' : Network} {k : Nat} {a : Attendant} {chance : Chance} {x : LinkId}

theorem settle_leaves (hx : x ∉ h.registry.links) : n.Leaves x (h.settle n).2 := by
  unfold settle
  split
  · exact Network.leaves_releaseAll hx
  · exact .refl n x

/-- An attendant leaves a connection alone that is not its own and not registered. -/
theorem Attended.leaves (ha : h.Attended n k a chance h' n') (hne : a.link ≠ x)
    (hx : x ∉ h.registry.links) : n.Leaves x n' := by
  cases ha
  case prepared => exact Network.leaves_modifyLink hne _
  case heard hh => exact Network.leaves_hear? hne hh
  case missed hh => exact Network.leaves_hear? hne hh
  case answered hw => exact Network.leaves_say hne hw
  case admitted =>
    have hsub : ∀ (p : UInt16 × LinkId → Bool) (r : Registry), x ∉ r.links →
        x ∉ Registry.links (r.filter p) := by
      intro p r hr hmem
      obtain ⟨e, he, rfl⟩ := List.mem_map.mp hmem
      exact hr (List.mem_map.mpr ⟨e, (List.mem_filter.mp he).1, rfl⟩)
    exact (Network.leaves_releaseAll (hsub _ _ hx)).trans
      (Network.leaves_releaseAll (hsub _ _ (hsub _ _ hx)))
  case parted handles _ =>
    have hleft : x ∉ List.replicate handles a.link :=
      fun hmem => hne (List.mem_replicate.mp hmem).2.symm
    exact (Network.leaves_releaseAll hleft).trans (settle_leaves hx)
  all_goals exact .refl n x

theorem settle_listeners (h : Holder) (n : Network) : (h.settle n).2.listeners = n.listeners := by
  unfold settle
  split
  · exact n.listeners_releaseAll _
  · rfl

theorem Polled.recalls (hp : h.Polled n h' n') : n.Recalls x n' := by
  cases hp
  case stopped =>
    have hunbind : n.Recalls x (n.unbind h.listener) := Network.recalls_unbind _ _
    exact hunbind.trans (.of_listeners (settle_listeners ..))
  case turned => exact .of_listeners rfl
  case attached hy => exact Network.recalls_accept? hy

theorem Attended.listeners (ha : h.Attended n k a chance h' n') : n'.listeners = n.listeners := by
  cases ha
  case heard hh => exact Network.listeners_hear? hh
  case missed hh => exact Network.listeners_hear? hh
  case answered hw =>
    rcases Network.say_cases hw with ⟨_, -, rfl⟩ | ⟨_, -, hw⟩
    · rfl
    · exact Network.listeners_write hw
  case admitted => exact (Network.listeners_releaseAll ..).trans (Network.listeners_releaseAll ..)
  case parted => exact (settle_listeners ..).trans (Network.listeners_releaseAll ..)
  all_goals rfl

end Holder

end LoopbackLock
