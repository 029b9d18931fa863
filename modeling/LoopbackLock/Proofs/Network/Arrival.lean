import LoopbackLock.Proofs.Network.Evolving
import LoopbackLock.Proofs.Wire.Opening

/-!
# What arrives at a called end

As long as somebody owns the called end of a connection, all that the calling end writes arrives
there: it was read, or it is in the inbox (`Network.Arrived`). Nobody but who reads at the called
end changes how much was read (`Passes.arrived`, `arrived_hear?`).
-/

namespace LoopbackLock

/-- What a reply brings to who reads. -/
def Reply.read? : Reply → Option ReadAnswer
  | .heard bytes => some (.ok bytes)
  | .failed f => some (.error f.kind)
  | _ => none

namespace Link

variable {l l' l'' : Link} {side : Side} {bytes : Bytes}

/-- Nobody reads at the called end meanwhile: while it is owned, it gets what the calling end
says. -/
structure Passes (l l' : Link) : Prop where
  said : l.caller.said <+: l'.caller.said
  inbox : l'.callee.handles ≠ 0 → l.callee.handles ≠ 0 ∧
    ∃ part, l'.caller.said = l.caller.said ++ part ∧ l'.callee.inbox = l.callee.inbox ++ part

/-- Nothing is said and nothing arrives, and the called end does not come to be owned. -/
theorem Passes.of_same (hsaid : l'.caller.said = l.caller.said)
    (hinbox : l'.callee.inbox = l.callee.inbox)
    (hopen : l'.callee.handles ≠ 0 → l.callee.handles ≠ 0) : l.Passes l' where
  said := hsaid ▸ List.prefix_refl _
  inbox h := ⟨hopen h, [], by rw [hsaid, List.append_nil], by rw [hinbox, List.append_nil]⟩

theorem Passes.refl (l : Link) : l.Passes l := .of_same rfl rfl id

theorem Passes.trans (h : l.Passes l') (h' : l'.Passes l'') : l.Passes l'' where
  said := h.said.trans h'.said
  inbox hopen := by
    obtain ⟨hopen', part', hsaid', hinbox'⟩ := h'.inbox hopen
    obtain ⟨hopen, part, hsaid, hinbox⟩ := h.inbox hopen'
    exact ⟨hopen, part ++ part', by rw [hsaid', hsaid, List.append_assoc],
      by rw [hinbox', hinbox, List.append_assoc]⟩

theorem passes_write (h : l.write side bytes = .ok l') : l.Passes l' := by
  rcases write_cases h with ⟨hclosed, rfl⟩ | ⟨-, rfl⟩
  · cases side
    · exact ⟨List.prefix_append .., fun hopen => absurd hclosed hopen⟩
    · exact .of_same rfl rfl id
  · cases side
    · exact ⟨List.prefix_append .., fun hopen => ⟨hopen, bytes, rfl, rfl⟩⟩
    · exact .of_same rfl rfl id

theorem passes_finish (h : l.finish side = .ok l') : l.Passes l' := by
  obtain rfl := finish_eq h
  cases side <;> exact .of_same rfl rfl id

theorem passes_release (l : Link) (side : Side) : l.Passes (l.release side) := by
  rcases release_cases l side with ⟨heq, -⟩ | ⟨-, heq | heq⟩ <;> rw [heq] <;> cases side
  · exact .of_same rfl rfl id
  · refine .of_same rfl rfl fun hleft hzero => hleft ?_
    show l.callee.handles - 1 = 0
    omega
  · exact .of_same rfl rfl id
  · exact .of_same rfl rfl fun hleft => absurd rfl hleft
  · exact .of_same rfl rfl id
  · exact .of_same rfl rfl fun hleft => absurd rfl hleft

end Link

namespace Network

variable {n n' n'' : Network} {x y : LinkId} {ℓ : ListenerId} {side : Side} {bytes : Bytes}
  {read : Bytes} {chance : Chance} {reply : Reply} {l : Link}

/-- Nobody reads at the called end of a connection meanwhile. -/
structure Passes (x : LinkId) (n n' : Network) : Prop where
  old : ∀ {l : Link}, n.links[x]? = some l → ∃ l', n'.links[x]? = some l' ∧ l.Passes l'
  new : ∀ {l' : Link}, n.links[x]? = none → n'.links[x]? = some l' →
    ∃ source target, Link.Passes { source, target } l'

theorem Passes.of_link (h : n'.links[x]? = n.links[x]?) : n.Passes x n' where
  old hx := ⟨_, h ▸ hx, .refl _⟩
  new hx hx' := by rw [h, hx] at hx'; cases hx'

theorem Passes.of_links (h : n'.links = n.links) : n.Passes x n' := .of_link (by rw [h])

theorem Passes.refl (n : Network) : n.Passes x n := .of_link rfl

theorem Passes.trans (h : n.Passes x n') (h' : n'.Passes x n'') : n.Passes x n'' where
  old hx := by
    obtain ⟨l', hx', hp⟩ := h.old hx
    obtain ⟨l'', hx'', hp'⟩ := h'.old hx'
    exact ⟨l'', hx'', hp.trans hp'⟩
  new {l''} hx hx'' := by
    rcases hx' : n'.links[x]? with _ | l'
    · exact h'.new hx' hx''
    · obtain ⟨source, target, hp⟩ := h.new hx hx'
      obtain ⟨l₁, hl₁, hp'⟩ := h'.old hx'
      obtain rfl := Option.some.inj (hl₁.symm.trans hx'')
      exact ⟨source, target, hp.trans hp'⟩

theorem getElem?_modifyLink (n : Network) (y : LinkId) (f : Link → Link) (x : LinkId) :
    (n.modifyLink y f).links[x]? = if y = x then (n.links[x]?).map f else n.links[x]? := by
  show (n.links.modify y f)[x]? = _
  rw [List.getElem?_modify]
  by_cases hyx : y = x <;> simp [hyx]

/-- A change of a connection that is no read at its called end. -/
theorem Passes.modifyLink {f : Link → Link}
    (hf : y = x → ∀ l, n.links[y]? = some l → l.Passes (f l)) :
    n.Passes x (n.modifyLink y f) := by
  by_cases hyx : y = x
  · subst hyx
    constructor
    · intro l hx
      refine ⟨f l, ?_, hf rfl l hx⟩
      rw [getElem?_modifyLink, if_pos rfl, hx, Option.map_some]
    · intro l' hx hx'
      rw [getElem?_modifyLink, if_pos rfl, hx] at hx'
      cases hx'
  · exact .of_link (by rw [getElem?_modifyLink, if_neg hyx])

theorem passes_release (n : Network) (y : LinkId) (side : Side) :
    n.Passes x (n.release y side) :=
  .modifyLink fun _ l _ => l.passes_release side

theorem passes_releaseAll (n : Network) (ys : List LinkId) : n.Passes x (n.releaseAll ys) :=
  releaseAll_induction n ys (.refl n) fun n' y _ hp => hp.trans (passes_release n' y .callee)

theorem passes_write (h : n.write y side bytes = .ok n') : n.Passes x n' := by
  obtain ⟨l, l', hl, hw, rfl⟩ := write_eq_ok h
  refine .modifyLink fun _ l₁ hl₁ => ?_
  obtain rfl := Option.some.inj (hl.symm.trans hl₁)
  exact Link.passes_write hw

theorem passes_finish (h : n.finish y side = .ok n') : n.Passes x n' := by
  obtain ⟨l, l', hl, hf, rfl⟩ := finish_eq_ok h
  refine .modifyLink fun _ l₁ hl₁ => ?_
  obtain rfl := Option.some.inj (hl.symm.trans hl₁)
  exact Link.passes_finish hf

/-- A read elsewhere, or at the calling end. -/
theorem passes_hear? (h : n.hear? y side chance = some (reply, n'))
    (hother : y = x → side = .caller) : n.Passes x n' := by
  rcases hear?_cases h with ⟨_, -, rfl⟩ | ⟨_, _, _, -, -, -, -, rfl⟩
  · exact .refl _
  · refine .modifyLink fun hyx _ _ => ?_
    rw [hother hyx]
    exact .of_same rfl rfl id

theorem passes_say (h : n.say y side bytes chance = (reply, n')) : n.Passes x n' := by
  rcases say_cases h with ⟨_, -, rfl⟩ | ⟨_, -, hw⟩
  · exact .refl _
  · exact passes_write hw

theorem passes_unbind (n : Network) (ℓ : ListenerId) : n.Passes x (n.unbind ℓ) := by
  refine unbind_induction n ℓ (.of_links rfl) fun _ _ _ hp => hp.trans (.modifyLink fun _ l _ => ?_)
  exact .of_same rfl rfl fun hopen => absurd rfl hopen

theorem passes_connect {source target : Endpoint} (h : n.connect source target = .ok (y, n')) :
    n.Passes x n' where
  old hx := ⟨_, getElem?_connect_old h hx, .refl _⟩
  new hx hx' := by
    rw [getElem?_connect h] at hx'
    split at hx'
    · cases hx'
      exact ⟨source, target, .refl _⟩
    · cases hx.symm.trans hx'

/-- So much of what the calling end has written was read, and while the called end is owned, the
rest has arrived. -/
def Arrived (n : Network) (x : LinkId) (read : Bytes) : Prop :=
  ∀ l, n.links[x]? = some l → read <+: l.caller.said ∧
    (l.callee.handles ≠ 0 → read ++ l.callee.inbox = l.caller.said)

theorem Passes.arrived (hp : n.Passes x n') (h : n.Arrived x read)
    (hnew : n.links[x]? = none → read = []) : n'.Arrived x read := by
  -- What was read stays so, whatever the calling end says meanwhile.
  have hkept : ∀ {l l' : Link}, l.Passes l' → read <+: l.caller.said →
      (l.callee.handles ≠ 0 → read ++ l.callee.inbox = l.caller.said) →
      read <+: l'.caller.said ∧
        (l'.callee.handles ≠ 0 → read ++ l'.callee.inbox = l'.caller.said) := by
    intro l l' hp hread hall
    refine ⟨hread.trans hp.said, fun hopen => ?_⟩
    obtain ⟨hopen, part, hsaid, hinbox⟩ := hp.inbox hopen
    rw [hinbox, hsaid, ← List.append_assoc, hall hopen]
  intro l' hl'
  rcases hl : n.links[x]? with _ | l
  · obtain ⟨source, target, hp⟩ := hp.new hl hl'
    rw [hnew hl]
    rw [hnew hl] at hkept
    exact hkept hp (List.prefix_refl _) fun _ => rfl
  · obtain ⟨l₁, hl₁, hp⟩ := hp.old hl
    obtain rfl := Option.some.inj (hl₁.symm.trans hl')
    obtain ⟨hread, hall⟩ := h l hl
    exact hkept hp hread hall

/-- A read at an owned called end moves bytes from the inbox. -/
theorem arrived_hear? (h : n.hear? x .callee chance = some (reply, n')) (hopen : n.handles x ≠ 0)
    (ha : n.Arrived x read) : n'.Arrived x (read ++ Framing.data reply.read?.toList) := by
  rcases hear?_cases h with ⟨f, rfl, rfl⟩ | ⟨l, most, bytes, hl, hfound, -, rfl, rfl⟩
  · simpa [Reply.read?, Framing.data] using ha
  intro l' hl'
  rw [getElem?_modifyLink, if_pos rfl, hl] at hl'
  cases hl'
  have hopen : l.callee.handles ≠ 0 := by
    unfold Network.handles at hopen
    rwa [view_some hl] at hopen
  have hinbox : l.callee.inbox = bytes ++ l.callee.inbox.drop bytes.length := by
    have hfound : l.callee.found most = some (.ok bytes) := hfound
    unfold End.found at hfound
    split at hfound
    · cases hfound
      rw [List.length_take]
      rcases Nat.le_total most l.callee.inbox.length with hle | hle
      · rw [Nat.min_eq_left hle, List.take_append_drop]
      · rw [Nat.min_eq_right hle, List.take_of_length_le hle, List.drop_length, List.append_nil]
    · split at hfound
      · cases hfound; rfl
      · split at hfound <;> cases hfound
  have hall : (read ++ bytes) ++ l.callee.inbox.drop bytes.length = l.caller.said := by
    rw [List.append_assoc, ← hinbox, (ha l hl).2 hopen]
  have hdata : Framing.data (Reply.heard bytes).read?.toList = bytes := List.append_nil bytes
  rw [hdata]
  exact ⟨⟨_, hall⟩, fun _ => hall⟩

end Network

end LoopbackLock
