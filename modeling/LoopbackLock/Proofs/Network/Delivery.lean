import LoopbackLock.Proofs.Network.Evolving

/-!
# What arrives at a calling end

As long as somebody owns the calling end of a connection, all that the called end writes arrives
there: it was read, or it is in the inbox (`Network.Delivered`). Nobody but the owner of the calling
end changes how much was read (`Evolves.delivered`).
-/

namespace LoopbackLock

namespace Link

variable {l l' : Link}

/-- What the called end says arrives at a calling end that is owned. -/
theorem Changes.delivers (hc : l.Changes False l') :
    l'.caller.handles = l.caller.handles ∧ (l.caller.handles ≠ 0 →
      ∃ part, l'.callee.said = l.callee.said ++ part ∧ l'.caller.inbox = l.caller.inbox ++ part) := by
  have hsame : l'.caller.handles = l.caller.handles → l'.callee.said = l.callee.said →
      l'.caller.inbox = l.caller.inbox → l'.caller.handles = l.caller.handles ∧
      (l.caller.handles ≠ 0 → ∃ part, l'.callee.said = l.callee.said ++ part ∧
        l'.caller.inbox = l.caller.inbox ++ part) := by
    intro hh hs hi
    exact ⟨hh, fun _ => ⟨[], by rw [hs, List.append_nil], by rw [hi, List.append_nil]⟩⟩
  cases hc
  case took side count hcalls =>
    cases side
    · exact (hcalls rfl).elim
    · exact hsame rfl rfl rfl
  case wrote side bytes h =>
    rcases write_cases h with ⟨hclosed, rfl⟩ | ⟨-, rfl⟩
    · cases side
      · exact hsame rfl rfl rfl
      · exact ⟨rfl, fun hopen => absurd hclosed hopen⟩
    · cases side
      · exact hsame rfl rfl rfl
      · exact ⟨rfl, fun _ => ⟨bytes, rfl, rfl⟩⟩
  case finished side h =>
    obtain rfl := finish_eq h
    cases side <;> exact hsame rfl rfl rfl
  case shared => exact hsame rfl rfl rfl
  case released side hcalls =>
    cases side
    · exact (hcalls rfl).elim
    · rcases release_cases l .callee with ⟨heq, -⟩ | ⟨-, heq | heq⟩ <;> rw [heq] at hsame ⊢
      all_goals exact hsame rfl rfl rfl
  case refused => exact hsame rfl rfl rfl

theorem Evolves.delivers (h : l.Evolves False l') :
    l'.caller.handles = l.caller.handles ∧ (l.caller.handles ≠ 0 →
      ∃ part, l'.callee.said = l.callee.said ++ part ∧ l'.caller.inbox = l.caller.inbox ++ part) := by
  induction h with
  | refl => exact ⟨rfl, fun _ => ⟨[], by rw [List.append_nil], by rw [List.append_nil]⟩⟩
  | step hc _ ih =>
    obtain ⟨hh, hd⟩ := hc.delivers
    obtain ⟨hh', hd'⟩ := ih
    refine ⟨hh'.trans hh, fun hopen => ?_⟩
    obtain ⟨part, hs, hi⟩ := hd hopen
    obtain ⟨part', hs', hi'⟩ := hd' (by rw [hh]; exact hopen)
    exact ⟨part ++ part', by rw [hs', hs, List.append_assoc], by rw [hi', hi, List.append_assoc]⟩

/-- Of what the called end has said, a calling end that is owned has yet to read what is in its inbox,
and has read the rest. -/
def Received (l : Link) : Prop := l.caller.handles ≠ 0 → l.caller.inbox <:+ l.callee.said

theorem Changes.received {calls : Prop} (hr : l.Received) (hc : l.Changes calls l') :
    l'.Received := by
  cases hc
  case took side count _ =>
    cases side
    · exact fun hopen => (List.drop_suffix ..).trans (hr hopen)
    · exact hr
  case wrote side bytes h =>
    rcases write_cases h with ⟨hclosed, rfl⟩ | ⟨-, rfl⟩
    · cases side
      · exact hr
      · exact fun hopen => absurd hclosed hopen
    · cases side
      · exact hr
      · intro hopen
        obtain ⟨read, heq⟩ := hr hopen
        refine ⟨read, ?_⟩
        show read ++ (l.caller.inbox ++ bytes) = l.callee.said ++ bytes
        rw [← List.append_assoc, heq]
  case finished side h =>
    obtain rfl := finish_eq h
    cases side <;> exact hr
  case shared => exact hr
  case released side _ =>
    rcases release_cases l side with ⟨heq, -⟩ | ⟨-, heq | heq⟩ <;> rw [heq] <;> cases side
    · refine fun hopen => hr fun hzero => hopen ?_
      show l.caller.handles - 1 = 0
      omega
    · exact hr
    · exact fun hopen => absurd rfl hopen
    · exact hr
    · exact fun hopen => absurd rfl hopen
    · exact hr
  case refused => exact hr

end Link

namespace Network

variable {n n' : Network} {x y : LinkId} {read bytes : Bytes} {calls : LinkId → Prop}
variable {chance : Chance} {reply : Reply}

/-- How many owners the calling end has. -/
abbrev callers : Network → LinkId → Nat := view (·.caller.handles) 0

/-- The called end was heard to send no more. -/
abbrev isOver : Network → LinkId → Bool := view (·.caller.ended) false

/-- So much was read of what the called end has written, and the rest has arrived. -/
def Delivered (n : Network) (x : LinkId) (read : Bytes) : Prop :=
  ∃ l, n.links[x]? = some l ∧ read ++ l.caller.inbox = l.callee.said

/-- What was said on a connection arrives where the calling end is owned. -/
def Received (n : Network) : Prop := ∀ l ∈ n.links, l.Received

theorem Received.evolves (h : n.Received) (he : n.Evolves calls n') : n'.Received :=
  he.forall_links (fun _ _ _ => List.suffix_rfl) (fun _ _ hr hc => hc.received hr) h

theorem Received.delivered (h : n.Received) (hopen : n.callers x ≠ 0) :
    ∃ read, n.Delivered x read := by
  rcases hl : n.links[x]? with _ | l
  · exact absurd (view_none hl) hopen
  · rw [callers, view_some hl] at hopen
    obtain ⟨read, heq⟩ := h l (List.mem_of_getElem? hl) hopen
    exact ⟨read, l, hl, heq⟩

theorem Delivered.said (h : n.Delivered x read) : read <+: n.said x := by
  obtain ⟨l, hl, heq⟩ := h
  unfold Network.said
  rw [view_some hl]
  exact ⟨l.caller.inbox, heq⟩

theorem Evolves.delivered (he : n.Evolves calls n') (hcalls : ¬ calls x) (hopen : n.callers x ≠ 0)
    (h : n.Delivered x read) : n'.Delivered x read := by
  obtain ⟨l, hl, heq⟩ := h
  obtain ⟨l', hl', hev⟩ := he.old hl
  rw [eq_false hcalls] at hev
  unfold callers at hopen
  rw [view_some hl] at hopen
  obtain ⟨part, hs, hi⟩ := hev.delivers.2 hopen
  exact ⟨l', hl', by rw [hs, hi, ← List.append_assoc, heq]⟩

/-- A calling end keeps its owners; one that comes about has one. -/
theorem Evolves.callers (he : n.Evolves calls n') (hcalls : ¬ calls x) :
    n'.callers x = n.callers x ∨ n.callers x = 0 ∧ n'.callers x = 1 := by
  unfold Network.callers
  rcases hl : n.links[x]? with _ | l
  · rw [view_none hl]
    rcases hl' : n'.links[x]? with _ | l'
    · exact .inl (view_none hl')
    · obtain ⟨source, target, hev⟩ := he.new hl hl'
      rw [eq_false hcalls] at hev
      rw [view_some hl']
      exact .inr ⟨rfl, hev.delivers.1⟩
  · obtain ⟨l', hl', hev⟩ := he.old hl
    rw [eq_false hcalls] at hev
    rw [view_some hl, view_some hl']
    exact .inl hev.delivers.1

/-- A read moves bytes from the inbox; it gets none at the end of the stream alone. -/
theorem delivered_hear? (h : n.hear? x .caller chance = some (.heard bytes, n'))
    (hd : n.Delivered x read) :
    n'.Delivered x (read ++ bytes) ∧ (bytes = [] → n.isOver x = true ∧ read = n.said x) := by
  rcases hear?_cases h with ⟨_, hr, -⟩ | ⟨l, most, bytes', hl, hfound, hmost, hr, rfl⟩
  · cases hr
  cases hr
  obtain ⟨l₁, hl₁, heq⟩ := hd
  obtain rfl := Option.some.inj (hl.symm.trans hl₁)
  have hcases : l.caller.inbox ≠ [] ∧ bytes = l.caller.inbox.take most ∨
      l.caller.inbox = [] ∧ l.caller.ended = true ∧ bytes = [] := by
    have hfound : l.caller.found most = some (.ok bytes) := hfound
    unfold End.found at hfound
    split at hfound
    · next hne => cases hfound; exact .inl ⟨hne, rfl⟩
    · next hempty =>
      split at hfound
      · next hended => cases hfound; exact .inr ⟨by simpa using hempty, hended, rfl⟩
      · split at hfound <;> cases hfound
  have hlink : (n.modifyLink x (·.take .caller bytes.length)).links[x]? =
      some (l.take .caller bytes.length) := getElem?_modifyLink_self hl _
  constructor
  · refine ⟨_, hlink, ?_⟩
    show (read ++ bytes) ++ l.caller.inbox.drop bytes.length = l.callee.said
    rw [← heq, List.append_assoc]
    congr 1
    rcases hcases with ⟨-, rfl⟩ | ⟨hempty, -, rfl⟩
    · rw [List.length_take]
      rcases Nat.le_total most l.caller.inbox.length with hle | hle
      · rw [Nat.min_eq_left hle, List.take_append_drop]
      · rw [Nat.min_eq_right hle, List.take_of_length_le hle, List.drop_length, List.append_nil]
    · rw [hempty]; rfl
  · intro hnone
    rcases hcases with ⟨hne, htake⟩ | ⟨hempty, hended, -⟩
    · rw [hnone] at htake
      rcases List.take_eq_nil_iff.mp htake.symm with hzero | hempty
      · omega
      · exact absurd hempty hne
    · unfold isOver Network.said
      rw [view_some hl, view_some hl]
      exact ⟨hended, by rw [← heq, hempty, List.append_nil]⟩

/-- Nothing was said on a new connection. -/
theorem delivered_connect {source target : Endpoint} (h : n.connect source target = .ok (x, n')) :
    n'.Delivered x [] := by
  obtain ⟨rfl, -, i, -, rfl⟩ := connect_eq_ok h
  refine ⟨{ source, target }, ?_, rfl⟩
  exact List.getElem?_concat_length

theorem callers_connect {source target : Endpoint} (h : n.connect source target = .ok (x, n')) :
    n'.callers y = n.callers y + if y = x then 1 else 0 := by
  unfold Network.callers
  rw [view_connect h]
  split
  · next heq => rw [heq, view_none (links_of_connect h)]
  · rfl

theorem callers_hangUp (n : Network) (x y : LinkId) :
    (n.release x .caller).callers y = n.callers y - if y = x then 1 else 0 := by
  have hcases : ∀ l : Link, (l.release .caller).caller.handles = l.caller.handles - 1 := by
    intro l
    rcases Link.release_cases l .caller with ⟨heq, -⟩ | ⟨hone, heq | heq⟩ <;> rw [heq]
    · rfl
    · show 0 = l.caller.handles - 1
      have hone : l.caller.handles = 1 := hone
      omega
    · show 0 = l.caller.handles - 1
      have hone : l.caller.handles = 1 := hone
      omega
  unfold Network.callers Network.release
  rw [view_modifyLink]
  split
  · next heq =>
    subst heq
    rcases hl : n.links[y]? with _ | l
    · rw [view_none hl]; rfl
    · rw [view_some hl]; exact hcases l
  · rfl

theorem callers_hear? {side : Side} (h : n.hear? x side chance = some (reply, n')) :
    n'.callers = n.callers := by
  rcases hear?_cases h with ⟨_, -, rfl⟩ | ⟨_, _, _, -, -, -, -, rfl⟩
  · rfl
  · exact view_modifyLink_same fun l => by cases side <;> rfl

end Network

end LoopbackLock
