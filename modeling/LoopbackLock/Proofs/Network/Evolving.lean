import LoopbackLock.Proofs.Network.Ends

/-!
# How connections evolve

Whatever is done in a network changes its connections by reads, writes, and owners that come and go
(`Network.Evolves`). So each end learns that the other one is gone, and only then (`Link.Sound`).
-/

namespace LoopbackLock

namespace Link

variable {l l' l'' : Link} {calls : Prop}

/-- One change of a connection. The calling end may be read or given up only if `calls` holds. -/
inductive Changes (calls : Prop) (l : Link) : Link → Prop
  | took (side : Side) (count : Nat) (hcalls : side = .caller → calls) :
    Changes calls l (l.take side count)
  | wrote {side : Side} {bytes : Bytes} {l' : Link} (h : l.write side bytes = .ok l') :
    Changes calls l l'
  | finished {side : Side} {l' : Link} (h : l.finish side = .ok l') : Changes calls l l'
  | shared (h : l.callee.handles ≠ 0) : Changes calls l (l.share .callee)
  | released (side : Side) (hcalls : side = .caller → calls) : Changes calls l (l.release side)
  | refused : Changes calls l (l.refuse .callee)

/-- Changes one after the other. -/
inductive Evolves (calls : Prop) : Link → Link → Prop
  | refl (l : Link) : Evolves calls l l
  | step {l l' l'' : Link} (h : l.Changes calls l') (hrest : Evolves calls l' l'') :
    Evolves calls l l''

theorem Evolves.trans (h : l.Evolves calls l') (h' : l'.Evolves calls l'') :
    l.Evolves calls l'' := by
  induction h with
  | refl => exact h'
  | step hc _ ih => exact .step hc (ih h')

/-- What every change keeps is kept. -/
theorem Evolves.invariant {P : Link → Prop} (hstep : ∀ l l', P l → l.Changes calls l' → P l')
    (h : l.Evolves calls l') (hl : P l) : P l' := by
  induction h with
  | refl => exact hl
  | step hc _ ih => exact ih (hstep _ _ hl hc)

/-- An end knows that the other one is gone when it is, and only then. -/
structure Sound (l : Link) : Prop where
  woken : l.callee.handles = 0 → l.caller.ended = true ∨ l.caller.reset = true
  notified : l.caller.ended = true → l.callee.finished = true ∨ l.callee.handles = 0
  ended : l.callee.ended = true → l.caller.finished = true ∨ l.caller.handles = 0
  reset : l.callee.reset = true → l.caller.handles = 0

theorem write_cases {side : Side} {bytes : Bytes} (h : l.write side bytes = .ok l') :
    ((l.atSide side.other).handles = 0 ∧ l' = (l.modify side fun e =>
        { e with said := e.said ++ bytes }).modify side fun e => { e with reset := true }) ∨
      (l.atSide side.other).handles ≠ 0 ∧ l' = (l.modify side fun e =>
        { e with said := e.said ++ bytes }).modify side.other fun e =>
          { e with inbox := e.inbox ++ bytes } := by
  unfold write at h
  split at h
  · cases h
  · split at h
    · next hclosed =>
      cases h
      exact .inl ⟨by simpa [End.isClosed] using hclosed, rfl⟩
    · next hopen =>
      cases h
      exact .inr ⟨by simpa [End.isClosed] using hopen, rfl⟩

theorem finish_eq {side : Side} (h : l.finish side = .ok l') :
    l' = (l.modify side fun e => { e with finished := true }).modify side.other
      fun e => { e with ended := true } := by
  unfold finish at h
  split at h
  · cases h
  · cases h; rfl

/-- An end loses an owner; if that was its last, the other end learns it. -/
theorem release_cases (l : Link) (side : Side) :
    (l.release side = l.modify side (fun e => { e with handles := e.handles - 1 }) ∧
      ((l.atSide side).handles = 0 ∨ (l.atSide side).handles - 1 ≠ 0)) ∨
    ((l.atSide side).handles = 1 ∧ (l.release side = (l.modify side fun e =>
        { e with handles := 0 }).modify side.other (fun e => { e with reset := true }) ∨
      l.release side = (l.modify side fun e =>
        { e with handles := 0 }).modify side.other fun e => { e with ended := true })) := by
  have hsame : l.modify side (fun e => { e with handles := (l.atSide side).handles - 1 }) =
      l.modify side (fun e => { e with handles := e.handles - 1 }) := by
    cases side <;> rfl
  unfold release
  simp only
  split
  · next h =>
    refine .inl ⟨hsame, ?_⟩
    simpa [End.isClosed] using h
  · next h =>
    have hone : (l.atSide side).handles = 1 := by
      simp [End.isClosed] at h
      omega
    refine .inr ⟨hone, ?_⟩
    rw [hone]
    split
    · left; cases side <;> rfl
    · right; cases side <;> rfl

theorem Changes.sound (hs : l.Sound) (hc : l.Changes calls l') : l'.Sound := by
  obtain ⟨hwoken, hover, hended, hreset⟩ := hs
  cases hc
  case took side count _ => cases side <;> exact ⟨hwoken, hover, hended, hreset⟩
  case wrote side bytes h =>
    rcases write_cases h with ⟨hclosed, rfl⟩ | ⟨-, rfl⟩
    · cases side
      · exact ⟨fun _ => .inr rfl, hover, hended, hreset⟩
      · exact ⟨hwoken, hover, hended, fun _ => hclosed⟩
    · cases side <;> exact ⟨hwoken, hover, hended, hreset⟩
  case finished side h =>
    obtain rfl := finish_eq h
    cases side
    · exact ⟨hwoken, hover, fun _ => .inl rfl, hreset⟩
    · exact ⟨fun _ => .inl rfl, fun _ => .inl rfl, hended, hreset⟩
  case shared hopen =>
    refine ⟨fun h => absurd h (Nat.succ_ne_zero _), fun h => ?_, hended, hreset⟩
    exact .inl ((hover h).resolve_right hopen)
  case released side _ =>
    rcases release_cases l side with ⟨heq, hleft⟩ | ⟨-, heq | heq⟩
    · rw [heq]
      cases side
      · refine ⟨hwoken, hover, fun h => (hended h).imp_right fun h0 => ?_, fun h => ?_⟩
        · show l.caller.handles - 1 = 0
          omega
        · have h0 := hreset h
          show l.caller.handles - 1 = 0
          omega
      · refine ⟨fun h => hwoken ?_, fun h => (hover h).imp_right fun h0 => ?_, hended, hreset⟩
        · rcases hleft with h0 | hne
          · exact h0
          · exact absurd h hne
        · show l.callee.handles - 1 = 0
          omega
    · rw [heq]
      cases side
      · exact ⟨hwoken, hover, fun h => (hended h).imp_right fun _ => rfl, fun _ => rfl⟩
      · exact ⟨fun _ => .inr rfl, fun _ => .inr rfl, hended, hreset⟩
    · rw [heq]
      cases side
      · exact ⟨hwoken, hover, fun _ => .inr rfl, fun _ => rfl⟩
      · exact ⟨fun _ => .inl rfl, fun _ => .inr rfl, hended, hreset⟩
  case refused => exact ⟨fun _ => .inr rfl, fun _ => .inr rfl, hended, hreset⟩

/-- The calling end is said to be over, or given up. -/
def isHungUp (l : Link) : Bool := l.caller.finished || decide (l.caller.handles = 0)

/-- Who has hung up stays so. -/
theorem Changes.isHungUp (hc : l.Changes calls l') (h : l.isHungUp = true) : l'.isHungUp = true := by
  have hcases : l.caller.finished = true ∨ l.caller.handles = 0 := by
    simpa [Link.isHungUp] using h
  have hgoal : l'.caller.finished = true ∨ l'.caller.handles = 0 := by
    cases hc
    case took side count _ => cases side <;> exact hcases
    case wrote side bytes h =>
      rcases write_cases h with ⟨-, rfl⟩ | ⟨-, rfl⟩ <;> cases side <;> exact hcases
    case finished side h =>
      obtain rfl := finish_eq h
      cases side
      · exact .inl rfl
      · exact hcases
    case shared => exact hcases
    case released side _ =>
      rcases release_cases l side with ⟨heq, -⟩ | ⟨-, heq | heq⟩ <;> rw [heq] <;> cases side
      · refine hcases.imp_right fun h0 => ?_
        show l.caller.handles - 1 = 0
        omega
      · exact hcases
      · exact .inr rfl
      · exact hcases
      · exact .inr rfl
      · exact hcases
    case refused => exact hcases
  simpa [Link.isHungUp] using hgoal

/-- A connection comes from where it came from. -/
theorem Changes.source (hc : l.Changes calls l') : l'.source = l.source := by
  cases hc
  case took side count _ => cases side <;> rfl
  case wrote side bytes h =>
    rcases write_cases h with ⟨-, rfl⟩ | ⟨-, rfl⟩ <;> cases side <;> rfl
  case finished side h =>
    obtain rfl := finish_eq h
    cases side <;> rfl
  case shared => rfl
  case released side _ =>
    rcases release_cases l side with ⟨heq, -⟩ | ⟨-, heq | heq⟩ <;> rw [heq] <;> cases side <;> rfl
  case refused => rfl

/-- Nothing but the calling end makes the called end look closed. -/
theorem Sound.looksOpen (hs : l.Sound) (h : l.isHungUp = false) : l.callee.looksOpen = true := by
  have hopen : l.caller.finished = false ∧ l.caller.handles ≠ 0 := by
    simpa [Link.isHungUp] using h
  have hended : l.callee.ended = false := by
    rcases he : l.callee.ended with _ | _
    · rfl
    · rcases hs.ended he with hfin | hzero
      · rw [hopen.1] at hfin
        cases hfin
      · exact absurd hzero hopen.2
  have hreset : l.callee.reset = false := by
    rcases hr : l.callee.reset with _ | _
    · rfl
    · exact absurd (hs.reset hr) hopen.2
  simp [End.looksOpen, hended, hreset]

end Link

namespace Network

variable {n n' n'' : Network} {x y : LinkId} {ℓ : ListenerId} {calls : LinkId → Prop}

/-- Connections are changed, and new ones are made. -/
structure Evolves (calls : LinkId → Prop) (n n' : Network) : Prop where
  old : ∀ {x : LinkId} {l : Link}, n.links[x]? = some l →
    ∃ l', n'.links[x]? = some l' ∧ l.Evolves (calls x) l'
  new : ∀ {x : LinkId} {l' : Link}, n.links[x]? = none → n'.links[x]? = some l' →
    ∃ source target, Link.Evolves (calls x) { source, target } l'

theorem Evolves.refl (n : Network) : n.Evolves calls n where
  old h := ⟨_, h, .refl _⟩
  new h h' := by cases h.symm.trans h'

theorem Evolves.trans (h : n.Evolves calls n') (h' : n'.Evolves calls n'') :
    n.Evolves calls n'' where
  old hx := by
    obtain ⟨l', hx', he⟩ := h.old hx
    obtain ⟨l'', hx'', he'⟩ := h'.old hx'
    exact ⟨l'', hx'', he.trans he'⟩
  new {x l''} hx hx'' := by
    rcases hx' : n'.links[x]? with _ | l'
    · exact h'.new hx' hx''
    · obtain ⟨source, target, he⟩ := h.new hx hx'
      obtain ⟨l₁, hl₁, he'⟩ := h'.old hx'
      obtain rfl := Option.some.inj (hl₁.symm.trans hx'')
      exact ⟨source, target, he.trans he'⟩

theorem Evolves.of_links (h : n'.links = n.links) : n.Evolves calls n' where
  old hx := ⟨_, h ▸ hx, .refl _⟩
  new hx hx' := by rw [h, hx] at hx'; cases hx'

theorem Evolves.modifyLink {f : Link → Link}
    (hf : ∀ l, n.links[x]? = some l → l.Changes (calls x) (f l)) :
    n.Evolves calls (n.modifyLink x f) where
  old {y l} hy := by
    show ∃ l', (n.links.modify x f)[y]? = some l' ∧ _
    rw [List.getElem?_modify, hy]
    by_cases hxy : x = y
    · subst hxy
      exact ⟨f l, by simp, .step (hf l hy) (.refl _)⟩
    · exact ⟨l, by simp [hxy], .refl _⟩
  new {y l'} hy hy' := by
    have hy' : (n.links.modify x f)[y]? = some l' := hy'
    rw [List.getElem?_modify, hy] at hy'
    cases hy'

theorem evolves_release (n : Network) (x : LinkId) (side : Side)
    (hcalls : side = .caller → calls x) : n.Evolves calls (n.release x side) :=
  .modifyLink fun _ _ => .released side hcalls

theorem evolves_releaseAll (n : Network) (xs : List LinkId) :
    n.Evolves calls (n.releaseAll xs) :=
  releaseAll_induction n xs (.refl n) fun n' x _ he =>
    he.trans (evolves_release n' x .callee (by rintro ⟨⟩))

theorem evolves_write {side : Side} {bytes : Bytes} (h : n.write x side bytes = .ok n') :
    n.Evolves calls n' := by
  obtain ⟨l, l', hl, hw, rfl⟩ := write_eq_ok h
  refine .modifyLink fun l₁ hl₁ => ?_
  obtain rfl := Option.some.inj (hl.symm.trans hl₁)
  exact .wrote hw

theorem evolves_finish {side : Side} (h : n.finish x side = .ok n') : n.Evolves calls n' := by
  obtain ⟨l, l', hl, hf, rfl⟩ := finish_eq_ok h
  refine .modifyLink fun l₁ hl₁ => ?_
  obtain rfl := Option.some.inj (hl.symm.trans hl₁)
  exact .finished hf

theorem evolves_hear? {side : Side} {chance : Chance} {reply : Reply}
    (h : n.hear? x side chance = some (reply, n')) (hcalls : side = .caller → calls x) :
    n.Evolves calls n' := by
  rcases hear?_cases h with ⟨_, -, rfl⟩ | ⟨_, _, _, -, -, -, -, rfl⟩
  · exact .refl _
  · exact .modifyLink fun _ _ => .took side _ hcalls

theorem evolves_say {side : Side} {bytes : Bytes} {chance : Chance} {reply : Reply}
    (h : n.say x side bytes chance = (reply, n')) : n.Evolves calls n' := by
  rcases say_cases h with ⟨_, -, rfl⟩ | ⟨_, -, hw⟩
  · exact .refl _
  · exact evolves_write hw

theorem evolves_unbind (n : Network) (ℓ : ListenerId) : n.Evolves calls (n.unbind ℓ) := by
  exact unbind_induction n ℓ (.of_links rfl) fun _ _ _ he =>
    he.trans (.modifyLink fun _ _ => .refused)

theorem evolves_accept? (h : n.accept? ℓ = some (x, n')) : n.Evolves calls n' :=
  .of_links (view_accept? h)

theorem evolves_connect {source target : Endpoint} (h : n.connect source target = .ok (x, n')) :
    n.Evolves calls n' where
  old hy := ⟨_, getElem?_connect_old h hy, .refl _⟩
  new hy hy' := by
    rw [getElem?_connect h] at hy'
    split at hy'
    · cases hy'
      exact ⟨source, target, .refl _⟩
    · cases hy.symm.trans hy'

/-- What holds of new connections and is kept by every change holds of all connections. -/
theorem Evolves.forall_links {P : Link → Prop} (he : n.Evolves calls n')
    (hnew : ∀ source target, P { source, target })
    (hstep : ∀ {calls : Prop} l l', P l → Link.Changes calls l l' → P l')
    (h : ∀ l ∈ n.links, P l) : ∀ l' ∈ n'.links, P l' := by
  intro l' hmem
  obtain ⟨x, hx'⟩ := List.getElem?_of_mem hmem
  rcases hx : n.links[x]? with _ | l
  · obtain ⟨source, target, hl⟩ := he.new hx hx'
    exact hl.invariant hstep (hnew source target)
  · obtain ⟨l₁, hl₁, hl⟩ := he.old hx
    obtain rfl := Option.some.inj (hl₁.symm.trans hx')
    exact hl.invariant hstep (h l (List.mem_of_getElem? hx))

/-- All connections are sound. -/
def Sound (n : Network) : Prop := ∀ l ∈ n.links, l.Sound

theorem Sound.evolves (h : n.Sound) (he : n.Evolves calls n') : n'.Sound := by
  refine he.forall_links (fun source target => ?_) (fun _ _ hs hc => hc.sound hs) h
  exact ⟨fun h => (Nat.succ_ne_zero 0 h).elim, fun h => Bool.noConfusion h,
    fun h => Bool.noConfusion h, fun h => Bool.noConfusion h⟩

/-- The port a connection comes from. -/
def portOf? (n : Network) (x : LinkId) : Option UInt16 := (n.links[x]?).map (·.source.port)

theorem Evolves.portOf? {p : UInt16} (he : n.Evolves calls n') (hp : n.portOf? x = some p) :
    n'.portOf? x = some p := by
  obtain ⟨l, hl, rfl⟩ := Option.map_eq_some_iff.mp hp
  obtain ⟨l', hl', hev⟩ := he.old hl
  have hsource : l'.source = l.source :=
    hev.invariant (fun _ _ heq hc => hc.source.trans heq) rfl
  unfold Network.portOf?
  rw [hl', Option.map_some, hsource]

/-- The peer of a connection has said that it sends no more, or given it up. -/
def isHungUp (n : Network) (x : LinkId) : Bool := (n.links[x]?).any (·.isHungUp)

theorem Evolves.isHungUp (he : n.Evolves calls n') (h : n.isHungUp x = true) : n'.isHungUp x = true := by
  unfold Network.isHungUp at h ⊢
  rcases hl : n.links[x]? with _ | l
  · rw [hl] at h
    cases h
  · rw [hl] at h
    obtain ⟨l', hl', hev⟩ := he.old hl
    rw [hl']
    exact hev.invariant (P := fun l => l.isHungUp = true) (fun _ _ hl hc => hc.isHungUp hl) h

theorem Sound.looksOpen (hs : n.Sound) (hx : x < n.links.length) (h : n.isHungUp x = false) :
    n.looksOpen x = true := by
  have hl := List.getElem?_eq_getElem hx
  unfold Network.isHungUp at h
  unfold Network.looksOpen
  rw [hl] at h ⊢
  exact (hs _ (List.getElem_mem hx)).looksOpen h

end Network

end LoopbackLock
