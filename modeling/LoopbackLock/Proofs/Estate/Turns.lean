import LoopbackLock.Proofs.Estate.Accounts
import LoopbackLock.Proofs.Network.Evolving

/-!
# One holder, one work, one connection

`Moves` says what an event does to a whole estate. What it does to one holder (`Turns`), to the work
of one thread (`Works`) and to what one called end has said (`Speaks`) is read off it here, once.
-/

namespace LoopbackLock

theorem Dismantling.notify_ne_draining (xs : List LinkId) : notify xs ≠ draining := by
  cases xs <;> simp [notify]

theorem Dismantling.clear_ne_draining (xs : List LinkId) : clear xs ≠ draining := by
  cases xs <;> simp [clear]

namespace Estate

variable {E E' : Estate} {stored : HolderId → Prop} {h k : HolderId} {holder holder' : Holder}
variable {next : Holder × Network} {n : Network} {e : Event} {t : ThreadId}

/-- What an event does to a holder. -/
inductive Turns (E : Estate) (h : HolderId) (holder : Holder) (e : Event) (E' : Estate) :
    Holder → Prop
  | same : Turns E h holder e E' holder
  | emptied {t : ThreadId} {W : Work} {d : Dismantling} (hW : E.works[t]? = some (some W))
      (hwh : W.holder = h) (hs : W.stage = .draining ∨ W.stage = .sweeping)
      (hd : d ≠ .draining) (hnext : E'.works[t]? = some (some { W with stage := d })) :
    Turns E h holder e E' { holder with registry := [] }
  | halted {t : ThreadId} {W : Work} (hW : E.works[t]? = some (some W)) (hwh : W.holder = h)
      (hs : W.stage = .stopping) : Turns E h holder e E' { holder with stopping := true }
  | left {t : ThreadId} {W : Work} (hW : E.works[t]? = some (some W)) (hwh : W.holder = h)
      (hs : W.stage = .abandoning) :
    Turns E h holder e E' (({ holder with kept := false } : Holder).settle E.network).1
  | polled {holder' : Holder} {n : Network} (hp : holder.Polled E.network holder' n) :
    Turns E h holder e E' holder'
  | attended {j : Nat} {chance : Chance} {a : Attendant} {holder' : Holder} {n : Network}
      (he : e = .step (.attendant h j) chance) (hj : holder.attendants[j]? = some a)
      (ha : holder.Attended E.network j a chance holder' n) : Turns E h holder e E' holder'
  | shuffled {registry : Registry} (hperm : registry.Perm holder.registry) :
    Turns E h holder e E' { holder with registry }

theorem getElem?_setHolder (hk : E.holders[k]? = some holder) (h : HolderId) :
    (E.setHolder k next).holders[h]? = if h = k then some next.1 else E.holders[h]? :=
  getElem?_set_some hk next.1 h

/-- The holder that an event sets turns, and any other one is left alone. -/
theorem turns_setHolder {holder₀ : Holder} (hh : E.holders[h]? = some holder)
    (hk : E.holders[k]? = some holder₀)
    (hturn : k = h → holder₀ = holder → E.Turns h holder e E' next.1) :
    ∃ holder', (E.setHolder k next).holders[h]? = some holder' ∧ E.Turns h holder e E' holder' := by
  rw [getElem?_setHolder hk]
  by_cases hhk : h = k
  · subst hhk
    rw [if_pos rfl]
    exact ⟨_, rfl, hturn rfl (Option.some.inj (hk.symm.trans hh))⟩
  · rw [if_neg hhk]
    exact ⟨holder, hh, .same⟩

theorem Labour.turns {chance : Chance} {W : Work} {W' : Option Work}
    (hl : E.Labour W chance W' E') (hW : E.works[t]? = some (some W))
    (hh : E.holders[h]? = some holder) :
    ∃ holder', E'.holders[h]? = some holder' ∧ E.Turns h holder e (E'.setWork t W') holder' := by
  have hmine : ∀ {next : Holder × Network} {W' : Work},
      ((E.setHolder W.holder next).setWork t (some W')).works[t]? = some (some W') := by
    intro next W'
    exact List.getElem?_set_self (List.getElem?_eq_some_iff.mp hW).1
  cases hl
  case drained hs hk hr =>
    refine turns_setHolder hh hk fun hkh heq => ?_
    subst heq
    exact .emptied hW hkh (.inl hs) (Dismantling.notify_ne_draining _) hmine
  case stopped hs hk =>
    refine turns_setHolder hh hk fun hkh heq => ?_
    subst heq
    exact .halted hW hkh hs
  case swept hs hk hr =>
    refine turns_setHolder hh hk fun hkh heq => ?_
    subst heq
    exact .emptied hW hkh (.inr hs) (Dismantling.clear_ne_draining _) hmine
  case abandoned hs hk =>
    refine turns_setHolder hh hk fun hkh heq => ?_
    subst heq
    exact .left hW hkh hs
  all_goals exact ⟨holder, hh, .same⟩

theorem Moves.turns (hm : E.Moves stored e E') (hh : E.holders[h]? = some holder) :
    ∃ holder', E'.holders[h]? = some holder' ∧ E.Turns h holder e E' holder' := by
  cases hm
  case laboured hW hl => exact hl.turns hW hh
  case founded s ℓ =>
    refine ⟨holder, ?_, .same⟩
    show (E.holders ++ [_])[h]? = some holder
    rw [List.getElem?_append_left (List.getElem?_eq_some_iff.mp hh).1]
    exact hh
  case polled hk hp =>
    refine turns_setHolder hh hk fun _ heq => ?_
    subst heq
    exact .polled hp
  case attended hk hj ha =>
    refine turns_setHolder hh hk fun hkh heq => ?_
    subst heq hkh
    exact .attended rfl hj ha
  case shuffled hk hperm =>
    refine turns_setHolder hh hk fun _ heq => ?_
    subst heq
    exact .shuffled hperm
  all_goals exact ⟨holder, hh, .same⟩

/-- A holder is where it was, or has just been founded. -/
theorem Moves.holder_of (hm : E.Moves stored e E') (hh : E'.holders[h]? = some holder') :
    (∃ holder, E.holders[h]? = some holder ∧ E.Turns h holder e E' holder') ∨
      E.holders[h]? = none ∧ ∃ s ℓ, holder' = Holder.found s ℓ := by
  rcases hh₀ : E.holders[h]? with _ | holder
  · right
    refine ⟨rfl, ?_⟩
    have hset : ∀ {k next holder₀}, E.holders[k]? = some holder₀ →
        (E.setHolder k next).holders[h]? = some holder' → False := by
      intro k next holder₀ hk hh
      rw [getElem?_setHolder hk] at hh
      split at hh
      · next heq => subst heq; cases hh₀.symm.trans hk
      · cases hh₀.symm.trans hh
    cases hm
    case laboured hl =>
      cases hl
      case drained hk _ => exact (hset hk hh).elim
      case stopped hk => exact (hset hk hh).elim
      case swept hk _ => exact (hset hk hh).elim
      case abandoned hk => exact (hset hk hh).elim
      all_goals cases hh₀.symm.trans hh
    case founded s ℓ =>
      have hh : (E.holders ++ [Holder.found s ℓ])[h]? = some holder' := hh
      rcases getElem?_concat_cases hh with ⟨-, heq⟩ | hold
      · exact ⟨s, ℓ, heq⟩
      · cases hh₀.symm.trans hold
    case polled hk hp => exact (hset hk hh).elim
    case attended hk _ _ => exact (hset hk hh).elim
    case shuffled hk _ => exact (hset hk hh).elim
    all_goals cases hh₀.symm.trans hh
  · obtain ⟨holder₁, hh₁, ht⟩ := hm.turns hh₀
    obtain rfl := Option.some.inj (hh₁.symm.trans hh)
    exact .inl ⟨holder, rfl, ht⟩

/-- A holder forgets no connection that it has accepted. -/
theorem Turns.came_le (ht : E.Turns h holder e E' holder') (x : LinkId) :
    holder.came x ≤ holder'.came x := by
  cases ht
  case left => exact Nat.le_of_eq (Holder.came_settle { holder with kept := false } _ x).symm
  case polled hp =>
    cases hp
    case stopped => exact Nat.le_of_eq (Holder.came_settle { holder with worker := .gone } _ x).symm
    case turned => exact Nat.le_refl _
    case attached =>
      unfold Holder.came Holder.attach
      rw [total_append]
      exact Nat.le_add_right ..
  case attended hj ha => exact Nat.le_of_eq (ha.came hj x).symm
  all_goals exact Nat.le_refl _

theorem Moves.came_le (hm : E.Moves stored e E') (h : HolderId) (x : LinkId) :
    E.measure (Holder.came x) h ≤ E'.measure (Holder.came x) h := by
  rcases hh : E.holders[h]? with _ | holder
  · unfold measure
    rw [hh]
    exact Nat.zero_le _
  · obtain ⟨holder', hh', ht⟩ := hm.turns hh
    rw [measure_some hh, measure_some hh']
    exact ht.came_le x

/-- An attendant was there before, or has just been given a connection from the listener. -/
theorem Turns.attendant_at (ht : E.Turns h holder e E' holder') {i : Nat} {a' : Attendant}
    (hi : holder'.attendants[i]? = some a') :
    (∃ a, holder.attendants[i]? = some a ∧ a.link = a'.link ∧ a.port = a'.port) ∨
      a'.stage = .preparing ∧ 0 < E.network.waiting a'.link ∧
        a'.port = (E.network.portOf? a'.link).getD 0 := by
  have hmove : ∀ {holder₁ : Holder} {j s}, holder₁.attendants = holder.attendants →
      (holder₁.move j s).attendants[i]? = some a' →
      ∃ a, holder.attendants[i]? = some a ∧ a.link = a'.link ∧ a.port = a'.port := by
    intro holder₁ j s hatt hi
    have hi : (holder₁.attendants.modify j _)[i]? = some a' := hi
    rw [List.getElem?_modify, hatt] at hi
    obtain ⟨a₀, ha₀, rfl⟩ := Option.map_eq_some_iff.mp hi
    exact ⟨a₀, ha₀, by split <;> exact ⟨rfl, rfl⟩⟩
  cases ht
  case left =>
    rw [Holder.settle_attendants] at hi
    exact .inl ⟨a', hi, rfl, rfl⟩
  case polled hp =>
    cases hp
    case stopped =>
      rw [Holder.settle_attendants] at hi
      exact .inl ⟨a', hi, rfl, rfl⟩
    case turned => exact .inl ⟨a', hi, rfl, rfl⟩
    case attached x hw hx =>
      have hi : (holder.attendants ++ [_])[i]? = some a' := hi
      rcases getElem?_concat_cases hi with ⟨-, rfl⟩ | hold
      · right
        have hone := Network.waiting_accept? hx x
        rw [if_pos rfl] at hone
        refine ⟨rfl, ?_, ?_⟩
        · show 0 < E.network.waiting x
          omega
        · unfold Network.portOf?
          rw [← Network.view_accept? hx]
      · exact .inl ⟨a', hold, rfl, rfl⟩
  case attended ha =>
    cases ha
    case parted =>
      rw [Holder.settle_attendants] at hi
      exact .inl (hmove rfl hi)
    all_goals exact .inl (hmove rfl hi)
  all_goals exact .inl ⟨a', hi, rfl, rfl⟩

/-- The attendants of a holder are those it had, or attend to a connection from the listener. -/
theorem Turns.attendant_of (ht : E.Turns h holder e E' holder') {a' : Attendant}
    (ha' : a' ∈ holder'.attendants) :
    (∃ a ∈ holder.attendants, a.link = a'.link ∧ a.port = a'.port) ∨
      0 < E.network.waiting a'.link ∧ a'.port = (E.network.portOf? a'.link).getD 0 := by
  obtain ⟨i, hi⟩ := List.getElem?_of_mem ha'
  rcases ht.attendant_at hi with ⟨a, hi, hsame⟩ | ⟨-, hnew⟩
  · exact .inl ⟨a, List.mem_of_getElem? hi, hsame⟩
  · exact .inr hnew

/-- What an event does to the work of a thread. -/
inductive Works (E : Estate) (stored : HolderId → Prop) (t : ThreadId) (e : Event) (E' : Estate) :
    Option Work → Option Work → Prop
  | same {W : Option Work} : Works E stored t e E' W W
  | began {W : Work} (hstored : stored W.holder)
      (hstage : W.stage = if W.orderly then .draining else .stopping) :
    Works E stored t e E' none (some W)
  | laboured {chance : Chance} {W : Work} {W' : Option Work} {E₁ : Estate}
      (he : e = .step (.thread t) chance) (hl : E.Labour W chance W' E₁)
      (hE : E' = E₁.setWork t W') : Works E stored t e E' (some W) W'

theorem Labour.works_eq {chance : Chance} {W : Work} {W' : Option Work}
    (hl : E.Labour W chance W' E') : E'.works = E.works := by
  cases hl <;> rfl

theorem Labour.getElem?_setWork {chance : Chance} {W : Work} {W' : Option Work}
    (hl : E.Labour W chance W' E') (hW : E.works[t]? = some (some W)) :
    (E'.setWork t W').works[t]? = some W' := by
  show (E'.works.set t W')[t]? = _
  rw [hl.works_eq]
  exact List.getElem?_set_self (List.getElem?_eq_some_iff.mp hW).1

/-- Every work is one that was there, or begins. -/
theorem Moves.works {W' : Work} (hm : E.Moves stored e E') (hW' : E'.works[t]? = some (some W')) :
    ∃ W, E.works[t]? = some W ∧ E.Works stored t e E' W (some W') := by
  cases hm
  case grew =>
    have hW' : (E.works ++ [none])[t]? = some (some W') := hW'
    rcases getElem?_concat_cases hW' with ⟨-, heq⟩ | hsame
    · cases heq
    · exact ⟨_, hsame, .same⟩
  case began hfree hstored hstage =>
    rcases getElem?_set_cases hW' with ⟨rfl, heq⟩ | ⟨-, hsame⟩
    · cases heq
      exact ⟨none, hfree, .began hstored hstage⟩
    · exact ⟨_, hsame, .same⟩
  case laboured t₀ chance W₀ W₁ E₁ hW hl =>
    have hworks := hl.works_eq
    have hW' : (E₁.works.set t₀ W₁)[t]? = some (some W') := hW'
    rw [hworks] at hW'
    rcases getElem?_set_cases hW' with ⟨rfl, rfl⟩ | ⟨-, hsame⟩
    · exact ⟨_, hW, .laboured rfl hl rfl⟩
    · exact ⟨_, hsame, .same⟩
  all_goals exact ⟨_, hW', .same⟩

/-- A work that is there stays, or its thread works on it. -/
theorem Moves.work {W : Work} (hm : E.Moves stored e E') (hW : E.works[t]? = some (some W)) :
    E'.works[t]? = some (some W) ∨ ∃ chance W' E₁, e = .step (.thread t) chance ∧
      E.Labour W chance W' E₁ ∧ E' = E₁.setWork t W' := by
  have hother : ∀ {works : List (Option Work)} {t₀ W₁}, works[t]? = some (some W) → t₀ ≠ t →
      (works.set t₀ W₁)[t]? = some (some W) := by
    intro works t₀ W₁ hW hne
    rw [List.getElem?_set_ne hne]
    exact hW
  cases hm
  case grew =>
    left
    show (E.works ++ [none])[t]? = _
    rw [List.getElem?_append_left (List.getElem?_eq_some_iff.mp hW).1]
    exact hW
  case began hfree _ _ =>
    refine .inl (hother hW ?_)
    rintro rfl
    cases hfree.symm.trans hW
  case laboured t₀ chance W₀ W₁ E₁ hW₀ hl =>
    by_cases heq : t₀ = t
    · subst heq
      obtain rfl := Option.some.inj (Option.some.inj (hW₀.symm.trans hW))
      exact .inr ⟨_, _, _, rfl, hl, rfl⟩
    · refine .inl (hother ?_ heq)
      rw [hl.works_eq]
      exact hW
  all_goals exact .inl hW

theorem Labour.same_holder {W W' : Work} {chance : Chance} (hl : E.Labour W chance (some W') E') :
    W'.holder = W.holder ∧ W'.orderly = W.orderly := by
  generalize hW' : some W' = W₁ at hl
  cases hl <;> cases hW' <;> exact ⟨rfl, rfl⟩

/-- A drop only stops the workers. -/
def Plain (E : Estate) : Prop :=
  ∀ (t : ThreadId) (W : Work), E.works[t]? = some (some W) → W.orderly = false →
    W.stage = .stopping ∨ W.stage = .joining ∨ W.stage = .abandoning

theorem Labour.plain {chance : Chance} {W W' : Work} (hl : E.Labour W chance (some W') E')
    (hs : W.stage = .stopping ∨ W.stage = .joining ∨ W.stage = .abandoning)
    (hord : W.orderly = false) :
    W'.stage = .stopping ∨ W'.stage = .joining ∨ W'.stage = .abandoning := by
  generalize hW' : some W' = W₁ at hl
  cases hl
  case stuck => cases hW'; exact hs
  case stopped => cases hW'; exact .inr (.inl rfl)
  case joined => cases hW'; exact .inr (.inr (by rw [hord]; rfl))
  case abandoned => cases hW'
  case drained hd _ _ | swept hd _ _ | cut hd _ _ => rw [hd] at hs; simp at hs
  case wrote hd _ | announced hd _ | shut hd _ => rw [hd] at hs; simp at hs
  case discarded hd | cleared hd => rw [hd] at hs; simp at hs

theorem Plain.blank (terrain : Terrain) : (World.blank terrain).estate.Plain := by
  intro t W hW
  cases hW

theorem Plain.moves (h : E.Plain) (hm : E.Moves stored e E') : E'.Plain := by
  intro t W' hW' hord
  obtain ⟨W, hW, hworks⟩ := hm.works hW'
  cases hworks
  case same => exact h t W' hW hord
  case began hstage =>
    rw [hord] at hstage
    exact .inl hstage
  case laboured hl _ =>
    have hord' := hl.same_holder.2.symm.trans hord
    exact hl.plain (h t _ hW hord') hord'

end Estate

end LoopbackLock
