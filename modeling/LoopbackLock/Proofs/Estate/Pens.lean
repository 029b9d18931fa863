import LoopbackLock.Proofs.Estate.Turns

/-!
# Who may write to a connection

Whoever has to do with the called end of a connection has a pen for it: the listener while the
connection waits, then an attendant, then the registry, then a work. A pen tells what has been said
on the connection and what is still to be said (`Pen.Fits`). There is one pen for a connection at
most (`Accounted.place_unique`), so nobody else writes in between.
-/

namespace LoopbackLock

/-- How far the holder's side of a connection is. -/
inductive Pen
  | fresh
  /-- `rest` of the answer is to be written. -/
  | answering (rest : Bytes)
  | answered
  /-- `rest` of the announcement is to be written. -/
  | announcing (rest : Bytes)
  | told
  | shut
  deriving DecidableEq, Repr

/-- All that a holder ever says on a connection. -/
def script : Bytes := Attendance.answer ++ Dismantling.announcement

namespace Pen

/-- What has been said, and whether the end was shut, fit the pen. -/
def Fits : Pen → Bytes → Bool → Prop
  | fresh, s, b => s = [] ∧ b = false
  | answering rest, s, b => s ++ rest = Attendance.answer ∧ b = false
  | answered, s, b => s = Attendance.answer ∧ b = false
  | announcing rest, s, b => (Attendance.answer <+: s ∧ s ++ rest = script) ∧ b = false
  | told, _, b => b = false
  | shut, _, _ => True

/-- One pen says no more than another. -/
def Implies (p p' : Pen) : Prop := ∀ s b, p.Fits s b → p'.Fits s b

theorem Implies.refl (p : Pen) : p.Implies p := fun _ _ h => h

theorem fresh_implies_answering : fresh.Implies (answering Attendance.answer) := by
  rintro s b ⟨rfl, hb⟩
  exact ⟨rfl, hb⟩

theorem answered_implies_announcing :
    answered.Implies (announcing Dismantling.announcement) := by
  rintro s b ⟨rfl, hb⟩
  exact ⟨⟨List.prefix_refl _, rfl⟩, hb⟩

/-- What a pen writes, whether it shuts the end, and the pen that is left. -/
inductive Utters : Pen → Bytes → Bool → Option Pen → Prop
  | answering {part rest : Bytes} :
    Utters (answering (part ++ rest)) part false (some (answering rest))
  | answered {rest : Bytes} : Utters (answering rest) rest false (some answered)
  | muted {rest : Bytes} : Utters (answering rest) [] false none
  | announcing {part rest : Bytes} :
    Utters (announcing (part ++ rest)) part false (some (announcing rest))
  | announced {rest : Bytes} : Utters (announcing rest) rest false (some told)
  | cut {rest : Bytes} : Utters (announcing rest) [] false (some told)
  | shut : Utters told [] true (some shut)

theorem Utters.fits {p p' : Pen} {part s : Bytes} {shuts b : Bool}
    (hu : p.Utters part shuts (some p')) (hp : p.Fits s b) : p'.Fits (s ++ part) (b || shuts) := by
  cases hu
  case answering rest => exact ⟨by rw [List.append_assoc]; exact hp.1, by rw [hp.2]; rfl⟩
  case answered => exact ⟨hp.1, by rw [hp.2]; rfl⟩
  case announcing rest =>
    refine ⟨⟨hp.1.1.trans (List.prefix_append s part), ?_⟩, by rw [hp.2]; rfl⟩
    rw [List.append_assoc]
    exact hp.1.2
  case announced => exact (by rw [hp.2]; rfl : (b || false) = false)
  case cut => exact (by rw [hp.2]; rfl : (b || false) = false)
  case shut => trivial

end Pen

/-- The pen of an attendant. -/
def Attendance.pen? : Attendance → Option Pen
  | preparing | reading .. => some .fresh
  | answering rest => some (.answering rest)
  | queuing | deciding | admitting => some .answered
  | parting _ | gone => none

theorem Attendance.isActive_of_pen? {s : Attendance} {p : Pen} (h : s.pen? = some p) :
    s.isActive = true := by
  cases s <;> first | rfl | cases h

/-- The pens for connections that wait in a work. -/
def Pen.ofQueue (queue : List LinkId) : List (LinkId × Pen) := queue.map fun x => (x, answered)

theorem Pen.mem_ofQueue {queue : List LinkId} {x : LinkId} {p : Pen} :
    (x, p) ∈ ofQueue queue ↔ x ∈ queue ∧ p = answered := by
  unfold ofQueue
  rw [List.mem_map]
  constructor
  · rintro ⟨y, hy, heq⟩
    cases heq
    exact ⟨hy, rfl⟩
  · rintro ⟨hx, rfl⟩
    exact ⟨x, hx, rfl⟩

/-- The pens of a work. -/
def Dismantling.pens : Dismantling → List (LinkId × Pen)
  | notifying x rest queue => (x, .announcing rest) :: Pen.ofQueue queue
  | shutting x queue => (x, .told) :: Pen.ofQueue queue
  | discarding x queue => (x, .shut) :: Pen.ofQueue queue
  | clearing x queue => Pen.ofQueue (x :: queue)
  | _ => []

theorem Dismantling.mem_links_of_pens {d : Dismantling} {x : LinkId} {p : Pen}
    (h : (x, p) ∈ d.pens) : x ∈ d.links := by
  have hcons : ∀ {y : LinkId} {q : Pen} {queue : List LinkId},
      (x, p) ∈ (y, q) :: Pen.ofQueue queue → x ∈ y :: queue := by
    intro y q queue hmem
    rcases List.mem_cons.mp hmem with heq | hmem
    · cases heq
      exact List.mem_cons_self
    · exact List.mem_cons_of_mem _ (Pen.mem_ofQueue.mp hmem).1
  cases d
  case notifying => exact hcons h
  case shutting => exact hcons h
  case discarding => exact hcons h
  case clearing => exact (Pen.mem_ofQueue.mp h).1
  all_goals cases h

/-- A work announces at one connection only; its other pens have nothing left to announce. -/
theorem Dismantling.pen_cases {d : Dismantling} {x : LinkId} {p : Pen} (h : (x, p) ∈ d.pens) :
    (∃ rest queue, d = notifying x rest queue ∧ p = .announcing rest) ∨ p = .told ∨ p = .shut ∨
      p = .answered := by
  have hqueue : ∀ {queue : List LinkId}, (x, p) ∈ Pen.ofQueue queue → p = .answered :=
    fun hmem => (Pen.mem_ofQueue.mp hmem).2
  cases d
  case notifying y rest queue =>
    rcases List.mem_cons.mp h with heq | htail
    · cases heq
      exact .inl ⟨rest, queue, rfl, rfl⟩
    · exact .inr (.inr (.inr (hqueue htail)))
  case shutting =>
    rcases List.mem_cons.mp h with heq | htail
    · exact .inr (.inl (congrArg Prod.snd heq))
    · exact .inr (.inr (.inr (hqueue htail)))
  case discarding =>
    rcases List.mem_cons.mp h with heq | htail
    · exact .inr (.inr (.inl (congrArg Prod.snd heq)))
    · exact .inr (.inr (.inr (hqueue htail)))
  case clearing => exact .inr (.inr (.inr (hqueue h)))
  all_goals cases h

/-- The pens of a work that goes on with what was registered. -/
theorem Dismantling.pens_notify {xs : List LinkId} {x : LinkId} {p : Pen}
    (h : (x, p) ∈ (notify xs).pens) : x ∈ xs ∧ Pen.answered.Implies p := by
  rcases xs with _ | ⟨y, ys⟩
  · cases h
  rcases List.mem_cons.mp h with heq | hmem
  · cases heq
    exact ⟨List.mem_cons_self, Pen.answered_implies_announcing⟩
  · obtain ⟨hx, rfl⟩ := Pen.mem_ofQueue.mp hmem
    exact ⟨List.mem_cons_of_mem _ hx, .refl _⟩

theorem Dismantling.pens_clear {xs : List LinkId} {x : LinkId} {p : Pen}
    (h : (x, p) ∈ (clear xs).pens) : x ∈ xs ∧ p = .answered := by
  rcases xs with _ | ⟨y, ys⟩
  · cases h
  · exact Pen.mem_ofQueue.mp h

/-- A pen of a holder: with an attendant, or with the registry. -/
inductive Holder.Has (holder : Holder) : Option Nat → LinkId → Pen → Prop
  | attendant {j : Nat} {a : Attendant} {p : Pen} (hj : holder.attendants[j]? = some a)
      (hp : a.stage.pen? = some p) : Has holder (some j) a.link p
  | filed {x : LinkId} (hx : x ∈ holder.registry.links) : Has holder none x .answered

/-- Who can have a pen. -/
inductive Place
  | queue
  | holder (h : HolderId) (j : Option Nat)
  | work (t : ThreadId)
  deriving DecidableEq

namespace Estate

variable {E E' : Estate} {x : LinkId} {P P' : Place} {p p' : Pen}

/-- A pen for a connection. -/
inductive Has (E : Estate) : Place → LinkId → Pen → Prop
  | waiting {x : LinkId} (hx : 0 < E.network.waiting x) : Has E .queue x .fresh
  | holder {h : HolderId} {holder : Holder} {j : Option Nat} {x : LinkId} {p : Pen}
      (hh : E.holders[h]? = some holder) (hp : holder.Has j x p) : Has E (.holder h j) x p
  | work {t : ThreadId} {W : Work} {x : LinkId} {p : Pen} (hW : E.works[t]? = some (some W))
      (hp : (x, p) ∈ W.stage.pens) : Has E (.work t) x p

namespace Accounted

/-- A connection has come to one holder at most. -/
theorem home_unique (h : E.Accounted) {k k' : HolderId} (hk : 0 < E.measure (Holder.came x) k)
    (hk' : 0 < E.measure (Holder.came x) k') : k = k' := by
  refine Decidable.byContradiction fun hne => ?_
  have harrival := h.arrival x
  unfold came at harrival
  rcases hh : E.holders[k]? with _ | holder
  · unfold measure at hk
    rw [hh] at hk
    cases hk
  rcases hh' : E.holders[k']? with _ | holder'
  · unfold measure at hk'
    rw [hh'] at hk'
    cases hk'
  rw [measure_some hh] at hk
  rw [measure_some hh'] at hk'
  have := pair_le_total (f := Holder.came x) hh hh' hne
  omega

/-- A connection with a pen has come to the holder whose pen it is. -/
theorem came_of_pens (h : E.Accounted) {k : HolderId} (hp : 0 < E.pens k x) :
    0 < E.measure (Holder.came x) k := Nat.lt_of_lt_of_le hp (h.pen k x)

theorem pens_le_one (h : E.Accounted) (k : HolderId) (x : LinkId) : E.pens k x ≤ 1 := by
  have hpen := h.pen k x
  have harrival := h.arrival x
  have hcame := measure_le_total (Holder.came x) E k
  unfold came at harrival
  omega

end Accounted

theorem pens_of_holder {k : HolderId} {holder : Holder} (hh : E.holders[k]? = some holder)
    (x : LinkId) : E.pens k x = holder.pens x + total (Work.pens k x) E.works := by
  unfold pens
  rw [measure_some hh]

end Estate

theorem Holder.Has.pos {holder : Holder} {j : Option Nat} {x : LinkId} {p : Pen}
    (hp : holder.Has j x p) : 0 < holder.pens x := by
  unfold Holder.pens
  cases hp
  case attendant a hj hp =>
    have hle := le_total (f := Attendant.pens a.link) hj
    rw [Attendant.pens_of_active (Attendance.isActive_of_pen? hp)] at hle
    omega
  case filed hx =>
    have := List.count_pos_iff.mpr hx
    omega

/-- A holder has one pen for a connection. -/
theorem Holder.has_unique {holder : Holder} {j j' : Option Nat} {x : LinkId} {p p' : Pen}
    (hle : holder.pens x ≤ 1) (hp : holder.Has j x p) (hp' : holder.Has j' x p') : j = j' := by
  have hactive : ∀ {i : Nat} {a : Attendant} {q : Pen}, holder.attendants[i]? = some a →
      a.stage.pen? = some q → a.link = x → a.pens x = 1 := by
    intro i a q _ hq hax
    subst hax
    exact Attendant.pens_of_active (Attendance.isActive_of_pen? hq)
  unfold Holder.pens at hle
  rcases hp with @⟨i, a, q, hi, hq⟩ | ⟨hx⟩
  · have hone := hactive hi hq rfl
    generalize hax : a.link = y at *
    rcases hp' with @⟨i', a', q', hi', hq'⟩ | ⟨hx⟩
    · refine Decidable.byContradiction fun hne => ?_
      have hone' := hactive hi' hq' rfl
      have := pair_le_total (f := Attendant.pens a'.link) hi hi' fun heq => hne (by rw [heq])
      omega
    · have hle' := le_total (f := Attendant.pens y) hi
      have := List.count_pos_iff.mpr hx
      omega
  · rcases hp' with @⟨i', a', q', hi', hq'⟩ | ⟨hx'⟩
    · have hone' := hactive hi' hq' rfl
      have hle' := le_total (f := Attendant.pens a'.link) hi'
      have := List.count_pos_iff.mpr hx
      omega
    · rfl

theorem Work.pens_pos {W : Work} {x : LinkId} {p : Pen} (hp : (x, p) ∈ W.stage.pens) :
    0 < Work.pens W.holder x (some W) := by
  show 0 < if W.holder = W.holder then W.stage.links.count x else 0
  rw [if_pos rfl]
  exact List.count_pos_iff.mpr (Dismantling.mem_links_of_pens hp)

namespace Estate

variable {E E' : Estate} {x : LinkId} {P P' : Place} {p p' : Pen}

theorem pens_pos_of_work {t : ThreadId} {W : Work} (hW : E.works[t]? = some (some W))
    (hp : (x, p) ∈ W.stage.pens) : 0 < E.pens W.holder x := by
  have hle := le_total (f := Work.pens W.holder x) hW
  have hpos := Work.pens_pos hp
  unfold pens
  omega

/-- There is one pen for a connection. -/
theorem Accounted.place_unique (h : E.Accounted) (hp : E.Has P x p) (hp' : E.Has P' x p') :
    P = P' := by
  have hqueue : ∀ {k}, 0 < E.network.waiting x → 0 < E.pens k x → False := by
    intro k hwaiting hpens
    have harrival := h.arrival x
    have hcame := h.came_of_pens hpens
    have hle := measure_le_total (Holder.came x) E k
    unfold came at harrival
    omega
  have hmixed : ∀ {k : HolderId} {holder : Holder} {j : Option Nat} {q : Pen} {t : ThreadId}
      {W : Work} {q' : Pen}, E.holders[k]? = some holder → holder.Has j x q →
      E.works[t]? = some (some W) → (x, q') ∈ W.stage.pens → False := by
    intro k holder j q t W q' hh hq hW hq'
    have hpos := hq.pos
    have hpens := pens_of_holder hh x
    have hhome := h.home_unique (h.came_of_pens (k := k) (by omega))
      (h.came_of_pens (pens_pos_of_work hW hq'))
    have hone := h.pens_le_one k x
    have hle := le_total (f := Work.pens k x) hW
    have hpos' := Work.pens_pos hq'
    rw [← hhome] at hpos'
    omega
  cases hp
  case waiting hx =>
    cases hp'
    case waiting => rfl
    case holder hh hq =>
      have hpos := hq.pos
      have hpens := pens_of_holder hh x
      exact (hqueue (k := _) hx (by rw [hpens]; omega)).elim
    case work hW hq => exact (hqueue hx (pens_pos_of_work hW hq)).elim
  case holder k holder j hh hq =>
    have hpos := hq.pos
    have hpens := pens_of_holder hh x
    cases hp'
    case waiting hx => exact (hqueue (k := k) hx (by omega)).elim
    case holder k' holder' j' hh' hq' =>
      have hpos' := hq'.pos
      have hpens' := pens_of_holder hh' x
      have hhome := h.home_unique (h.came_of_pens (k := k) (x := x) (by omega))
        (h.came_of_pens (k := k') (by omega))
      subst hhome
      obtain rfl := Option.some.inj (hh.symm.trans hh')
      have hone := h.pens_le_one k x
      rw [Holder.has_unique (by omega) hq hq']
    case work hW hq' => exact (hmixed hh hq hW hq').elim
  case work t W hW hq =>
    cases hp'
    case waiting hx => exact (hqueue hx (pens_pos_of_work hW hq)).elim
    case holder k' holder' j' hh' hq' => exact (hmixed hh' hq' hW hq).elim
    case work t' W' hW' hq' =>
      refine Decidable.byContradiction fun hne => ?_
      have hhome := h.home_unique (h.came_of_pens (pens_pos_of_work hW hq))
        (h.came_of_pens (pens_pos_of_work hW' hq'))
      have hone := h.pens_le_one W.holder x
      have hpair := pair_le_total (f := Work.pens W.holder x) hW hW' fun heq => hne (by rw [heq])
      have hpos := Work.pens_pos hq
      have hpos' := Work.pens_pos hq'
      rw [← hhome] at hpos'
      unfold pens at hone
      omega

/-- A work has a connection once. -/
theorem Accounted.head_once (h : E.Accounted) {t : ThreadId} {W : Work} {queue : List LinkId}
    (hW : E.works[t]? = some (some W)) (hs : W.stage.links = x :: queue) : x ∉ queue := by
  intro hmem
  have hle := owns_le_pens hW x
  have hone := h.pens_le_one W.holder x
  have hcount := List.count_pos_iff.mpr hmem
  have howns : Work.owns x (some W) = (x :: queue).count x := by
    show W.stage.links.count x = _
    rw [hs]
  rw [howns, List.count_cons_self] at hle
  omega

end Estate

end LoopbackLock
