import LoopbackLock.Proofs.Estate.Basic
import LoopbackLock.Proofs.Holder.Owning

/-!
# Who owns the called ends

The handles of a called end are counted by its owners: it waits at a listener, an attendant has it,
a registry has it filed, or a work has it in its queue. A connection arrives once, at one attendant,
and one at most of attendant, registry and work may still write to it (`Estate.Accounted`).
-/

namespace LoopbackLock

/-- The connections a work has taken out of the registry and not given up yet. -/
def Dismantling.links : Dismantling → List LinkId
  | notifying x _ queue | shutting x queue | discarding x queue | clearing x queue => x :: queue
  | _ => []

@[simp] theorem Dismantling.links_notify (xs : List LinkId) : (notify xs).links = xs := by
  cases xs <;> rfl

@[simp] theorem Dismantling.links_clear (xs : List LinkId) : (clear xs).links = xs := by
  cases xs <;> rfl

/-- How often a work owns a connection. -/
def Work.owns (x : LinkId) : Option Work → Nat
  | some W => W.stage.links.count x
  | none => 0

/-- How often a work for a holder owns a connection. -/
def Work.pens (h : HolderId) (x : LinkId) : Option Work → Nat
  | some W => if W.holder = h then W.stage.links.count x else 0
  | none => 0

namespace Estate

variable {E E' : Estate} {k : HolderId} {t : ThreadId} {x : LinkId} {holder : Holder}
variable {next : Holder × Network} {W : Work} {W' : Option Work}

/-- A measure of a holder, zero for one that is not there. -/
def measure (f : Holder → Nat) (E : Estate) (h : HolderId) : Nat := ((E.holders[h]?).map f).getD 0

/-- How many owners a called end has. -/
def owners (E : Estate) (x : LinkId) : Nat :=
  E.network.waiting x + (total (Holder.owns x) E.holders + total (Work.owns x) E.works)

/-- How often a connection has been accepted. -/
def came (E : Estate) (x : LinkId) : Nat := total (Holder.came x) E.holders

/-- How many attendants, entries and works of a holder may still write to a connection. -/
def pens (E : Estate) (h : HolderId) (x : LinkId) : Nat :=
  E.measure (Holder.pens x) h + total (Work.pens h x) E.works

/-- The handles of called ends are accounted for. -/
structure Accounted (E : Estate) : Prop where
  handles : ∀ x, E.network.handles x = E.owners x
  /-- A connection arrives once. -/
  arrival : ∀ x, E.network.waiting x + E.came x ≤ 1
  absent : ∀ x, E.network.links.length ≤ x → E.network.waiting x + E.came x = 0
  /-- Who has accepted a connection has one pen for it at most. -/
  pen : ∀ h x, E.pens h x ≤ E.measure (Holder.came x) h

theorem measure_some {f : Holder → Nat} (hh : E.holders[k]? = some holder) :
    E.measure f k = f holder := by
  unfold measure; rw [hh]; rfl

theorem measure_setHolder {f : Holder → Nat} (hh : E.holders[k]? = some holder) (h : HolderId) :
    (E.setHolder k next).measure f h = if h = k then f next.1 else E.measure f h := by
  unfold measure setHolder
  dsimp only
  rw [getElem?_set_some hh]
  split <;> rfl

theorem measure_le_total (f : Holder → Nat) (E : Estate) (h : HolderId) :
    E.measure f h ≤ total f E.holders := by
  unfold measure
  rcases hh : E.holders[h]? with _ | holder
  · exact Nat.zero_le _
  · exact le_total hh

/-- What a work owns is in a pen of its holder. -/
theorem owns_le_pens (hW : E.works[t]? = some (some W)) (x : LinkId) :
    Work.owns x (some W) ≤ E.pens W.holder x := by
  have hle := le_total (f := Work.pens W.holder x) hW
  have hsame : Work.pens W.holder x (some W) = Work.owns x (some W) := if_pos rfl
  unfold pens
  omega

namespace Accounted

theorem owns_le (h : E.Accounted) (hh : E.holders[k]? = some holder) (x : LinkId) :
    holder.owns x ≤ E.network.handles x := by
  have hle := le_total (f := Holder.owns x) hh
  rw [h.handles]
  unfold owners
  omega

/-- Who has not accepted a connection does not own it. -/
theorem owners_of_not_came (h : E.Accounted) (hx : E.came x = 0) :
    E.owners x = E.network.waiting x := by
  have hholders : total (Holder.owns x) E.holders = 0 := by
    refine total_eq_zero fun holder hmem => ?_
    obtain ⟨k, hk⟩ := List.getElem?_of_mem hmem
    have hcame : holder.came x = 0 := by
      have := le_total (f := Holder.came x) hk
      unfold came at hx
      omega
    have hpen := h.pen k x
    rw [measure_some hk, hcame] at hpen
    have hregistry : holder.pens x = 0 := by
      have : E.measure (Holder.pens x) k = holder.pens x := measure_some hk
      unfold pens at hpen
      omega
    have hattendants : total (Attendant.owns x) holder.attendants = 0 := by
      refine total_eq_zero fun a ha => ?_
      obtain ⟨j, hj⟩ := List.getElem?_of_mem ha
      have hle := le_total (f := Attendant.came x) hj
      unfold Holder.came at hcame
      refine Attendant.owns_of_ne fun hax => ?_
      subst hax
      rw [Attendant.came_self] at hle
      omega
    unfold Holder.pens at hregistry
    unfold Holder.owns
    omega
  have hworks : total (Work.owns x) E.works = 0 := by
    refine total_eq_zero fun work hmem => ?_
    rcases work with _ | W
    · rfl
    · obtain ⟨t, ht⟩ := List.getElem?_of_mem hmem
      have hle := owns_le_pens ht x
      have hpen := h.pen W.holder x
      have hcame := measure_le_total (Holder.came x) E W.holder
      unfold came at hx
      omega
  unfold owners
  omega

/-! ## What keeps the accounts -/

/-- Nothing changes at the called ends. -/
theorem like {n : Network} (h : E.Accounted) (hn : E.network.Like n) :
    Accounted { E with network := n } where
  handles x := by
    have := h.handles x
    unfold owners at this ⊢
    rw [hn.handles, hn.waiting]
    exact this
  arrival x := by rw [hn.waiting]; exact h.arrival x
  absent x hx := by rw [hn.waiting]; exact h.absent x (hn.length ▸ hx)
  pen := h.pen

/-- A holder and the handles change alike. -/
theorem setHolder (h : E.Accounted) (hh : E.holders[k]? = some holder)
    (howns : ∀ x, next.2.handles x + holder.owns x = E.network.handles x + next.1.owns x)
    (hcame : ∀ x, next.1.came x = holder.came x) (hpens : ∀ x, next.1.pens x ≤ holder.pens x)
    (hwaiting : next.2.waiting = E.network.waiting)
    (hlength : next.2.links.length = E.network.links.length) :
    (E.setHolder k next).Accounted := by
  have hcame' : ∀ x, (E.setHolder k next).came x = E.came x := by
    intro x
    have hset := total_set (f := Holder.came x) (b := next.1) hh
    rw [hcame] at hset
    unfold came Estate.setHolder
    simp only
    omega
  constructor
  · intro x
    have hset := total_set (f := Holder.owns x) (b := next.1) hh
    have hold := h.handles x
    have hown := howns x
    show next.2.handles x = next.2.waiting x +
      (total (Holder.owns x) (E.holders.set k next.1) + total (Work.owns x) E.works)
    rw [hwaiting]
    unfold owners at hold
    omega
  · intro x
    rw [hcame']
    show next.2.waiting x + _ ≤ 1
    rw [hwaiting]
    exact h.arrival x
  · intro x hx
    rw [hcame']
    show next.2.waiting x + _ = 0
    rw [hwaiting]
    exact h.absent x (hlength ▸ hx)
  · intro j x
    have hpen := h.pen j x
    unfold pens at hpen ⊢
    rw [measure_setHolder hh, measure_setHolder hh]
    show _ + total (Work.pens j x) E.works ≤ _
    by_cases hjk : j = k
    · subst hjk
      rw [if_pos rfl, if_pos rfl, hcame]
      rw [measure_some hh, measure_some hh] at hpen
      have := hpens x
      omega
    · rw [if_neg hjk, if_neg hjk]
      exact hpen

/-- A work and the handles change alike. -/
theorem setWork {W₀ : Option Work} {n : Network} (h : E.Accounted) (hW : E.works[t]? = some W₀)
    (howns : ∀ x, n.handles x + Work.owns x W₀ = E.network.handles x + Work.owns x W')
    (hpens : ∀ j x, Work.pens j x W' ≤ Work.pens j x W₀)
    (hwaiting : n.waiting = E.network.waiting)
    (hlength : n.links.length = E.network.links.length) :
    (({ E with network := n } : Estate).setWork t W').Accounted := by
  constructor
  · intro x
    have hset := total_set (f := Work.owns x) (b := W') hW
    have hold := h.handles x
    have hown := howns x
    show n.handles x = n.waiting x +
      (total (Holder.owns x) E.holders + total (Work.owns x) (E.works.set t W'))
    rw [hwaiting]
    unfold owners at hold
    omega
  · intro x
    show n.waiting x + E.came x ≤ 1
    rw [hwaiting]
    exact h.arrival x
  · intro x hx
    show n.waiting x + E.came x = 0
    rw [hwaiting]
    exact h.absent x (hlength ▸ hx)
  · intro j x
    have hset := total_set (f := Work.pens j x) (b := W') hW
    have hpen := h.pen j x
    have hle := hpens j x
    unfold pens at hpen ⊢
    show E.measure _ j + total (Work.pens j x) (E.works.set t W') ≤ E.measure _ j
    omega

/-- A registry is taken over by a work for its holder. -/
theorem drain (h : E.Accounted) (hW : E.works[t]? = some (some W))
    (hh : E.holders[W.holder]? = some holder) (hnone : W.stage.links = []) {d : Dismantling}
    (hlinks : d.links = holder.registry.links) :
    ((E.setHolder W.holder ({ holder with registry := [] }, E.network)).setWork t
      (some { W with stage := d })).Accounted := by
  have hcame : ∀ x, total (Holder.came x) (E.holders.set W.holder { holder with registry := [] }) =
      E.came x := by
    intro x
    have hset := total_set (f := Holder.came x) (b := { holder with registry := [] }) hh
    have hsame : Holder.came x { holder with registry := [] } = holder.came x := rfl
    unfold came
    omega
  constructor
  · intro x
    have hset := total_set (f := Holder.owns x) (b := { holder with registry := [] }) hh
    have hwork := total_set (f := Work.owns x) (b := some { W with stage := d }) hW
    have hold := h.handles x
    have hnew : Work.owns x (some { W with stage := d }) = holder.registry.links.count x := by
      show d.links.count x = _
      rw [hlinks]
    have hbefore : Work.owns x (some W) = 0 := by
      show W.stage.links.count x = 0
      rw [hnone]; rfl
    have hempty : holder.owns x = Holder.owns x { holder with registry := [] } +
        holder.registry.links.count x := by
      simp [Holder.owns, Registry.links]
    show E.network.handles x = E.network.waiting x +
      (total (Holder.owns x) (E.holders.set W.holder { holder with registry := [] }) +
        total (Work.owns x) (E.works.set t (some { W with stage := d })))
    unfold owners at hold
    omega
  · intro x
    show E.network.waiting x + total (Holder.came x) (E.holders.set _ _) ≤ 1
    rw [hcame]
    exact h.arrival x
  · intro x hx
    show E.network.waiting x + total (Holder.came x) (E.holders.set _ _) = 0
    rw [hcame]
    exact h.absent x hx
  · intro j x
    have hpen := h.pen j x
    have hwork := total_set (f := Work.pens j x) (b := some { W with stage := d }) hW
    have hmeasure : ∀ f : Holder → Nat,
        (E.setHolder W.holder ({ holder with registry := [] }, E.network)).measure f j =
          if j = W.holder then f { holder with registry := [] } else E.measure f j :=
      fun f => measure_setHolder hh j
    have hnew : Work.pens j x (some { W with stage := d }) =
        if W.holder = j then holder.registry.links.count x else 0 := by
      show (if W.holder = j then d.links.count x else 0) = _
      rw [hlinks]
    have hbefore : Work.pens j x (some W) = 0 := by
      show (if W.holder = j then W.stage.links.count x else 0) = 0
      rw [hnone]; split <;> rfl
    unfold pens at hpen ⊢
    show (E.setHolder _ _).measure _ j + total (Work.pens j x) (E.works.set t _) ≤
      (E.setHolder _ _).measure _ j
    rw [hmeasure, hmeasure]
    by_cases hj : j = W.holder
    · subst hj
      rw [if_pos rfl, if_pos rfl]
      rw [if_pos rfl] at hnew
      rw [measure_some hh, measure_some hh] at hpen
      have hempty : holder.pens x = Holder.pens x { holder with registry := [] } +
          holder.registry.links.count x := by
        simp [Holder.pens, Registry.links]
      have hsame : Holder.came x { holder with registry := [] } = holder.came x := rfl
      omega
    · rw [if_neg hj, if_neg hj]
      rw [if_neg (Ne.symm hj)] at hnew
      omega

/-- A connection that is given up loses one handle and one owner. -/
theorem give_up (h : E.Accounted) (hW : E.works[t]? = some (some W)) {queue : List LinkId}
    (hold : W.stage.links = x :: queue) {d : Dismantling} (hnew : d.links = queue) :
    (({ E with network := E.network.release x .callee } : Estate).setWork t
      (some { W with stage := d })).Accounted := by
  have hcount : ∀ y, W.stage.links.count y = d.links.count y + if y = x then 1 else 0 := by
    intro y
    rw [hold, hnew, List.count_cons]
    by_cases hyx : y = x
    · simp [hyx]
    · simp [hyx, Ne.symm hyx]
  refine h.setWork hW (fun y => ?_) (fun j y => ?_) rfl (Network.length_release ..)
  · have hhandles := Network.handles_release E.network x y
    have hle := owns_le_pens hW y
    have hpen := h.pen W.holder y
    have hmine : Work.owns y (some W) ≤ E.network.handles y := by
      have := le_total (f := Work.owns y) hW
      rw [h.handles]
      unfold owners
      omega
    have h₁ : Work.owns y (some W) = W.stage.links.count y := rfl
    have h₂ : Work.owns y (some { W with stage := d }) = d.links.count y := rfl
    have := hcount y
    rw [hhandles]
    split at this
    · simp_all
      omega
    · simp_all
  · show (if W.holder = j then d.links.count y else 0) ≤
      if W.holder = j then W.stage.links.count y else 0
    rw [hcount y]
    split <;> omega

theorem labour {chance : Chance} (h : E.Accounted) (hW : E.works[t]? = some (some W))
    (hl : E.Labour W chance W' E') : (E'.setWork t W').Accounted := by
  have hsame : ∀ {n : Network} {d : Dismantling}, n.handles = E.network.handles →
      n.waiting = E.network.waiting → n.links.length = E.network.links.length →
      d.links = W.stage.links →
      (({ E with network := n } : Estate).setWork t (some { W with stage := d })).Accounted := by
    intro n d hhandles hwaiting hlength hd
    refine h.setWork hW (fun x => ?_) (fun j x => ?_) hwaiting hlength
    · rw [hhandles]
      show _ + W.stage.links.count x = _ + d.links.count x
      rw [hd]
    · show (if W.holder = j then d.links.count x else 0) ≤
        if W.holder = j then W.stage.links.count x else 0
      exact Nat.le_of_eq (by rw [hd])
  cases hl
  case stuck => exact hsame rfl rfl rfl rfl
  case drained hs hh hr => exact h.drain hW hh (by rw [hs]; rfl) (Dismantling.links_notify _)
  case wrote hs hw =>
    obtain ⟨h₁, -, h₂, h₃⟩ := Network.write_callee hw
    exact hsame h₁ h₂ h₃ (by rw [hs]; rfl)
  case announced hs hw =>
    obtain ⟨h₁, -, h₂, h₃⟩ := Network.write_callee hw
    exact hsame h₁ h₂ h₃ (by rw [hs]; rfl)
  case cut hs _ hn =>
    rcases hn with rfl | hw
    · exact hsame rfl rfl rfl (by rw [hs]; rfl)
    · obtain ⟨h₁, -, h₂, h₃⟩ := Network.write_callee hw
      exact hsame h₁ h₂ h₃ (by rw [hs]; rfl)
  case shut hs hn =>
    rcases hn with rfl | hf
    · exact hsame rfl rfl rfl (by rw [hs]; rfl)
    · obtain ⟨h₁, -, h₂, h₃⟩ := Network.finish_callee hf
      exact hsame h₁ h₂ h₃ (by rw [hs]; rfl)
  case discarded hs => exact h.give_up hW (by rw [hs]; rfl) (Dismantling.links_notify _)
  case stopped holder hs hh =>
    have hstop : (E.setHolder W.holder ({ holder with stopping := true }, E.network)).Accounted :=
      h.setHolder hh (fun _ => rfl) (fun _ => rfl) (fun _ => Nat.le_refl _) rfl rfl
    refine hstop.setWork (n := E.network) hW (fun x => ?_) (fun j x => ?_) rfl rfl
    · show _ + W.stage.links.count x = _
      rw [hs]; rfl
    · show (if W.holder = j then 0 else 0) ≤ _
      split <;> exact Nat.zero_le _
  case joined hs hh _ => exact hsame rfl rfl rfl (by rw [hs]; split <;> rfl)
  case swept hs hh hr => exact h.drain hW hh (by rw [hs]; rfl) (Dismantling.links_clear _)
  case cleared hs => exact h.give_up hW (by rw [hs]; rfl) (Dismantling.links_clear _)
  case abandoned holder hs hh =>
    obtain ⟨-, -, hwaiting, hlength⟩ :=
      ({ holder with kept := false } : Holder).settle_ends E.network
    have hleft : (E.setHolder W.holder
        (({ holder with kept := false } : Holder).settle E.network)).Accounted :=
      h.setHolder hh (fun x => Holder.owns_settle { holder with kept := false } _ x (h.owns_le hh x))
        (fun x => Holder.came_settle ..) (fun x => Holder.pens_settle ..) hwaiting hlength
    refine hleft.setWork (n := (({ holder with kept := false } : Holder).settle E.network).2) hW
      (fun x => ?_) (fun j x => Nat.zero_le _) rfl rfl
    show _ + W.stage.links.count x = _
    rw [hs]; rfl

end Accounted

end Estate

end LoopbackLock
