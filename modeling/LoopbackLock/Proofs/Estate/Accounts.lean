import LoopbackLock.Proofs.Estate.Handles
import LoopbackLock.Proofs.World.Run

/-!
# The accounts along a run

Connections come, are accepted and are refused; attendants share them, file them and give them up.
Through all of it the accounts of the called ends stand (`Accounted.moves`).
-/

namespace LoopbackLock.Estate

variable {E E' : Estate} {k : HolderId} {x : LinkId} {ℓ : ListenerId} {holder : Holder}
variable {next : Holder × Network} {n : Network} {e : Event}

theorem measure_append {f : Holder → Nat} {new : Holder} (hnew : f new = 0) (h : HolderId) :
    measure f { E with holders := E.holders ++ [new] } h = E.measure f h := by
  unfold measure
  show ((E.holders ++ [new])[h]?.map f).getD 0 = _
  rw [getElem?_concat]
  split
  · next heq =>
    rw [heq, List.getElem?_eq_none (Nat.le_refl _)]
    exact hnew
  · rfl

namespace Accounted

theorem blank (terrain : Terrain) : (World.blank terrain).estate.Accounted where
  handles _ := rfl
  arrival _ := Nat.zero_le _
  absent _ _ := rfl
  pen _ _ := Nat.le_refl _

theorem grew (h : E.Accounted) : Accounted { E with works := E.works ++ [none] } where
  handles x := by
    have := h.handles x
    unfold owners at this ⊢
    rw [total_append]
    exact this
  arrival := h.arrival
  absent := h.absent
  pen j x := by
    have := h.pen j x
    unfold pens at this ⊢
    rw [total_append]
    exact this

theorem began {t : ThreadId} {W : Work} (h : E.Accounted) (hfree : E.works[t]? = some none)
    (hstage : W.stage = if W.orderly then .draining else .stopping) :
    (E.setWork t (some W)).Accounted := by
  have hlinks : W.stage.links = [] := by
    rw [hstage]; split <;> rfl
  refine h.setWork (n := E.network) hfree (fun x => ?_) (fun j x => ?_) rfl rfl
  · show _ = _ + W.stage.links.count x
    rw [hlinks]
    rfl
  · show (if W.holder = j then W.stage.links.count x else 0) ≤ 0
    rw [hlinks]
    split <;> exact Nat.le_refl _

theorem founded (h : E.Accounted) (s : Settings) (ℓ : ListenerId) :
    Accounted { E with holders := E.holders ++ [Holder.found s ℓ] } where
  handles x := by
    have hnew : (Holder.found s ℓ).owns x = 0 := rfl
    have hold := h.handles x
    unfold owners at hold ⊢
    rw [total_append, total_cons, hnew]
    exact hold
  arrival x := by
    have hnew : (Holder.found s ℓ).came x = 0 := rfl
    have hold := h.arrival x
    unfold came at hold ⊢
    rw [total_append, total_cons, hnew]
    exact hold
  absent x hx := by
    have hnew : (Holder.found s ℓ).came x = 0 := rfl
    have hold := h.absent x hx
    unfold came at hold ⊢
    rw [total_append, total_cons, hnew]
    exact hold
  pen j x := by
    have hold := h.pen j x
    unfold pens at hold ⊢
    rw [measure_append rfl, measure_append rfl]
    exact hold

/-- A connection that is refused waited and was nobody's. -/
theorem unbound (h : E.Accounted) (ℓ : ListenerId) :
    Accounted { E with network := E.network.unbind ℓ } := by
  constructor
  · intro x
    have hwaiting := Network.waiting_unbind E.network ℓ x
    have hold := h.handles x
    unfold owners at hold ⊢
    rw [Network.handles_unbind]
    dsimp only
    by_cases hx : x ∈ E.network.backlog ℓ
    · have harrival := h.arrival x
      have hcount := List.count_pos_iff.mpr hx
      have hnone := h.owners_of_not_came (x := x) (by omega)
      unfold owners at hnone
      rw [if_pos hx]
      omega
    · have hcount := List.count_eq_zero.mpr hx
      rw [if_neg hx]
      omega
  · intro x
    have hwaiting := Network.waiting_unbind E.network ℓ x
    have harrival := h.arrival x
    show (E.network.unbind ℓ).waiting x + E.came x ≤ 1
    omega
  · intro x hx
    have hwaiting := Network.waiting_unbind E.network ℓ x
    have habsent := h.absent x (Network.length_unbind E.network ℓ ▸ hx)
    show (E.network.unbind ℓ).waiting x + E.came x = 0
    omega
  · exact h.pen

theorem connected {source target : Endpoint} (h : E.Accounted)
    (hc : E.network.connect source target = .ok (x, n)) : Accounted { E with network := n } := by
  obtain ⟨hx, hlength⟩ := Network.length_connect hc
  have habsent := h.absent x (Nat.le_of_eq hx.symm)
  have hnone := h.owners_of_not_came (x := x) (by omega)
  have hwaiting := Network.waiting_connect hc
  constructor
  · intro y
    have hold := h.handles y
    unfold owners at hold hnone ⊢
    unfold Network.handles
    dsimp only
    rw [Network.view_connect hc, hwaiting]
    by_cases hy : y = x
    · subst hy
      rw [if_pos rfl, if_pos rfl]
      show 1 = _
      omega
    · rw [if_neg hy, if_neg hy]
      exact hold
  · intro y
    have harrival := h.arrival y
    show n.waiting y + E.came y ≤ 1
    rw [hwaiting]
    by_cases hy : y = x
    · subst hy
      rw [if_pos rfl]
      omega
    · rw [if_neg hy]
      exact harrival
  · intro y hy
    have hy : E.network.links.length + 1 ≤ y := hlength ▸ hy
    have hne : y ≠ x := by rw [hx]; exact Nat.ne_of_gt hy
    show n.waiting y + E.came y = 0
    rw [hwaiting, if_neg hne]
    exact h.absent y (Nat.le_of_succ_le hy)
  · exact h.pen

/-- A connection that is accepted passes from the listener to an attendant. -/
theorem attached (h : E.Accounted) (hh : E.holders[k]? = some holder)
    (hx : E.network.accept? ℓ = some (x, n)) :
    (E.setHolder k (holder.attach n x, n)).Accounted := by
  have hwaiting := Network.waiting_accept? hx
  have hlinks := Network.view_accept? hx
  have htotal : ∀ y, (E.setHolder k (holder.attach n x, n)).came y =
      E.came y + if y = x then 1 else 0 := by
    intro y
    have hset := total_set (f := Holder.came y) (b := holder.attach n x) hh
    rw [Holder.came_attach] at hset
    unfold came Estate.setHolder
    dsimp only
    omega
  constructor
  · intro y
    have hset := total_set (f := Holder.owns y) (b := holder.attach n x) hh
    have hold := h.handles y
    have hown := holder.owns_attach n x y
    have hwaiting := hwaiting y
    have hsame : n.handles y = E.network.handles y := by
      unfold Network.handles Network.view
      rw [hlinks]
    show n.handles y = n.waiting y +
      (total (Holder.owns y) (E.holders.set k (holder.attach n x)) + total (Work.owns y) E.works)
    unfold owners at hold
    omega
  · intro y
    have harrival := h.arrival y
    have hwaiting := hwaiting y
    rw [htotal]
    show n.waiting y + _ ≤ 1
    omega
  · intro y hy
    have habsent := h.absent y (by rw [← hlinks]; exact hy)
    have hwaiting := hwaiting y
    rw [htotal]
    show n.waiting y + _ = 0
    omega
  · intro j y
    have hpen := h.pen j y
    unfold pens at hpen ⊢
    rw [measure_setHolder hh, measure_setHolder hh]
    show _ + total (Work.pens j y) E.works ≤ _
    by_cases hj : j = k
    · subst hj
      rw [if_pos rfl, if_pos rfl]
      rw [measure_some hh, measure_some hh] at hpen
      rw [Holder.pens_attach, Holder.came_attach]
      omega
    · rw [if_neg hj, if_neg hj]
      exact hpen

theorem polled (h : E.Accounted) (hh : E.holders[k]? = some holder)
    (hp : holder.Polled E.network next.1 next.2) : (E.setHolder k next).Accounted := by
  obtain ⟨holder', n'⟩ := next
  have hp : holder.Polled E.network holder' n' := hp
  rcases hp with ⟨hw, hs⟩ | ⟨hw, hworker⟩ | ⟨hw, hx⟩
  case stopped =>
    have hunbound := h.unbound holder.listener
    obtain ⟨-, -, hwaiting, hlength⟩ :=
      ({ holder with worker := .gone } : Holder).settle_ends (E.network.unbind holder.listener)
    exact hunbound.setHolder hh
      (fun x => Holder.owns_settle { holder with worker := .gone } _ x (hunbound.owns_le hh x))
      (fun x => Holder.came_settle ..) (fun x => Holder.pens_settle ..) hwaiting hlength
  case turned =>
    exact h.setHolder hh (fun _ => rfl) (fun _ => rfl) (fun _ => Nat.le_refl _) rfl rfl
  case attached => exact h.attached hh hx

theorem attended {j : Nat} {a : Attendant} {chance : Chance} (h : E.Accounted)
    (hh : E.holders[k]? = some holder) (hj : holder.attendants[j]? = some a)
    (ha : holder.Attended E.network j a chance next.1 next.2) :
    (E.setHolder k next).Accounted :=
  h.setHolder hh (ha.owns hj (h.owns_le hh)) (ha.came hj) (ha.pens hj) ha.ends.1 ha.ends.2

/-- In which order a registry yields its entries makes no difference to the accounts. -/
theorem shuffled {registry : Registry} (h : E.Accounted) (hh : E.holders[k]? = some holder)
    (hperm : registry.Perm holder.registry) :
    (E.setHolder k ({ holder with registry }, E.network)).Accounted := by
  have hcount : ∀ x, registry.links.count x = holder.registry.links.count x :=
    fun x => (Registry.links_perm hperm).count_eq x
  refine h.setHolder hh (fun x => ?_) (fun _ => rfl) (fun x => ?_) rfl rfl
  · show E.network.handles x + holder.owns x = E.network.handles x +
      (total (Attendant.owns x) holder.attendants + registry.links.count x)
    rw [hcount]
    rfl
  · show total (Attendant.pens x) holder.attendants + registry.links.count x ≤ holder.pens x
    rw [hcount]
    exact Nat.le_refl _

theorem moves {stored : HolderId → Prop} (h : E.Accounted) (hm : E.Moves stored e E') : E'.Accounted := by
  cases hm
  case quiet hn => exact h.like hn
  case grew => exact h.grew
  case began hfree _ hstage => exact h.began hfree hstage
  case laboured hW hl => exact h.labour hW hl
  case founded => exact h.founded _ _
  case unbound => exact h.unbound _
  case connected hc => exact h.connected hc
  case polled hh hp => exact h.polled hh hp
  case attended hh hk ha => exact h.attended hh hk ha
  case shuffled hh hperm => exact h.shuffled hh hperm

end Accounted

end LoopbackLock.Estate
