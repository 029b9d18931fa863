import LoopbackLock.Holder.Registry
import Mathlib.Data.List.Perm.Basic

/-!
# Registries

What filing a connection leaves in a registry, which looks at its connections may fail: any
(`exists_blinds`), and in which orders it may yield its entries: in any (`arrange_perm`,
`exists_arrange`).
-/

namespace LoopbackLock.Registry

variable {r r' : Registry} {n : Network} {chance : Chance} {p port : UInt16} {x link : LinkId}

/-- An entry stays in a registry if its connection looks open, the look does not fail, and no new
entry displaces it. -/
theorem mem_insert_pruned :
    (p, x) ∈ (r.pruned n chance).insert port link ↔ (p, x) = (port, link) ∨
      (p, x) ∈ r ∧ p ≠ port ∧ n.looksOpen x = true ∧ chance.blinds x = false := by
  have hfinds : n.findsOpen chance x = true ↔ n.looksOpen x = true ∧ chance.blinds x = false := by
    rw [Network.findsOpen, Bool.and_eq_true, Bool.not_eq_true']
  rw [insert, List.mem_append, List.mem_singleton, List.mem_filter, pruned, List.mem_filter,
    decide_eq_true_iff, hfinds, and_assoc, and_comm (a := p ≠ port), or_comm, and_assoc]

/-- Whichever looks fail, chance may have it so. -/
theorem exists_blinds (r : Registry) (fails : LinkId → Bool) :
    ∃ chance : Chance, ∀ x ∈ r.links, chance.blinds x = fails x := by
  refine ⟨.blind (r.links.filter fails), fun x hx => Bool.eq_iff_iff.mpr ?_⟩
  rw [Chance.blinds, List.contains_iff_mem, List.mem_filter]
  exact and_iff_right hx

/-! ## The order of the entries -/

theorem links_perm (hperm : r'.Perm r) : r'.links.Perm r.links :=
  hperm.map _

theorem arrange_perm (turns : List Nat) (r : Registry) : (arrange turns r).Perm r := by
  induction turns generalizing r with
  | nil => exact .refl _
  | cons k turns ih =>
    show ((r[k]?).toList ++ arrange turns (r.eraseIdx k)).Perm r
    rcases Nat.lt_or_ge k r.length with hk | hk
    · rw [List.getElem?_eq_getElem hk]
      exact ((ih _).cons _).trans (List.getElem_cons_eraseIdx_perm hk)
    · rw [List.getElem?_eq_none hk, List.eraseIdx_of_length_le hk]
      exact ih r

/-- Whatever the order, some turns lead to it. -/
theorem exists_arrange (hperm : r'.Perm r) : ∃ turns, arrange turns r = r' := by
  induction r' generalizing r with
  | nil => exact ⟨[], hperm.symm.eq_nil⟩
  | cons e r' ih =>
    obtain ⟨k, hk, rfl⟩ := List.mem_iff_getElem.mp (hperm.mem_iff.mp List.mem_cons_self)
    have hrest := (hperm.trans (List.getElem_cons_eraseIdx_perm hk).symm).cons_inv
    obtain ⟨turns, hturns⟩ := ih hrest
    refine ⟨k :: turns, ?_⟩
    show (r[k]?).toList ++ arrange turns (r.eraseIdx k) = r[k] :: r'
    rw [List.getElem?_eq_getElem hk, hturns]
    rfl

end LoopbackLock.Registry
