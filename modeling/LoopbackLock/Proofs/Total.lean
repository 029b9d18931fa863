import LoopbackLock.Proofs.Table

/-!
# Totals over a table

How often something is held by the entries of a table. A step changes one entry or adds one, and
the total changes by what that entry holds.
-/

namespace LoopbackLock

variable {α : Type} {f : α → Nat} {l : List α} {a b : α} {i j : Nat}

/-- What the entries of a table hold together. -/
def total (f : α → Nat) : List α → Nat
  | [] => 0
  | a :: l => f a + total f l

@[simp] theorem total_nil : total f [] = 0 := rfl

@[simp] theorem total_cons : total f (a :: l) = f a + total f l := rfl

@[simp] theorem total_append {l' : List α} : total f (l ++ l') = total f l + total f l' := by
  induction l with
  | nil => simp
  | cons a l ih =>
    rw [List.cons_append, total_cons, total_cons, ih]
    omega

theorem total_set (h : l[i]? = some a) : total f (l.set i b) + f a = total f l + f b := by
  induction l generalizing i with
  | nil => simp at h
  | cons c l ih =>
    cases i with
    | zero =>
      simp only [List.getElem?_cons_zero, Option.some.injEq] at h
      subst h
      simp only [List.set_cons_zero, total_cons]
      omega
    | succ i =>
      have := ih (i := i) (by simpa using h)
      simp only [List.set_cons_succ, total_cons]
      omega

theorem total_modify {g : α → α} (h : l[i]? = some a) :
    total f (l.modify i g) + f a = total f l + f (g a) := by
  have hset : l.modify i g = l.set i (g a) :=
    List.ext_getElem? fun j => by rw [getElem?_modify_some h, getElem?_set_some h]
  rw [hset]
  exact total_set h

theorem le_total (h : l[i]? = some a) : f a ≤ total f l := by
  induction l generalizing i with
  | nil => simp at h
  | cons c l ih =>
    rw [total_cons]
    cases i with
    | zero =>
      simp only [List.getElem?_cons_zero, Option.some.injEq] at h
      subst h
      omega
    | succ i =>
      have := ih (i := i) (by simpa using h)
      omega

/-- Two entries of a table hold no more than all. -/
theorem pair_le_total (hi : l[i]? = some a) (hj : l[j]? = some b) (hij : i ≠ j) :
    f a + f b ≤ total f l := by
  induction l generalizing i j with
  | nil => simp at hi
  | cons c l ih =>
    rw [total_cons]
    cases i with
    | zero =>
      cases j with
      | zero => exact absurd rfl hij
      | succ j =>
        have hb : f b ≤ total f l := le_total (i := j) (by simpa using hj)
        simp only [List.getElem?_cons_zero, Option.some.injEq] at hi
        subst hi
        omega
    | succ i =>
      cases j with
      | zero =>
        have ha : f a ≤ total f l := le_total (i := i) (by simpa using hi)
        simp only [List.getElem?_cons_zero, Option.some.injEq] at hj
        subst hj
        omega
      | succ j =>
        have := ih (i := i) (j := j) (by simpa using hi) (by simpa using hj) (by omega)
        omega

theorem total_eq_zero (h : ∀ a ∈ l, f a = 0) : total f l = 0 := by
  induction l with
  | nil => rfl
  | cons c l ih =>
    rw [total_cons, h c List.mem_cons_self, ih fun a ha => h a (List.mem_cons_of_mem c ha)]

/-- One entry holds all that a table holds when the others hold nothing. -/
theorem total_eq_single (h : l[i]? = some a) (hrest : ∀ j b, j ≠ i → l[j]? = some b → f b = 0) :
    total f l = f a := by
  induction l generalizing i with
  | nil => simp at h
  | cons c l ih =>
    rw [total_cons]
    cases i with
    | zero =>
      simp only [List.getElem?_cons_zero, Option.some.injEq] at h
      subst h
      have hzero : total f l = 0 := total_eq_zero fun b hb => by
        obtain ⟨j, hj⟩ := List.getElem?_of_mem hb
        exact hrest (j + 1) b (by omega) (by simpa using hj)
      omega
    | succ i =>
      have hfirst : f c = 0 := hrest 0 c (by omega) (by simp)
      have := ih (i := i) (by simpa using h) fun j b hj hb =>
        hrest (j + 1) b (by omega) (by simpa using hb)
      omega

/-- Some entry holds what a table holds. -/
theorem exists_of_total_pos (h : 0 < total f l) : ∃ a ∈ l, 0 < f a := by
  induction l with
  | nil => simp at h
  | cons c l ih =>
    rw [total_cons] at h
    by_cases hc : 0 < f c
    · exact ⟨c, List.mem_cons_self, hc⟩
    · obtain ⟨a, ha, hpos⟩ := ih (by omega)
      exact ⟨a, List.mem_cons_of_mem c ha, hpos⟩

end LoopbackLock
