/-!
# Tables

Listeners, connections, locks, threads and holders go by their number in a list. An event sets one
entry, changes one, or puts one at the end; this is what stands at each number afterwards.
-/

namespace LoopbackLock

variable {α : Type} {l : List α} {a b : α} {f : α → α} {i j : Nat}

theorem getElem?_set_some (h : l[i]? = some a) (b : α) (j : Nat) :
    (l.set i b)[j]? = if j = i then some b else l[j]? := by
  rw [List.getElem?_set]
  by_cases hji : j = i
  · subst hji
    rw [if_pos rfl, if_pos (List.getElem?_eq_some_iff.mp h).1, if_pos rfl]
  · rw [if_neg (Ne.symm hji), if_neg hji]

/-- An entry is the one that was set, or it stood there before. -/
theorem getElem?_set_cases (h : (l.set i b)[j]? = some a) :
    i = j ∧ a = b ∨ i ≠ j ∧ l[j]? = some a := by
  rw [List.getElem?_set] at h
  split at h
  · next hij =>
    split at h
    · exact .inl ⟨hij, (Option.some.inj h).symm⟩
    · cases h
  · next hij => exact .inr ⟨hij, h⟩

theorem getElem?_modify_some (h : l[i]? = some a) (f : α → α) (j : Nat) :
    (l.modify i f)[j]? = if j = i then some (f a) else l[j]? := by
  rw [List.getElem?_modify]
  by_cases hji : j = i
  · subst hji
    rw [if_pos rfl, h]
    simp
  · rw [if_neg hji]
    simp [Ne.symm hji]

/-- An entry is what the one that was changed has become, or it stood there before. -/
theorem getElem?_modify_cases (h : l[i]? = some a) (h' : (l.modify i f)[j]? = some b) :
    j = i ∧ b = f a ∨ j ≠ i ∧ l[j]? = some b := by
  rw [getElem?_modify_some h] at h'
  split at h'
  · next hji => exact .inl ⟨hji, (Option.some.inj h').symm⟩
  · next hji => exact .inr ⟨hji, h'⟩

theorem getElem?_concat (l : List α) (a : α) (i : Nat) :
    (l ++ [a])[i]? = if i = l.length then some a else l[i]? := by
  rcases Nat.lt_trichotomy i l.length with hlt | rfl | hgt
  · rw [List.getElem?_append_left hlt, if_neg (Nat.ne_of_lt hlt)]
  · rw [List.getElem?_concat_length, if_pos rfl]
  · rw [if_neg (Nat.ne_of_gt hgt), List.getElem?_eq_none (Nat.le_of_lt hgt)]
    refine List.getElem?_eq_none ?_
    rw [List.length_append]
    exact hgt

/-- An entry is the one that was put at the end, or it stood there before. -/
theorem getElem?_concat_cases (h : (l ++ [a])[i]? = some b) :
    i = l.length ∧ b = a ∨ l[i]? = some b := by
  rw [getElem?_concat] at h
  split at h
  · next hi => exact .inl ⟨hi, (Option.some.inj h).symm⟩
  · exact .inr h

end LoopbackLock
