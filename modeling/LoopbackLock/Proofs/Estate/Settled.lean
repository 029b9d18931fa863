import LoopbackLock.Proofs.Estate.Releasing

/-!
# Connections on which all is said

Once the announcement on a connection is over, whoever still has the connection shuts it at most
(`Spent`). So what was said there stays as it is, whatever is said elsewhere (`Settled.moves`).
-/

namespace LoopbackLock

namespace Pen

variable {p : Pen}

theorem Implies.of_told (h : told.Implies p) : p = told ∨ p = shut := by
  have hany : ∀ s, p.Fits s false := fun s => h s false rfl
  cases p with
  | told => exact .inl rfl
  | shut => exact .inr rfl
  | fresh => exact absurd (hany [0]).1 (by decide)
  | answered => exact absurd (hany []).1 (by decide)
  | answering rest =>
    have hlong := congrArg List.length (hany (0 :: Attendance.answer)).1
    rw [List.length_append, List.length_cons] at hlong
    omega
  | announcing rest => exact absurd (hany []).1.1 (by decide)

theorem Implies.of_shut (h : shut.Implies p) : p = shut := by
  have htold : told.Implies p := fun s b _ => h s b trivial
  rcases htold.of_told with rfl | rfl
  · exact absurd (h [] true trivial) Bool.noConfusion
  · rfl

end Pen

namespace Estate

variable {E E' : Estate} {stored : HolderId → Prop} {x : LinkId} {P : Place} {p : Pen} {e : Event}
variable {t : ThreadId} {W : Work} {queue : List LinkId} {said : Bytes}

/-- Whoever has a connection shuts it at most. -/
def Spent (E : Estate) (x : LinkId) : Prop :=
  ∀ ⦃P p⦄, E.Has P x p → p = .told ∨ p = .shut

/-- On a connection nothing more is said than the answer and this. -/
structure Settled (E : Estate) (x : LinkId) (said : Bytes) : Prop where
  spent : E.Spent x
  said : E.network.said x = Attendance.answer ++ said

/-- A work that is past the announcement has the only pen for its connection. -/
theorem Accounted.spent_of_work (hacc : E.Accounted) (hW : E.works[t]? = some (some W))
    (hs : W.stage = .shutting x queue ∨ W.stage = .discarding x queue) : E.Spent x := by
  obtain ⟨pen, hpen, hpens⟩ : ∃ pen, (pen = .told ∨ pen = .shut) ∧
      W.stage.pens = (x, pen) :: Pen.ofQueue queue := by
    rcases hs with hs | hs <;> rw [hs]
    · exact ⟨.told, .inl rfl, rfl⟩
    · exact ⟨.shut, .inr rfl, rfl⟩
  have hlinks : W.stage.links = x :: queue := by rcases hs with hs | hs <;> rw [hs] <;> rfl
  have hmine : E.Has (.work t) x pen := .work hW (by rw [hpens]; exact List.mem_cons_self)
  intro P p hp
  obtain rfl := hacc.place_unique hmine hp
  cases hp
  case work W' hW' hp =>
    obtain rfl := Option.some.inj (Option.some.inj (hW.symm.trans hW'))
    rw [hpens] at hp
    rcases List.mem_cons.mp hp with heq | hq
    · cases heq
      exact hpen
    · exact absurd (Pen.mem_ofQueue.mp hq).1 (hacc.head_once hW hlinks)

theorem Settled.moves (h : E.Settled x said) (hacc : E.Accounted) (hm : E.Moves stored e E') :
    E'.Settled x said := by
  have hsome : E.network.said x ≠ [] := by
    rw [h.said]
    exact fun hnil => absurd (List.append_eq_nil_iff.mp hnil).1 (by decide)
  rcases hm.speech hacc with hsilent | ⟨P₀, y, p₀, part, shuts, next, hspeaks⟩
  · refine ⟨fun P p hp => ?_, (congrFun hsilent.said x).trans h.said⟩
    rcases hsilent.has hp with ⟨P₁, p₁, hp₁, himplies⟩ | ⟨-, hnil, -⟩
    · rcases h.spent hp₁ with rfl | rfl
      · exact himplies.of_told
      · exact .inr himplies.of_shut
    · exact absurd hnil hsome
  · by_cases hxy : x = y
    · -- The pen in use is one that only shuts.
      subst hxy
      have hutters := hspeaks.utters
      rcases h.spent hspeaks.pen with rfl | rfl <;> cases hutters
      refine ⟨fun P p hp => ?_, by rw [hspeaks.said, if_pos rfl, List.append_nil, h.said]⟩
      rcases hspeaks.has hp with ⟨hold, -⟩ | ⟨-, -, hnext⟩
      · exact h.spent hold
      · cases hnext
        exact .inr rfl
    · refine ⟨fun P p hp => ?_, by rw [hspeaks.said, if_neg hxy, h.said]⟩
      rcases hspeaks.has hp with ⟨hold, -⟩ | ⟨-, heq, -⟩
      · exact h.spent hold
      · exact absurd heq hxy

end Estate

end LoopbackLock
