import LoopbackLock.World.Event

/-!
# Runs

A run starts in an empty world and is a sequence of events. What holds at its start and is kept by
each of its events holds at its end.
-/

namespace LoopbackLock

/-- What each step of a partial run keeps holds at its end. -/
theorem foldlM_invariant {σ ε : Type} {f : σ → ε → Option σ} {P : σ → Prop} {es : List ε}
    (hstep : ∀ s e s', e ∈ es → P s → f s e = some s' → P s') {s s' : σ} (h : P s)
    (hr : es.foldlM f s = some s') : P s' := by
  induction es generalizing s with
  | nil => cases hr; exact h
  | cons e es ih =>
    rw [List.foldlM_cons] at hr
    obtain ⟨s₁, he, hr⟩ := Option.bind_eq_some_iff.mp hr
    have h₁ := hstep s e s₁ List.mem_cons_self h he
    exact ih (fun s e s' he' => hstep s e s' (List.mem_cons_of_mem _ he')) h₁ hr

namespace World

/-- A world in which nothing has happened. -/
def blank (terrain : Terrain) : World := { network := { terrain } }

variable {w w' : World}

theorem run?_append (es es' : List Event) (w : World) :
    w.run? (es ++ es') = (w.run? es).bind fun w' => w'.run? es' := by
  unfold World.run?
  rw [List.foldlM_append]
  rfl

/-- Each event of a run meets a condition in the world in which it happens. -/
def Along (P : World → Event → Prop) : World → List Event → Prop
  | _, [] => True
  | w, e :: es => P w e ∧ ∀ w', w.happen? e = some w' → Along P w' es

/-- Each world of a run meets a condition. -/
def Always (P : World → Prop) (w : World) (es : List Event) : Prop :=
  ∀ es₁ es₂ w', es = es₁ ++ es₂ → w.run? es₁ = some w' → P w'

/-- Along a run an event met a condition in the world in which it happened. -/
def Once (P : World → Event → Prop) (w : World) (es : List Event) : Prop :=
  ∃ es₁ e es₂ w₁, es = es₁ ++ e :: es₂ ∧ w.run? es₁ = some w₁ ∧ P w₁ e

/-- An actor makes so many steps on end. -/
def turns (n : Nat) (a : Actor) : List Event := List.replicate n (.step a .plain)

instance decidableAlong {P : World → Event → Prop} [∀ w e, Decidable (P w e)] :
    (w : World) → (es : List Event) → Decidable (Along P w es)
  | _, [] => .isTrue trivial
  | w, e :: es =>
    match he : w.happen? e with
    | none => decidable_of_iff (P w e) ⟨fun hp => ⟨hp, fun w' hw' => by cases he.symm.trans hw'⟩,
        fun hp => hp.1⟩
    | some w' =>
      have := decidableAlong (P := P) w' es
      decidable_of_iff (P w e ∧ Along P w' es)
        ⟨fun hp => ⟨hp.1, fun w₁ hw₁ => Option.some.inj (he.symm.trans hw₁) ▸ hp.2⟩,
          fun hp => ⟨hp.1, hp.2 w' he⟩⟩

variable {P : World → Event → Prop} {e : Event} {es es' : List Event}

theorem run?_cons : w.run? (e :: es) = (w.happen? e).bind fun w' => w'.run? es := List.foldlM_cons

section Always

variable {Q : World → Prop}

theorem Always.head (h : Always Q w es) : Q w := h [] es w rfl rfl

theorem Always.tail (h : Always Q w (e :: es)) (he : w.happen? e = some w') : Always Q w' es := by
  rintro es₁ es₂ w₂ rfl hrun
  refine h (e :: es₁) es₂ w₂ rfl ?_
  rw [run?_cons, he]
  exact hrun

theorem Always.cons (h : Q w) (htail : ∀ w', w.happen? e = some w' → Always Q w' es) :
    Always Q w (e :: es) := by
  intro es₁ es₂ w₂ heq hrun
  rcases es₁ with _ | ⟨e₁, es₁⟩
  · cases hrun
    exact h
  · cases heq
    rw [run?_cons] at hrun
    obtain ⟨w', he, hrun⟩ := Option.bind_eq_some_iff.mp hrun
    exact htail w' he es₁ es₂ w₂ rfl hrun

instance decidableAlways [DecidablePred Q] : (w : World) → (es : List Event) →
    Decidable (Always Q w es)
  | w, [] => decidable_of_iff (Q w)
      ⟨fun h es₁ es₂ w₂ heq hrun => by
        obtain ⟨rfl, -⟩ := List.nil_eq_append_iff.mp heq
        cases hrun
        exact h, Always.head⟩
  | w, e :: es =>
    match he : w.happen? e with
    | none => decidable_of_iff (Q w)
        ⟨fun h => .cons h fun w' hw' => (by cases he.symm.trans hw'), Always.head⟩
    | some w' =>
      have := decidableAlways w' es
      decidable_of_iff (Q w ∧ Always Q w' es)
        ⟨fun h => .cons h.1 fun w₁ hw₁ => Option.some.inj (he.symm.trans hw₁) ▸ h.2,
          fun h => ⟨h.head, h.tail he⟩⟩

end Always

theorem not_once_nil : ¬ w.Once P [] := by
  rintro ⟨es₁, e, es₂, w₁, heq, -⟩
  simp at heq

theorem once_concat {w₀ : World} (hr : w₀.run? es = some w) :
    w₀.Once P (es ++ [e]) ↔ w₀.Once P es ∨ P w e := by
  constructor
  · rintro ⟨es₁, e₁, es₂, w₁, heq, hrun, hP⟩
    rcases List.eq_nil_or_concat es₂ with rfl | ⟨es₂, e₂, rfl⟩
    · obtain ⟨rfl, he⟩ := List.append_inj' heq rfl
      cases he
      cases hr.symm.trans hrun
      exact .inr hP
    · rw [List.concat_eq_append, ← List.cons_append, ← List.append_assoc] at heq
      obtain ⟨rfl, -⟩ := List.append_inj' heq rfl
      exact .inl ⟨es₁, e₁, es₂, w₁, rfl, hrun, hP⟩
  · rintro (⟨es₁, e₁, es₂, w₁, rfl, hrun, hP⟩ | hP)
    · exact ⟨es₁, e₁, es₂ ++ [e], w₁, by simp, hrun, hP⟩
    · exact ⟨es, e, [], w, rfl, hr, hP⟩

/-- A run goes on from a step. -/
theorem run?_step {a : Actor} {chance : Chance} (h : w.step? a chance = some w') :
    w.run? (.step a chance :: es) = w'.run? es := by
  rw [run?_cons]
  show (w.step? a chance).bind _ = _
  rw [h]
  rfl

theorem Along.mono {Q : World → Event → Prop} (h : Along P w es) (hPQ : ∀ w e, P w e → Q w e) :
    Along Q w es := by
  induction es generalizing w with
  | nil => trivial
  | cons e es ih => exact ⟨hPQ w e h.1, fun w' he => ih (h.2 w' he)⟩

theorem Along.of_forall (h : ∀ w e, P w e) : Along P w es := by
  induction es generalizing w with
  | nil => trivial
  | cons e es ih => exact ⟨h w e, fun _ _ => ih⟩

theorem Along.forall {ι : Type} {Q : ι → World → Event → Prop} (h : ∀ i, Along (Q i) w es) :
    Along (fun w e => ∀ i, Q i w e) w es := by
  induction es generalizing w with
  | nil => trivial
  | cons e es ih => exact ⟨fun i => (h i).1, fun w' he => ih fun i => (h i).2 w' he⟩

/-- A condition on a run is one on its beginning. -/
theorem Along.left (h : Along P w (es ++ es')) : Along P w es := by
  induction es generalizing w with
  | nil => trivial
  | cons e es ih => exact ⟨h.1, fun w' he => ih (h.2 w' he)⟩

/-- What every event that meets the condition keeps holds at the end of a run. -/
theorem Along.invariant {I : World → Prop}
    (hstep : ∀ w e w', I w → P w e → w.happen? e = some w' → I w') (h : Along P w es) (hI : I w)
    (hr : w.run? es = some w') : I w' := by
  induction es generalizing w with
  | nil => cases hr; exact hI
  | cons e es ih =>
    rw [run?_cons] at hr
    obtain ⟨w₁, he, hr⟩ := Option.bind_eq_some_iff.mp hr
    exact ih (h.2 w₁ he) (hstep w e w₁ hI h.1 he) hr

end World

end LoopbackLock
