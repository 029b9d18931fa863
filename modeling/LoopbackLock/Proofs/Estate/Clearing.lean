import LoopbackLock.Proofs.Estate.Releasing
import LoopbackLock.Proofs.World.Front

/-!
# Releases that have swept

A release sweeps the registry of its holder after the workers were told to stop and the accepting one
is gone. From then on nothing is or gets registered with the holder (`Estate.Cleared.moves`).
-/

namespace LoopbackLock

/-- The registry has been emptied for the last time. -/
def Dismantling.hasSwept : Dismantling → Bool
  | clearing .. | abandoning => true
  | _ => false

namespace Dismantling

variable {d : Dismantling} {r : Reply}

theorem hasSwept_of_isBetween (h : d.isBetween = true) : d.hasSwept = false := by
  cases d <;> first | rfl | cases h

theorem hasSwept_over (h : d.step true r = .over ()) : d.hasSwept = true := by
  revert h
  fun_cases Dismantling.step true d r <;> intro h <;> cases h
  rfl

end Dismantling

namespace Estate

variable {E E' : Estate} {stored : HolderId → Prop} {e : Event} {h : HolderId} {holder : Holder}

/-- A holder keeps its listener. -/
theorem Turns.listener {h : HolderId} {holder holder' : Holder}
    (ht : E.Turns h holder e E' holder') : holder'.listener = holder.listener := by
  cases ht
  case left => exact Holder.settle_listener ..
  case polled hp =>
    rcases hp.front with ⟨-, -, hf, -⟩ | ⟨_, -, -, hf, -⟩ <;> exact congrArg Front.listener hf
  case attended ha => exact congrArg Front.listener ha.front
  all_goals rfl

/-- An accepting worker that is gone does not come back. -/
theorem Turns.gone {holder' : Holder} (ht : E.Turns h holder e E' holder')
    (hgone : holder.worker = .gone) : holder'.worker = .gone := by
  cases ht
  case left => exact (Holder.settle_worker ..).trans hgone
  case polled hp =>
    rcases hp.front with ⟨-, hne, -, -⟩ | ⟨_, hne, -, -, -⟩ <;> exact absurd hgone hne
  case attended ha => exact (congrArg Front.worker ha.front).trans hgone
  all_goals exact hgone

/-- The holder of a number is swept, and its accepting worker is gone. -/
def Vacant (E : Estate) (h : HolderId) : Prop :=
  ∃ holder, E.holders[h]? = some holder ∧ holder.Swept ∧ holder.worker = .gone

theorem Vacant.moves (hv : E.Vacant h) (hm : E.Moves stored e E') : E'.Vacant h := by
  obtain ⟨holder, hh, hs, hgone⟩ := hv
  obtain ⟨holder', hh', ht⟩ := hm.turns hh
  exact ⟨holder', hh', ht.swept hs, ht.gone hgone⟩

/-- Nothing is or gets registered with a holder any more whose release has swept. -/
def Cleared (E : Estate) : Prop :=
  ∀ (t : ThreadId) (W : Work), E.works[t]? = some (some W) → W.orderly = true →
    W.stage.hasSwept = true → E.Swept W.holder

theorem Cleared.blank (terrain : Terrain) : (World.blank terrain).estate.Cleared := by
  intro t W hW
  cases hW

/-- A work that has swept has just done so, or had before. -/
theorem Labour.hasSwept {chance : Chance} {W W' : Work} (hl : E.Labour W chance (some W') E')
    (hs' : W'.stage.hasSwept = true) : W.stage.isBetween = true ∨ W.stage.hasSwept = true := by
  generalize hW' : some W' = W₁ at hl
  cases hl
  case stuck => cases hW'; exact .inr hs'
  case drained =>
    cases hW'
    rw [Dismantling.hasSwept_of_isBetween (Dismantling.isBetween_notify _)] at hs'
    cases hs'
  case cleared hs => rw [hs]; exact .inr rfl
  case abandoned => cases hW'
  case discarded hs => rw [hs]; exact .inl rfl
  case wrote hs _ | announced hs _ | shut hs _ | stopped hs _ => rw [hs]; exact .inl rfl
  case cut hs _ _ | joined hs _ _ | swept hs _ _ => rw [hs]; exact .inl rfl

theorem Cleared.moves (h : E.Cleared) (hr : E.Registered) (hstop : E.Stopped)
    (hm : E.Moves stored e E') : E'.Cleared := by
  intro t W' hW' hord hs'
  obtain ⟨W, hW, hworks⟩ := hm.works hW'
  cases hworks
  case same => exact (h t W' hW hord hs').moves hm
  case began hstage =>
    rw [hord, if_pos rfl] at hstage
    rw [hstage] at hs'
    cases hs'
  case laboured chance W E₁ he hl hE =>
    obtain ⟨hholder, horderly⟩ := hl.same_holder
    have hord₀ := horderly.symm.trans hord
    rw [hholder]
    rcases hl.hasSwept hs' with hbetween | hswept
    · rcases hl.between hr hstop hW hord₀ hbetween with ⟨W₁, heq, -, -, hb⟩ | hsw
      · cases heq
        rw [Dismantling.hasSwept_of_isBetween hb] at hs'
        cases hs'
      · rw [hE]
        exact hsw
    · exact (h t W hW hord₀ hswept).moves hm

end Estate

end LoopbackLock
