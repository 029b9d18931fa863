import LoopbackLock.Proofs.Lock.Calling
import LoopbackLock.Proofs.Network.Delivery
import LoopbackLock.Proofs.World.Regular

/-!
# Who owns the calling ends

While locks are the only ones to connect and to close, a calling end has one owner at most: the call
that made the connection (`Owned`).
-/

namespace LoopbackLock

/-- How often a thread's call owns a calling end. -/
def Activity.calls (x : LinkId) : Activity → Nat
  | free _ => 0
  | busy _ c => c.links.count x

theorem Activity.calls_of_progress (p : Progress Call Ending) (i : LockId) (x : LinkId) :
    (p.activity i).calls x = (Call.left p).count x := by
  rcases p with c | ending <;> rfl

namespace World

variable {w w' w₁ : World} {e : Event} {x : LinkId} {s : Settings} {q : Request} {r : Reply}

/-- A calling end has one owner at most, and what calls own is owned by them alone. -/
structure Owned (w : World) : Prop where
  one : ∀ x, w.network.callers x ≤ 1
  calls : ∀ x, total (Activity.calls x) w.threads ≤ w.network.callers x

/-- This calling end has one owner at most, and what calls own of it is owned by them alone. -/
structure OwnedAt (w : World) (x : LinkId) : Prop where
  one : w.network.callers x ≤ 1
  calls : total (Activity.calls x) w.threads ≤ w.network.callers x

theorem Owned.at_link (h : w.Owned) (x : LinkId) : w.OwnedAt x := ⟨h.one x, h.calls x⟩

theorem Owned.blank (terrain : Terrain) : (World.blank terrain).Owned where
  one _ := Nat.zero_le _
  calls _ := Nat.le_refl _

theorem Served.callers (hs : w.Served s q r w₁) (x : LinkId) :
    w.network.callers x + q.gain r x ≤ w₁.network.callers x + q.loss r x ∧
      (w.network.callers x ≤ 1 → w₁.network.callers x ≤ 1) := by
  have hquiet : ¬ q.calls x → q.gain r x = 0 →
      w.network.callers x + q.gain r x ≤ w₁.network.callers x + q.loss r x ∧
        (w.network.callers x ≤ 1 → w₁.network.callers x ≤ 1) := by
    intro hcalls hgain
    have hev : w.network.Evolves q.calls w₁.network := hs.evolves fun _ hx => hx
    rcases hev.callers hcalls with hsame | ⟨hzero, hone⟩ <;> omega
  cases hs
  case failed f =>
    refine ⟨?_, id⟩
    have hgain : q.gain (.failed f) x = 0 := by cases q <;> rfl
    rw [hgain]
    exact Nat.le_add_right ..
  case connected y n hc =>
    have hnone : w.network.callers w.network.links.length = 0 := Network.view_none (by simp)
    have hnew := (Network.length_connect hc).1
    show w.network.callers x + (if y = x then 1 else 0) ≤ n.callers x + 0 ∧
      (w.network.callers x ≤ 1 → n.callers x ≤ 1)
    rw [Network.callers_connect hc]
    by_cases hxy : x = y
    · subst hxy
      rw [← hnew] at hnone
      rw [if_pos rfl]
      omega
    · rw [if_neg hxy, if_neg (Ne.symm hxy)]
      omega
  case heard hh =>
    refine ⟨?_, fun h => ?_⟩
    · show w.network.callers x + 0 ≤ _
      rw [Network.callers_hear? hh]
      exact Nat.le_add_right ..
    · rwa [Network.callers_hear? hh]
  case hungUp y =>
    show w.network.callers x + 0 ≤ (w.network.release y .caller).callers x + (if y = x then 1 else 0) ∧
      (w.network.callers x ≤ 1 → (w.network.release y .caller).callers x ≤ 1)
    rw [Network.callers_hangUp]
    by_cases hxy : x = y
    · subst hxy
      rw [if_pos rfl]
      omega
    · rw [if_neg hxy, if_neg (Ne.symm hxy)]
      omega
  all_goals exact hquiet (fun h => h) rfl

/-- A calling end stays owned by the call that made the connection, while no peer touches it. -/
theorem OwnedAt.happened (ho : w.OwnedAt x) (hw : w.Regular) (he : w.Happened e w')
    (hdeed : ∀ d, e ≠ .deed x d) : w'.OwnedAt x := by
  have hev := he.evolves hw.unoccupied hw.accounted
  have hquiet : ¬ w.Calls x e → total (Activity.calls x) w'.threads =
      total (Activity.calls x) w.threads → w'.OwnedAt x := by
    intro hcalls hthreads
    have hone := ho.one
    have hle := ho.calls
    rcases hev.callers hcalls with hsame | ⟨hzero, hnew⟩ <;> constructor <;> omega
  rcases he with ⟨ht, hl, hs⟩ | ⟨hh, hp⟩ | ⟨hh, ha⟩ | ⟨ho', -⟩ | ⟨hl, ht, hfree⟩ | ⟨hl⟩ | s | _ |
    ⟨hc⟩ | ⟨y, d⟩ | ⟨⟨-, -⟩⟩
  case threadStep t chance i c l r w₁ =>
    have hs := served_of_serve? hs
    constructor
    · rw [network_settle]
      exact (hs.callers x).2 ho.one
    · rw [network_settle, settle_eq]
      show total (Activity.calls x) (w₁.threads.set t _) ≤ _
      rw [hs.threads]
      have hset := total_set (f := Activity.calls x) (b := (l.step t c r).2.activity i) ht
      rw [Activity.calls_of_progress] at hset
      have hstep := Call.links_step l t c r x
      have hcallers := (hs.callers x).1
      have hle := ho.calls
      have hmine : Activity.calls x (.busy i c) = c.links.count x := rfl
      omega
  case occupantStep => simp [hw.unoccupied] at ho'
  case begun t i kind l last =>
    refine hquiet (fun hx => by cases hx) ?_
    have hset := total_set (f := Activity.calls x) (b := .busy i kind.call) ht
    have hnone : Activity.calls x (.busy i kind.call) = 0 := by cases kind <;> rfl
    have hfree : Activity.calls x (.free last) = 0 := rfl
    show total (Activity.calls x) (w.threads.set t _) = _
    omega
  case threadMade =>
    refine hquiet (fun hx => by cases hx) ?_
    show total (Activity.calls x) (w.threads ++ [.free none]) = _
    rw [total_append]
    rfl
  case done =>
    obtain ⟨_, hd⟩ := deed_eq w y d
    refine hquiet (fun hx => by cases hx; exact hdeed d rfl) ?_
    rw [hd]
  all_goals exact hquiet (fun hx => by cases hx) rfl

theorem Owned.happened (ho : w.Owned) (hw : w.Regular) (he : w.Happened e w')
    (hdeed : ∀ x d, e ≠ .deed x d) : w'.Owned where
  one x := ((ho.at_link x).happened hw he (hdeed x)).one
  calls x := ((ho.at_link x).happened hw he (hdeed x)).calls

end World

end LoopbackLock
