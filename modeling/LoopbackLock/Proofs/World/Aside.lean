import LoopbackLock.Proofs.Network.Leaving
import LoopbackLock.Proofs.World.Cooperation

/-!
# Who leaves a connection alone

A connection that waits, or that an attendant is at, is touched by the one who called it, by that
attendant, and by the accepting worker at whose listener it waits. Whatever else happens among locks
leaves it alone (`Agreeing.leaves`).
-/

namespace LoopbackLock

variable {s : Settings} {r : Reply} {q : Request} {x : LinkId} {w w' w₁ : World} {e : Event}

/-- The connection at one of whose ends a request does something. -/
def Request.link? : Request → Option LinkId
  | send y _ | read y _ | hangUp y | write y _ | shut y | discard y => some y
  | _ => none

theorem Dismantling.link?_request {h : HolderId} {d : Dismantling}
    (hq : (d.request h).link? = some x) : ∃ p, (x, p) ∈ d.pens := by
  cases d
  case notifying | shutting | discarding =>
    cases hq
    exact ⟨_, List.mem_cons_self⟩
  case clearing =>
    cases hq
    exact ⟨_, Pen.mem_ofQueue.mpr ⟨List.mem_cons_self, rfl⟩⟩
  all_goals cases hq

/-- A call does something with a connection that it made, or that it dismantles. -/
theorem Call.link?_request {c : Call} (hq : (c.request s).link? = some x) :
    x ∈ c.links ∨ ∃ W p, c.work? = some W ∧ (x, p) ∈ W.stage.pens := by
  have hchallenge : ∀ {c : Challenge}, (c.request s).link? = some x → x ∈ c.links := by
    intro c h
    cases c
    case asking | listening | closing => cases h; exact List.mem_cons_self
    all_goals cases h
  have hvigil : ∀ {v : Vigil}, (v.request s).link? = some x → x ∈ v.links := by
    intro v h
    cases v
    case probing | joining => exact hchallenge h
    case rechecking => exact List.mem_cons_of_mem _ (hchallenge h)
    case excusing => cases h; exact List.mem_cons_of_mem _ List.mem_cons_self
    case dismissing | awaiting | closing | failing => cases h; exact List.mem_cons_self
    case limiting | listening => cases h
  rcases c with _ | _ | c | _ | _ | _ | _ | ⟨h, d⟩ | _ | _ | ⟨h, d⟩
  case contending =>
    left
    cases c
    case watching => exact hvigil hq
    all_goals cases hq
  case dismantling | dropping =>
    obtain ⟨p, hp⟩ := Dismantling.link?_request hq
    exact .inr ⟨_, p, rfl, hp⟩
  all_goals cases hq

namespace World

/-- A request that has to do with neither a connection, nor its listener, nor the registry it is
in, leaves it alone. -/
theorem Served.leaves (hs : w.Served s q r w₁) (hx : x < w.network.links.length)
    (hq : q.link? ≠ some x) (hunbind : ∀ ℓ, q = .unbind ℓ → x ∉ w.network.backlog ℓ)
    (hfiled : ∀ h holder, q = .abandon h → w.holders[h]? = some holder →
      x ∉ holder.registry.links) : w.network.Leaves x w₁.network := by
  have hne : ∀ {y}, q.link? = some y → y ≠ x := fun hy heq => hq (heq ▸ hy)
  cases hs
  case bound hb => exact Network.leaves_bind hb
  case unbound ℓ => exact Network.leaves_unbind (hunbind ℓ rfl)
  case connected hc => exact Network.leaves_connect hx hc
  case sent hw => exact Network.leaves_write (hne rfl) hw
  case heard hh => exact Network.leaves_hear? (hne rfl) hh
  case hungUp => exact Network.leaves_release (hne rfl) .caller
  case wrote hw => exact Network.leaves_write (hne rfl) hw
  case shut hf => exact Network.leaves_finish (hne rfl) hf
  case discarded => exact Network.leaves_release (hne rfl) .callee
  case abandoned h holder hh =>
    have hnot := hfiled h holder rfl hh
    exact Holder.settle_leaves (h := { holder with kept := false }) hnot
  all_goals exact .refl w.network x

end World

/-! ## Places -/

/-- The connection waits, or an attendant is at it. -/
def Place.isEarly : Place → Bool
  | queue | holder _ (some _) => true
  | _ => false

namespace Estate

variable {E : Estate} {P : Place} {p : Pen} {h : HolderId} {k : Nat} {holder : Holder}
variable {a : Attendant}

/-- Who is early at a connection that an attendant is at is this attendant. -/
theorem Accounted.place_of_attendant (hacc : E.Accounted) (hh : E.holders[h]? = some holder)
    (hk : holder.attendants[k]? = some a) (hp : E.Has P a.link p) (hP : P.isEarly = true) :
    P = .holder h (some k) := by
  have hcame := came_of_attendant hh (List.mem_of_getElem? hk)
  cases hp
  case waiting hx =>
    have harrival := hacc.arrival a.link
    have hle := measure_le_total (Holder.came a.link) E h
    unfold came at harrival
    omega
  case work => cases hP
  case holder h' holder' j hh' hj =>
    generalize hax : a.link = x at hj hcame
    cases hj
    case filed => cases hP
    case attendant k' a' hk' hq =>
      obtain ⟨rfl, rfl⟩ := hacc.attendant_unique hh hk hh' hk' hax.symm
      rfl

/-- Who is early is registered nowhere. -/
theorem Accounted.not_filed (hacc : E.Accounted) (hp : E.Has P x p) (hP : P.isEarly = true)
    (hh : E.holders[h]? = some holder) : x ∉ holder.registry.links := by
  intro hx
  rw [hacc.place_unique hp (.holder hh (.filed hx))] at hP
  cases hP

/-- Who does not wait is in no backlog. -/
theorem Accounted.not_waiting {ℓ : ListenerId} (hacc : E.Accounted) (hp : E.Has P x p)
    (hP : P ≠ .queue) : x ∉ E.network.backlog ℓ := by
  intro hx
  exact hP (hacc.place_unique hp (.waiting (Network.waiting_pos_of_backlog hx)))

/-- Who has a place is there. -/
theorem Accounted.link_of_place (hacc : E.Accounted) (hp : E.Has P x p) (hP : P.isEarly = true) :
    x < E.network.links.length := by
  refine Decidable.byContradiction fun hx => ?_
  have habsent := hacc.absent x (Nat.not_lt.mp hx)
  cases hp
  case waiting hwait => omega
  case work => cases hP
  case holder h holder j hh hj =>
    cases hj
    case filed => cases hP
    case attendant k a hk hq =>
      have hcame := came_of_attendant hh (List.mem_of_getElem? hk)
      have hle := measure_le_total (Holder.came a.link) E h
      unfold came at habsent
      omega

end Estate

namespace World

variable {P : Place} {p : Pen}

/-- Whoever is not concerned with an early connection leaves it alone. -/
theorem Agreeing.leaves (hw : w.Agreeing) (he : w.Happened e w') (hp : w.estate.Has P x p)
    (hP : P.isEarly = true)
    (hcaller : ∀ t i c chance, w.threads[t]? = some (.busy i c) → e = .step (.thread t) chance →
      x ∉ c.links)
    (hdeed : ∀ y d, e ≠ .deed y d)
    (hattendant : ∀ h k chance, P = .holder h (some k) → e ≠ .step (.attendant h k) chance)
    (hworker : P = .queue → ∀ h chance, e ≠ .step (.worker h) chance) :
    w.network.Leaves x w'.network := by
  have hacc := hw.regular.accounted
  have hlink : x < w.network.links.length := hacc.link_of_place hp hP
  rcases he with ⟨ht, hl, hs⟩ | ⟨hh, hpoll⟩ | ⟨hh, ha⟩ | ⟨ho, -⟩ | ⟨hl, ht, hfree⟩ | ⟨hl⟩ | s | _ |
    ⟨hc⟩ | ⟨y, d⟩ | ⟨⟨-, -⟩⟩
  case threadStep t chance i c l r w₁ =>
    rw [network_settle]
    have hserved := served_of_serve? hs
    refine hserved.leaves hlink (fun hq => ?_) (fun ℓ hq hx => ?_) fun h holder hq hh => ?_
    · rcases Call.link?_request hq with hmem | ⟨W, p', hW, hpen⟩
      · exact hcaller t i c chance ht rfl hmem
      · have hwork : w.estate.works[t]? = some (some W) := by
          simp [World.estate, ht, Activity.work?, hW]
        rw [hacc.place_unique hp (.work hwork hpen)] at hP
        cases hP
    · -- Nobody fails here, so nobody closes a listener for want of a holder.
      have hfares := hw.fares t _ ht
      rcases c with _ | _ | c | _ | _ | _ | _ | ⟨h, d⟩ | _ | _ | ⟨h, d⟩
      case contending =>
        cases c
        case unbinding => exact hfares
        case watching v =>
          have hcontact := Vigil.isContact_request l.settings v
          have hq : v.request l.settings = .unbind ℓ := hq
          rw [hq] at hcontact
          cases hcontact
        all_goals cases hq
      case dismantling | dropping => cases d <;> cases hq
      all_goals cases hq
    · exact hacc.not_filed hp hP hh
  case workerStep h chance holder next =>
    have hnot := hacc.not_filed hp hP hh
    by_cases hqueue : P = .queue
    · exact absurd rfl (hworker hqueue h chance)
    · obtain ⟨holder', n⟩ := next
      have hpolled : holder.Polled w.network holder' n := Holder.polled_of_poll? hpoll
      cases hpolled
      case stopped =>
        exact (Network.leaves_unbind (hacc.not_waiting hp hqueue)).trans
          (Holder.settle_leaves (h := { holder with worker := .gone }) hnot)
      case turned => exact .refl w.network x
      case attached y hx hy =>
        refine Network.leaves_accept? ?_ hy
        rintro rfl
        have hwait := Network.waiting_accept? hy y
        rw [if_pos rfl] at hwait
        exact hqueue (hacc.place_unique hp (.waiting (by
          show 0 < w.network.waiting y
          omega)))
  case attendantStep h k chance holder next =>
    obtain ⟨a, hk, hattended⟩ := Holder.attended_of_attend? ha
    refine hattended.leaves (fun heq => ?_) (hacc.not_filed hp hP hh)
    subst heq
    exact hattendant h k chance (hacc.place_of_attendant hh hk hp hP) rfl
  case occupantStep => simp [hw.regular.unoccupied] at ho
  case called => exact Network.leaves_connect hlink hc
  case done => exact absurd rfl (hdeed y d)
  all_goals exact .refl w.network x

/-! ## Who waits where -/

theorem Served.recalls (hs : w.Served s q r w₁) (hx : x < w.network.links.length) :
    w.network.Recalls x w₁.network := by
  cases hs
  case bound hb => exact Network.recalls_bind hb
  case unbound => exact Network.recalls_unbind _ _
  case connected hc => exact Network.recalls_connect hx hc
  case sent hw => exact .of_listeners (Network.listeners_write hw)
  case heard hh => exact .of_listeners (Network.listeners_hear? hh)
  case wrote hw => exact .of_listeners (Network.listeners_write hw)
  case shut hf => exact .of_listeners (Network.listeners_finish hf)
  case abandoned => exact .of_listeners (Holder.settle_listeners ..)
  all_goals exact .of_listeners rfl

/-- Who waits at a listener came there when it connected. -/
theorem Happened.recalls (he : w.Happened e w') (hocc : w.occupants = [])
    (hx : x < w.network.links.length) : w.network.Recalls x w'.network := by
  rcases he with ⟨ht, hl, hs⟩ | ⟨hh, hp⟩ | ⟨hh, ha⟩ | ⟨ho, -⟩ | ⟨hl, ht, hfree⟩ | ⟨hl⟩ | s | _ |
    ⟨hc⟩ | ⟨y, d⟩ | ⟨⟨-, -⟩⟩
  case threadStep =>
    rw [network_settle]
    exact (served_of_serve? hs).recalls hx
  case workerStep => exact (Holder.polled_of_poll? hp).recalls
  case attendantStep =>
    obtain ⟨a, -, ha⟩ := Holder.attended_of_attend? ha
    exact .of_listeners ha.listeners
  case occupantStep => simp [hocc] at ho
  case called => exact Network.recalls_connect hx hc
  case done =>
    refine .of_listeners ?_
    unfold World.deed
    split
    · split
      · next hw => exact Network.listeners_write hw
      · rfl
    · rfl
    · split
      · next hf => exact Network.listeners_finish hf
      · rfl
    · rfl
  all_goals exact .of_listeners rfl

end World

end LoopbackLock
