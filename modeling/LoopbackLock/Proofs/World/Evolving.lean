import LoopbackLock.Proofs.Estate.Accounts
import LoopbackLock.Proofs.Network.Evolving
import LoopbackLock.Proofs.World.Listening

/-!
# How the connections of a world evolve

Every event changes connections as the network does, and reads from or gives up calling ends only
if it is a step of a caller (`Happened.evolves`).
-/

namespace LoopbackLock

namespace Holder

variable {h h' : Holder} {n n' : Network} {k : Nat} {a : Attendant} {chance : Chance}
  {calls : LinkId → Prop}

theorem settle_evolves (h : Holder) (n : Network) : n.Evolves calls (h.settle n).2 := by
  unfold settle
  split
  · exact Network.evolves_releaseAll ..
  · exact .refl n

theorem Polled.evolves (hp : h.Polled n h' n') : n.Evolves calls n' := by
  cases hp
  case stopped => exact (Network.evolves_unbind ..).trans (settle_evolves ..)
  case turned => exact .refl n
  case attached hw hx => exact Network.evolves_accept? hx

theorem Attended.evolves (ha : h.Attended n k a chance h' n')
    (hle : a.stage.handles ≤ n.handles a.link) : n.Evolves calls n' := by
  cases ha
  case prepared hs =>
    refine .modifyLink fun l hl => .shared ?_
    unfold Network.handles at hle
    rw [hs, Network.view_some hl] at hle
    exact Nat.ne_of_gt hle
  case heard hh => exact Network.evolves_hear? hh (by rintro ⟨⟩)
  case missed hh => exact Network.evolves_hear? hh (by rintro ⟨⟩)
  case answered hw => exact Network.evolves_say hw
  case admitted =>
    exact (Network.evolves_releaseAll ..).trans (Network.evolves_releaseAll ..)
  case parted => exact (Network.evolves_releaseAll ..).trans (settle_evolves ..)
  all_goals exact .refl n

end Holder

/-- The request reads from or gives up the calling end of a connection. -/
def Request.calls : Request → LinkId → Prop
  | read y _, x | hangUp y, x => x = y
  | _, _ => False

namespace World

variable {w w' w₁ : World} {e : Event} {calls : LinkId → Prop}

/-- The event reads from the calling end of a connection or gives it up. -/
inductive Calls (w : World) (x : LinkId) : Event → Prop
  | thread {t : ThreadId} {chance : Chance} {i : LockId} {c : Call} {l : PortLock}
      (ht : w.threads[t]? = some (.busy i c)) (hl : w.lock? i = some l)
      (hx : (c.request l.settings).calls x) : Calls w x (.step (.thread t) chance)
  | deed (d : Deed) : Calls w x (.deed x d)

theorem Served.evolves {s : Settings} {q : Request} {r : Reply} (hs : w.Served s q r w₁)
    (hcalls : ∀ x, q.calls x → calls x) : w.network.Evolves calls w₁.network := by
  cases hs
  case bound hb =>
    obtain ⟨-, -, -, rfl⟩ := Network.bind_eq_ok hb
    exact .of_links rfl
  case unbound => exact Network.evolves_unbind ..
  case connected hc => exact Network.evolves_connect hc
  case sent hw => exact Network.evolves_write hw
  case heard hh => exact Network.evolves_hear? hh fun _ => hcalls _ rfl
  case hungUp => exact Network.evolves_release _ _ _ fun _ => hcalls _ rfl
  case wrote hw => exact Network.evolves_write hw
  case shut hf => exact Network.evolves_finish hf
  case discarded => exact Network.evolves_release _ _ _ (by rintro ⟨⟩)
  case abandoned => exact Holder.settle_evolves ..
  all_goals exact .refl w.network

theorem deed_evolves (w : World) (x : LinkId) (d : Deed) (hcalls : calls x) :
    w.network.Evolves calls (w.deed x d).network := by
  unfold World.deed
  split
  · split
    · next hw => exact Network.evolves_write hw
    · exact .refl _
  · exact .modifyLink fun _ _ => .took .caller _ fun _ => hcalls
  · split
    · next hf => exact Network.evolves_finish hf
    · exact .refl _
  · exact Network.evolves_release _ _ _ fun _ => hcalls

theorem Happened.evolves (hocc : w.occupants = []) (hacc : w.estate.Accounted)
    (he : w.Happened e w') : w.network.Evolves (fun x => w.Calls x e) w'.network := by
  rcases he with ⟨ht, hl, hs⟩ | ⟨hh, hp⟩ | ⟨hh, ha⟩ | ⟨ho, -⟩ | ⟨hl, ht, hfree⟩ | ⟨hl⟩ | s | _ |
    ⟨hc⟩ | ⟨x, d⟩ | ⟨⟨hh, hperm⟩⟩
  case threadStep =>
    rw [network_settle]
    exact (served_of_serve? hs).evolves fun _ hx => .thread ht hl hx
  case workerStep => exact (Holder.polled_of_poll? hp).evolves
  case attendantStep =>
    obtain ⟨a, hk, ha⟩ := Holder.attended_of_attend? ha
    exact ha.evolves (Nat.le_trans (Holder.stage_le_owns hk) (hacc.owns_le (E := w.estate) hh _))
  case occupantStep => simp [hocc] at ho
  case called => exact Network.evolves_connect hc
  case done => exact deed_evolves w x d (.deed d)
  all_goals exact .refl w.network

end World

end LoopbackLock
