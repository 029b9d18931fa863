import LoopbackLock.Proofs.Holder.Step
import LoopbackLock.Proofs.Network.Ports
import LoopbackLock.Proofs.World.Step

/-!
# Ports and fronts

The front of a holder is its listener, where its accepting worker stands, and whether it was told to
stop. Serving a request changes ports and fronts in four ways (`Served.deal`), a step of an
accepting worker in two (`Polled.front`), and nothing else does.
-/

namespace LoopbackLock

/-- What becomes of a holder's listener depends on this part of it. -/
structure Front where
  listener : ListenerId
  worker : Worker
  stopping : Bool
  deriving DecidableEq, Repr

/-- The front of a holder. -/
def Holder.front (h : Holder) : Front := ⟨h.listener, h.worker, h.stopping⟩

/-! ## Holders -/

namespace Holder

variable {h h' : Holder} {n n' : Network} {k : Nat} {a : Attendant} {chance : Chance}

@[simp] theorem front_settle (h : Holder) (n : Network) : (h.settle n).1.front = h.front := by
  obtain ⟨_, he⟩ := h.settle_eq n
  rw [he]
  rfl

@[simp] theorem ports_settle (h : Holder) (n : Network) : (h.settle n).2.ports = n.ports := by
  unfold Holder.settle
  split
  · exact Network.ports_releaseAll _
  · rfl

/-- A step of the accepting worker closes the listener when it ends, and only when it was told
to stop. -/
theorem Polled.front (hp : h.Polled n h' n') :
    (h.stopping = true ∧ h.worker ≠ .gone ∧ h'.front = { h.front with worker := .gone } ∧
        n'.ports = (n.unbind h.listener).ports) ∨
      (∃ worker, h.worker ≠ .gone ∧ worker ≠ .gone ∧ h'.front = { h.front with worker } ∧
        n'.ports = n.ports) := by
  rcases hp with ⟨hw, hs⟩ | ⟨hw, hworker⟩ | ⟨hw, hx⟩
  · exact .inl ⟨hs, by simp [hw], front_settle .., ports_settle ..⟩
  · exact .inr ⟨_, hw, hworker, rfl, rfl⟩
  · exact .inr ⟨.checking, by simp [hw], by simp, rfl, Network.ports_accept? hx⟩

theorem Attended.front (ha : h.Attended n k a chance h' n') : h'.front = h.front := by
  cases ha
  case parted => exact front_settle ..
  all_goals rfl

theorem Attended.ports (ha : h.Attended n k a chance h' n') : n'.ports = n.ports := by
  cases ha
  case heard hh => exact Network.ports_hear? hh
  case missed hh => exact Network.ports_hear? hh
  case answered hw =>
    rcases Network.say_cases hw with ⟨_, -, rfl⟩ | ⟨_, -, hw⟩
    · rfl
    · exact Network.ports_write hw
  case admitted =>
    exact (Network.ports_releaseAll _).trans (Network.ports_releaseAll _)
  case parted => exact (ports_settle ..).trans (Network.ports_releaseAll _)
  all_goals rfl

end Holder

/-! ## Worlds -/

namespace World

variable {w w₁ : World} {s : Settings} {q : Request} {r : Reply} {h : HolderId}

/-- The fronts of all holders. -/
def fronts (w : World) : List Front := w.holders.map Holder.front

theorem fronts_setHolder (w : World) (h : HolderId) (next : Holder × Network) :
    (w.setHolder h next).fronts = w.fronts.set h next.1.front := by
  simp [fronts, World.setHolder, List.map_set]

theorem fronts_getElem? {holder : Holder} (hh : w.holders[h]? = some holder) :
    w.fronts[h]? = some holder.front := by
  simp [fronts, hh]

theorem fronts_founded (w : World) (s : Settings) (ℓ : ListenerId) :
    ({ w with holders := w.holders ++ [Holder.found s ℓ] } : World).fronts =
      w.fronts ++ [⟨ℓ, .checking, false⟩] := by
  simp [fronts, Holder.found, Holder.front]

/-- Changing a holder behind its front. -/
theorem fronts_setHolder_same {holder : Holder} {next : Holder × Network}
    (hh : w.holders[h]? = some holder) (hf : next.1.front = holder.front) :
    (w.setHolder h next).fronts = w.fronts := by
  rw [fronts_setHolder, hf]
  refine List.ext_getElem? fun i => ?_
  rw [getElem?_set_some (fronts_getElem? hh)]
  split
  · next hi => rw [hi, fronts_getElem? hh]
  · rfl

/-- What serving a request does to ports and fronts. -/
inductive Deal (w : World) (s : Settings) : Request → Reply → World → Prop
  | bound {e : Endpoint} {ℓ : ListenerId} {n : Network} (hb : w.network.bind e = .ok (ℓ, n)) :
    Deal w s (.bind e) (.bound ℓ) { w with network := n }
  | founded (ℓ : ListenerId) : Deal w s (.found ℓ) (.founded w.holders.length)
      { w with holders := w.holders ++ [Holder.found s ℓ] }
  | unbound (ℓ : ListenerId) :
    Deal w s (.unbind ℓ) .done { w with network := w.network.unbind ℓ }
  | stopped {h : HolderId} {holder : Holder} (hh : w.holders[h]? = some holder) :
    Deal w s (.stop h) .done (w.setHolder h ({ holder with stopping := true }, w.network))
  | quiet {q : Request} {r : Reply} {w₁ : World} (hb : ∀ ℓ, r ≠ .bound ℓ)
      (hf : ∀ h, r ≠ .founded h) (hu : ∀ ℓ, q = .unbind ℓ → r ≠ .done)
      (hports : w₁.network.ports = w.network.ports) (hfronts : w₁.fronts = w.fronts) :
    Deal w s q r w₁

theorem Served.deal (h : w.Served s q r w₁) : w.Deal s q r w₁ := by
  cases h
  case bound hb => exact .bound hb
  case founded ℓ => exact .founded ℓ
  case unbound ℓ => exact .unbound ℓ
  case stopped hh => exact .stopped hh
  case connected hc => exact .quiet (by simp) (by simp) (by simp) (Network.ports_connect hc) rfl
  case sent hw => exact .quiet (by simp) (by simp) (by simp) (Network.ports_write hw) rfl
  case wrote hw => exact .quiet (by simp) (by simp) (by simp) (Network.ports_write hw) rfl
  case shut hf => exact .quiet (by simp) (by simp) (by simp) (Network.ports_finish hf) rfl
  case heard hh =>
    have hports := Network.ports_hear? hh
    rcases Network.hear?_cases hh with ⟨f, rfl, -⟩ | ⟨_, _, _, -, -, -, rfl, -⟩
    · exact .quiet (by simp) (by simp) (by simp) hports rfl
    · exact .quiet (by simp) (by simp) (by simp) hports rfl
  case drained hh _ =>
    exact .quiet (by simp) (by simp) (by simp) rfl (fronts_setHolder_same hh rfl)
  case abandoned hh =>
    exact .quiet (by simp) (by simp) (by simp) (Holder.ports_settle ..)
      (fronts_setHolder_same hh (Holder.front_settle ..))
  all_goals exact .quiet (by simp) (by simp) (by simp) rfl rfl

/-- A front is there from before but for its flag, or is that of a new holder. -/
theorem Deal.front_of {f' : Front} (hd : w.Deal s q r w₁) (hf : w₁.fronts[h]? = some f') :
    (∃ f, w.fronts[h]? = some f ∧ f'.listener = f.listener ∧ f'.worker = f.worker) ∨
      ∃ ℓ, q = .found ℓ ∧ r = .founded h ∧ h = w.fronts.length ∧ f' = ⟨ℓ, .checking, false⟩ := by
  rcases hd with hb | ℓ | ℓ | @⟨h', holder, hh⟩ | ⟨-, -, -, -, hfronts⟩
  case founded =>
    have hlen : w.fronts.length = w.holders.length := List.length_map ..
    rw [fronts_founded] at hf
    rcases getElem?_concat_cases hf with ⟨hnew, rfl⟩ | hold
    · exact .inr ⟨ℓ, rfl, by rw [hnew, hlen], hnew, rfl⟩
    · exact .inl ⟨f', hold, rfl, rfl⟩
  case stopped =>
    rw [fronts_setHolder] at hf
    rcases getElem?_set_cases hf with ⟨rfl, rfl⟩ | ⟨-, hold⟩
    · exact .inl ⟨holder.front, fronts_getElem? hh, rfl, rfl⟩
    · exact .inl ⟨f', hold, rfl, rfl⟩
  case quiet => exact .inl ⟨f', hfronts ▸ hf, rfl, rfl⟩
  all_goals exact .inl ⟨f', hf, rfl, rfl⟩

end World

end LoopbackLock
