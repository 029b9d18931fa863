import LoopbackLock.Proofs.Estate.Speech

/-!
# What was said fits the pens

Each event is silent or is one use of one pen (`Moves.speech`). By induction along a run, what was
said on each connection fits its pen (`Answered`), and only ever grows towards the answer with the
announcement after it (`Answered.said`).
-/

namespace LoopbackLock.Estate

variable {E E' : Estate} {stored : HolderId → Prop} {x : LinkId} {P : Place} {p q : Pen}
variable {k : HolderId} {holder : Holder} {n : Network} {t : ThreadId} {W : Work}
variable {W' : Option Work} {part : Bytes} {shuts : Bool} {next : Option Pen} {e : Event}

theorem Silent.of_has (hsaid : E'.network.said = E.network.said)
    (hshut : E'.network.isShut = E.network.isShut)
    (hhas : ∀ {P x p}, E'.Has P x p → E.Has P x p) : E.Silent E' where
  said := hsaid
  shut := hshut
  has hp := .inl ⟨_, _, hhas hp, .refl _⟩

/-- A work uses its pen for the connection it is at. -/
theorem Speaks.of_work {queue : List LinkId} {d : Dismantling} (h : E.Accounted)
    (hW : E.works[t]? = some (some W)) (hpens : W.stage.pens = (x, p) :: Pen.ofQueue queue)
    (hlinks : W.stage.links = x :: queue) (hnew : d.pens = (x, q) :: Pen.ofQueue queue)
    (hu : p.Utters part shuts (some q))
    (hsaid : ∀ y, n.said y = if y = x then E.network.said y ++ part else E.network.said y)
    (hshut : ∀ y, n.isShut y = (E.network.isShut y || (decide (y = x) && shuts)))
    (hwaiting : n.waiting = E.network.waiting) :
    E.Speaks (.work t) x p part shuts (some q)
      (({ E with network := n } : Estate).setWork t (some { W with stage := d })) where
  pen := .work hW (by rw [hpens]; exact List.mem_cons_self)
  utters := hu
  said := hsaid
  shut := hshut
  has := by
    intro P' y p' hp
    rcases has_setWork (E := { E with network := n }) hp with ⟨hP, W₁, heq, hmem⟩ | ⟨hP, hp⟩
    · cases heq
      have hmem : (y, p') ∈ d.pens := hmem
      rw [hnew] at hmem
      rcases List.mem_cons.mp hmem with heq | htail
      · cases heq
        exact .inr ⟨hP, rfl, rfl⟩
      · left
        obtain ⟨hy, rfl⟩ := Pen.mem_ofQueue.mp htail
        refine ⟨?_, fun heq => h.head_once hW hlinks (heq.2 ▸ hy)⟩
        rw [hP]
        exact .work hW (by rw [hpens]; exact List.mem_cons_of_mem _ htail)
    · exact .inl ⟨has_network (fun x => Nat.le_of_eq (congrFun hwaiting x)) hp, fun heq => hP heq.1⟩

/-- A work writes a part of its announcement, or gives it up. -/
theorem Speaks.of_write {rest : Bytes} {queue : List LinkId} {d : Dismantling} (h : E.Accounted)
    (hW : E.works[t]? = some (some W)) (hs : W.stage = .notifying x rest queue)
    (hw : E.network.write x .callee part = .ok n)
    (hu : (Pen.announcing rest).Utters part false (some q))
    (hnew : d.pens = (x, q) :: Pen.ofQueue queue) :
    E.Speaks (.work t) x (.announcing rest) part false (some q)
      (({ E with network := n } : Estate).setWork t (some { W with stage := d })) := by
  obtain ⟨-, hshut, hwaiting, -⟩ := Network.write_callee hw
  exact .of_work h hW (by rw [hs]; rfl) (by rw [hs]; rfl) hnew hu
    (fun _ => Network.said_write hw) (fun y => by rw [hshut]; simp) hwaiting

/-- An attendant writes a part of its answer. -/
theorem Speaks.setHolder {j : Nat} {after : Holder × Network} (hh : E.holders[k]? = some holder)
    (hmine : holder.Has (some j) x p) (hu : p.Utters part false next)
    (hw : E.network.write x .callee part = .ok after.2)
    (hhas : ∀ {i y p'}, after.1.Has i y p' →
      holder.Has i y p' ∧ ¬ (i = some j ∧ y = x) ∨ i = some j ∧ y = x ∧ next = some p') :
    E.Speaks (.holder k (some j)) x p part false next (E.setHolder k after) where
  pen := .holder hh hmine
  utters := hu
  said _ := Network.said_write hw
  shut y := by
    show after.2.isShut y = _
    rw [(Network.write_callee hw).2.1]
    simp
  has hp := by
    rcases has_setHolder hh hp with ⟨rfl, rfl, hx⟩ | ⟨i, rfl, hi⟩ | ⟨⟨-, hne⟩, hp⟩
    · rw [(Network.write_callee hw).2.2.1] at hx
      exact .inl ⟨.waiting hx, fun heq => by cases heq.1⟩
    · rcases hhas hi with ⟨hold, hne⟩ | ⟨rfl, rfl, hnext⟩
      · refine .inl ⟨.holder hh hold, fun heq => hne ⟨?_, heq.2⟩⟩
        cases heq.1
        rfl
      · exact .inr ⟨rfl, rfl, hnext⟩
    · exact .inl ⟨hp, fun heq => hne _ heq.1⟩

/-! ## What each event says -/

/-- A work that writes nothing goes on with pens that follow from those there were. -/
theorem Silent.setStage {d : Dismantling} (h : E.Silent E')
    (hpens : ∀ {x p'}, (x, p') ∈ d.pens → ∃ P₀ p, E.Has P₀ x p ∧ p.Implies p') :
    E.Silent (E'.setWork t (some { W with stage := d })) :=
  h.setWork fun _ _ _ heq hp => by
    cases heq
    exact hpens hp

theorem has_of_filed (hh : E.holders[k]? = some holder)
    (hx : x ∈ holder.registry.links ∧ Pen.answered.Implies p) :
    ∃ P₀ p₀, E.Has P₀ x p₀ ∧ p₀.Implies p :=
  ⟨_, .answered, .holder hh (.filed hx.1), hx.2⟩

theorem Silent.emptied (hh : E.holders[k]? = some holder) :
    E.Silent (E.setHolder k ({ holder with registry := [] }, E.network)) :=
  .setHolder hh rfl rfl (fun _ => Nat.le_refl _) fun hp => by
    rcases hp with ⟨hi, hq⟩ | ⟨hx⟩
    · exact ⟨_, _, .holder hh (.attendant hi hq), .refl _⟩
    · cases hx

theorem Silent.released (E : Estate) (x : LinkId) :
    E.Silent { E with network := E.network.release x .callee } :=
  .of_has (Network.said_release ..) (Network.isShut_release ..) fun hp =>
    has_network (n := E.network.release x .callee) (fun _ => Nat.le_refl _) hp

/-- A new connection waits with nothing said on it. -/
theorem Silent.connected {source target : Endpoint}
    (hc : E.network.connect source target = .ok (x, n)) : E.Silent { E with network := n } where
  said := Network.view_connect_same hc rfl
  shut := Network.view_connect_same hc rfl
  has hp := by
    have hnone := Network.links_of_connect hc
    cases hp
    case waiting y hy =>
      have hy : 0 < n.waiting y := hy
      rw [Network.waiting_connect hc] at hy
      by_cases hyx : y = x
      · rw [hyx]
        exact .inr ⟨rfl, Network.view_none hnone, Network.view_none hnone⟩
      · rw [if_neg hyx] at hy
        exact .inl ⟨_, _, .waiting hy, .refl _⟩
    case holder hh hp => exact .inl ⟨_, _, .holder hh hp, .refl _⟩
    case work hW hp => exact .inl ⟨_, _, .work hW hp, .refl _⟩

theorem has_grown (hp : Has { E with works := E.works ++ [none] } P x p) : E.Has P x p := by
  cases hp
  case waiting hx => exact .waiting hx
  case holder hh hp => exact .holder hh hp
  case work t W hW hp =>
    have hW : (E.works ++ [none])[t]? = some (some W) := hW
    rcases getElem?_concat_cases hW with ⟨-, heq⟩ | hold
    · cases heq
    · exact .work hold hp

/-- A new holder has no pens. -/
theorem has_founded {s : Settings} {ℓ : ListenerId}
    (hp : Has { E with holders := E.holders ++ [Holder.found s ℓ] } P x p) : E.Has P x p := by
  cases hp
  case waiting hx => exact .waiting hx
  case holder h holder j hh hp =>
    have hh : (E.holders ++ [Holder.found s ℓ])[h]? = some holder := hh
    rcases getElem?_concat_cases hh with ⟨-, rfl⟩ | hold
    · cases hp
      case attendant hj _ => cases hj
      case filed hx => cases hx
    · exact .holder hold hp
  case work hW hp => exact .work hW hp

theorem Labour.speech {chance : Chance} (h : E.Accounted) (hW : E.works[t]? = some (some W))
    (hl : E.Labour W chance W' E') :
    E.Silent (E'.setWork t W') ∨
      ∃ x p part shuts next, E.Speaks (.work t) x p part shuts next (E'.setWork t W') := by
  cases hl
  case stuck => exact .inl ((Silent.refl E).setStage fun hp => ⟨_, _, .work hW hp, .refl _⟩)
  case drained hs hh hr =>
    exact .inl ((Silent.emptied hh).setStage fun hp =>
      has_of_filed hh (Dismantling.pens_notify hp))
  case wrote x rest queue count n hs hw =>
    have hu := @Pen.Utters.announcing (rest.take count) (rest.drop count)
    rw [List.take_append_drop] at hu
    exact .inr ⟨_, _, _, _, _, .of_write h hW hs hw hu rfl⟩
  case announced hs hw => exact .inr ⟨_, _, _, _, _, .of_write h hW hs hw .announced rfl⟩
  case cut hs hcut hn =>
    rcases hn with rfl | hw
    · exact .inr ⟨_, _, _, _, _, .of_work h hW (by rw [hs]; rfl) (by rw [hs]; rfl) rfl .cut
        (fun y => by simp) (fun y => by simp) rfl⟩
    · exact .inr ⟨_, _, _, _, _, .of_write h hW hs hw .cut rfl⟩
  case shut x queue n hs hn =>
    rcases hn with rfl | hf
    · refine .inl ((Silent.refl E).setStage fun hp => ?_)
      have hold : ∀ {z r}, (z, r) ∈ (x, Pen.told) :: Pen.ofQueue queue → E.Has (.work t) z r := by
        intro z r hmem
        exact .work hW (by rw [hs]; exact hmem)
      rcases List.mem_cons.mp hp with heq | htail
      · cases heq
        exact ⟨_, .told, hold List.mem_cons_self, fun _ _ _ => trivial⟩
      · exact ⟨_, _, hold (List.mem_cons_of_mem _ htail), .refl _⟩
    · obtain ⟨-, hsaid, hwaiting, -⟩ := Network.finish_callee hf
      exact .inr ⟨_, _, _, _, _, .of_work h hW (by rw [hs]; rfl) (by rw [hs]; rfl) rfl .shut
        (fun y => by rw [hsaid]; simp) (fun y => by rw [Network.isShut_finish hf]; simp) hwaiting⟩
  case discarded x queue hs =>
    refine .inl ((Silent.released E x).setStage fun hp => ?_)
    obtain ⟨hy, himp⟩ := Dismantling.pens_notify hp
    refine ⟨_, .answered, .work hW ?_, himp⟩
    rw [hs]
    exact List.mem_cons_of_mem _ (Pen.mem_ofQueue.mpr ⟨hy, rfl⟩)
  case stopped holder hs hh =>
    exact .inl (Silent.setStage (Silent.setHolder hh rfl rfl (fun _ => Nat.le_refl _) fun hp =>
      ⟨_, _, .holder hh (hp.congr rfl rfl), .refl _⟩) fun hp => by cases hp)
  case joined hs hh hw =>
    exact .inl ((Silent.refl E).setStage fun hp => by split at hp <;> cases hp)
  case swept hs hh hr =>
    refine .inl ((Silent.emptied hh).setStage fun hp => has_of_filed hh ?_)
    obtain ⟨hx, rfl⟩ := Dismantling.pens_clear hp
    exact ⟨hx, .refl _⟩
  case cleared x queue hs =>
    refine .inl ((Silent.released E x).setStage fun hp => ?_)
    obtain ⟨hy, rfl⟩ := Dismantling.pens_clear hp
    refine ⟨_, .answered, .work hW ?_, .refl _⟩
    rw [hs]
    exact Pen.mem_ofQueue.mpr ⟨List.mem_cons_of_mem _ hy, rfl⟩
  case abandoned holder hs hh =>
    obtain ⟨hsaid, hshut, hwaiting, -⟩ :=
      ({ holder with kept := false } : Holder).settle_ends E.network
    exact .inl (Silent.setWork (Silent.setHolder hh hsaid hshut
      (fun x => Nat.le_of_eq (congrFun hwaiting x)) fun hp =>
        ⟨_, _, .holder hh ((Holder.has_settle hp).congr rfl rfl), .refl _⟩)
      fun W₁ x p' heq _ => by cases heq)

/-- An event is silent, or a place uses the one pen for a connection. -/
theorem Moves.speech (h : E.Accounted) (hm : E.Moves stored e E') :
    E.Silent E' ∨ ∃ P x p part shuts next, E.Speaks P x p part shuts next E' := by
  cases hm
  case quiet n hn =>
    exact .inl (.of_has hn.said hn.shut fun hp =>
      has_network (fun x => Nat.le_of_eq (congrFun hn.waiting x)) hp)
  case grew => exact .inl (.of_has rfl rfl has_grown)
  case began t₀ W₀ hfree hstored hstage =>
    refine .inl ((Silent.refl E).setWork fun W₁ x p' heq hp => ?_)
    cases heq
    rw [hstage] at hp
    split at hp <;> cases hp
  case laboured hW hl =>
    rcases hl.speech h hW with hs | ⟨x, p, part, shuts, next, hs⟩
    · exact .inl hs
    · exact .inr ⟨_, x, p, part, shuts, next, hs⟩
  case founded => exact .inl (.of_has rfl rfl has_founded)
  case unbound ℓ =>
    refine .inl (.of_has (Network.view_unbind_same (fun _ => rfl) ..)
      (Network.view_unbind_same (fun _ => rfl) ..) fun hp =>
      has_network (n := E.network.unbind ℓ) (fun x => ?_) hp)
    have := Network.waiting_unbind E.network ℓ x
    omega
  case connected hc => exact .inl (.connected hc)
  case polled hh hp =>
    obtain ⟨hsaid, hshut, hwaiting, hhas⟩ := hp.speech
    refine .inl (Silent.setHolder hh hsaid hshut hwaiting fun hp => ?_)
    rcases hhas hp with hp | ⟨rfl, hx⟩
    · exact ⟨_, _, .holder hh hp, .refl _⟩
    · exact ⟨_, _, .waiting hx, .refl _⟩
  case attended hh hj ha =>
    rcases ha.speech hj with ⟨hsaid, hshut, hhas⟩ | ⟨p, part, next, hmine, hu, hw, hhas⟩
    · refine .inl (Silent.setHolder hh hsaid hshut
        (fun x => Nat.le_of_eq (congrFun ha.ends.1 x)) fun hp => ?_)
      obtain ⟨j₀, p, hp, himp⟩ := hhas hp
      exact ⟨_, p, .holder hh hp, himp⟩
    · exact .inr ⟨_, _, p, part, false, next, .setHolder hh hmine hu hw hhas⟩
  case shuffled hh hperm => exact .inl (.of_has rfl rfl fun hp => has_shuffled hh hperm hp)

/-! ## What was said -/

/-- What was said on each connection fits its pen. -/
def Answered (E : Estate) : Prop :=
  ∀ ⦃P x p⦄, E.Has P x p → p.Fits (E.network.said x) (E.network.isShut x)

theorem Answered.blank (terrain : Terrain) : (World.blank terrain).estate.Answered := by
  intro P x p hp
  cases hp
  case waiting hx => cases hx
  case holder hh _ => cases hh
  case work hW _ => cases hW

theorem Answered.moves (ha : E.Answered) (h : E.Accounted) (hm : E.Moves stored e E') :
    E'.Answered := by
  intro P x p' hp'
  rcases hm.speech h with hs | ⟨P₀, x₀, p₀, part, shuts, next, hs⟩
  · rw [hs.said, hs.shut]
    rcases hs.has hp' with ⟨P₀, p, hp, himp⟩ | ⟨rfl, hsaid, hshut⟩
    · exact himp _ _ (ha hp)
    · exact ⟨hsaid, hshut⟩
  · rw [hs.said, hs.shut]
    rcases hs.has hp' with ⟨hp, hne⟩ | ⟨rfl, rfl, rfl⟩
    · have hx : x ≠ x₀ := by
        rintro rfl
        exact hne ⟨h.place_unique hp hs.pen, rfl⟩
      rw [if_neg hx]
      simpa [hx] using ha hp
    · rw [if_pos rfl]
      simpa using hs.utters.fits (ha hs.pen)

/-- A work is at announcing the release on a connection. -/
def Announces (E : Estate) (W : Work) (x : LinkId) : Prop :=
  (∃ t : ThreadId, E.works[t]? = some (some W)) ∧ ∃ rest queue, W.stage = .notifying x rest queue

theorem Has.announcing {rest : Bytes} (hp : E.Has P x (.announcing rest)) :
    ∃ W, E.Announces W x := by
  cases hp
  case holder hh hp =>
    rcases hp with @⟨i, a, _, hi, hq⟩
    cases hs : a.stage <;> rw [hs] at hq <;> cases hq
  case work t W hW hp =>
    rcases Dismantling.pen_cases hp with ⟨rest', queue, hs, heq⟩ | heq | heq | heq <;> cases heq
    exact ⟨W, ⟨t, hW⟩, rest, queue, hs⟩

/-- What is said on a connection stays what it was, or grows: towards the answer, or by an
announcement of a work that is at this connection. -/
theorem Answered.said (ha : E.Answered) (h : E.Accounted) (hm : E.Moves stored e E')
    (x : LinkId) :
    E'.network.said x = E.network.said x ∨ E.network.said x <+: E'.network.said x ∧
      (E'.network.said x <+: Attendance.answer ∨ E'.network.said x <+: script ∧
        ∃ W, E.Announces W x) := by
  rcases hm.speech h with hs | ⟨P, x₀, p, part, shuts, next, hs⟩
  · exact .inl (by rw [hs.said])
  have hsaid := hs.said x
  by_cases hx : x = x₀
  · subst hx
    rw [if_pos rfl] at hsaid
    have hfits := ha hs.pen
    have hpen := hs.pen
    have hgrows : E.network.said x <+: E'.network.said x := ⟨part, hsaid.symm⟩
    cases hs.utters
    case answering rest =>
      exact .inr ⟨hgrows, .inl ⟨rest, by rw [hsaid, List.append_assoc]; exact hfits.1⟩⟩
    case answered => exact .inr ⟨hgrows, .inl ⟨[], by rw [hsaid, List.append_nil]; exact hfits.1⟩⟩
    case announcing rest =>
      exact .inr ⟨hgrows, .inr ⟨⟨rest, by rw [hsaid, List.append_assoc]; exact hfits.1.2⟩,
        hpen.announcing⟩⟩
    case announced =>
      exact .inr ⟨hgrows, .inr ⟨⟨[], by rw [hsaid, List.append_nil]; exact hfits.1.2⟩,
        hpen.announcing⟩⟩
    all_goals exact .inl (hsaid.trans (List.append_nil _))
  · rw [if_neg hx] at hsaid
    exact .inl hsaid

end LoopbackLock.Estate
