import LoopbackLock.Proofs.Estate.Releasing

/-!
# How long a connection stays filed

A connection is filed under the port of its peer (`Ported`). While the holder is neither given up
nor drained (`Tended`), an entry goes only when another connection is filed: if the peer has hung
up, if the ports are the same, or if the look at the connection fails (`Turns.filed`). A connection
that went is lost: whoever had it filed says nothing on it any more (`Lost.moves`).
-/

namespace LoopbackLock

namespace Holder

variable {h h' : Holder} {n n' : Network} {k : Nat} {a : Attendant} {chance : Chance}
variable {x : LinkId} {p : UInt16}

@[simp] theorem settle_kept (h : Holder) (n : Network) : (h.settle n).1.kept = h.kept := by
  obtain ⟨_, he⟩ := h.settle_eq n; rw [he]

/-- What is kept is not forsaken. -/
theorem settle_of_kept (hkept : h.kept = true) : h.settle n = (h, n) := by
  have hnot : ¬ h.isForsaken = true := by simp [isForsaken, hkept]
  exact if_neg hnot

theorem mem_enroll : (p, x) ∈ (h.enroll n a chance).1.registry ↔
    (p, x) = (a.port, a.link) ∨
      (p, x) ∈ h.registry ∧ p ≠ a.port ∧ n.looksOpen x = true ∧ chance.blinds x = false :=
  Registry.mem_insert_pruned

end Holder

namespace Estate

variable {E E' : Estate} {stored : HolderId → Prop} {h : HolderId} {holder holder' : Holder}
variable {e : Event} {x : LinkId} {p : UInt16} {k : Nat} {a : Attendant}

/-! ## Ports -/

/-- Attendants and registries have connections under the ports they come from. -/
structure Ported (E : Estate) : Prop where
  attendant : ∀ ⦃h : HolderId⦄ ⦃holder : Holder⦄, E.holders[h]? = some holder →
    ∀ a ∈ holder.attendants, E.network.portOf? a.link = some a.port
  filed : ∀ ⦃h : HolderId⦄ ⦃holder : Holder⦄, E.holders[h]? = some holder →
    ∀ p x, (p, x) ∈ holder.registry → E.network.portOf? x = some p

theorem Ported.blank (terrain : Terrain) : (World.blank terrain).estate.Ported where
  attendant h holder hh := by cases hh
  filed h holder hh := by cases hh

/-- What is filed was filed before, or comes from an attendant. -/
theorem Turns.entry_of (ht : E.Turns h holder e E' holder') (hx : (p, x) ∈ holder'.registry) :
    (p, x) ∈ holder.registry ∨ ∃ a ∈ holder.attendants, a.port = p ∧ a.link = x := by
  have hsettle : ∀ {holder₁ : Holder} {n : Network}, (p, x) ∈ (holder₁.settle n).1.registry →
      holder₁.registry = holder.registry → (p, x) ∈ holder.registry := by
    intro holder₁ n hmem hsame
    rw [← hsame]
    unfold Holder.settle at hmem
    split at hmem
    · cases hmem
    · exact hmem
  cases ht
  case emptied => cases hx
  case left => exact .inl (hsettle hx rfl)
  case polled hp =>
    cases hp
    case stopped => exact .inl (hsettle hx rfl)
    all_goals exact .inl hx
  case attended hj ha =>
    cases ha
    case admitted =>
      rcases Holder.mem_enroll.mp hx with heq | ⟨hx, -⟩
      · cases heq
        exact .inr ⟨_, List.mem_of_getElem? hj, rfl, rfl⟩
      · exact .inl hx
    case parted => exact .inl (hsettle hx rfl)
    all_goals exact .inl hx
  case shuffled hperm => exact .inl (hperm.mem_iff.mp hx)
  all_goals exact .inl hx

theorem Ported.moves (hport : E.Ported) (hacc : E.Accounted) (hm : E.Moves stored e E')
    {calls : LinkId → Prop} (hev : E.network.Evolves calls E'.network) : E'.Ported := by
  constructor
  · intro h holder' hh' a' ha'
    rcases hm.holder_of hh' with ⟨holder, hh, ht⟩ | ⟨-, s, ℓ, rfl⟩
    · rcases ht.attendant_of ha' with ⟨a, hmem, hlink, hsame⟩ | ⟨hwait, hsame⟩
      · rw [← hlink, ← hsame]
        exact hev.portOf? (hport.attendant hh a hmem)
      · -- A connection that waits is there.
        have hlt : a'.link < E.network.links.length := by
          rcases Nat.lt_or_ge a'.link E.network.links.length with hlt | hge
          · exact hlt
          · have habsent := hacc.absent a'.link hge
            omega
        have hl := List.getElem?_eq_getElem hlt
        have hp : E.network.portOf? a'.link = some a'.port := by
          unfold Network.portOf? at hsame ⊢
          rw [hsame, hl]
          rfl
        exact hev.portOf? hp
    · cases ha'
  · intro h holder' hh' p x hx
    rcases hm.holder_of hh' with ⟨holder, hh, ht⟩ | ⟨-, s, ℓ, rfl⟩
    · rcases ht.entry_of hx with hx | ⟨a, hmem, rfl, rfl⟩
      · exact hev.portOf? (hport.filed hh p x hx)
      · exact hev.portOf? (hport.attendant hh a hmem)
    · cases hx

/-! ## Holders that are tended -/

/-- The lock has not given the holder up, and no release has drained its registry. -/
structure Tended (E : Estate) (h : HolderId) : Prop where
  kept : ∀ (holder : Holder), E.holders[h]? = some holder → holder.kept = true
  undrained : ∀ (t : ThreadId) (W : Work), E.works[t]? = some (some W) → W.holder = h →
    W.orderly = true → W.stage = .draining

theorem Turns.kept (ht : E.Turns h holder e E' holder') (hkept : holder'.kept = true) :
    holder.kept = true := by
  cases ht
  case left => rw [Holder.settle_kept] at hkept; cases hkept
  case polled hp =>
    cases hp
    case stopped => rw [Holder.settle_kept] at hkept; exact hkept
    all_goals exact hkept
  case attended ha =>
    cases ha
    case parted => rw [Holder.settle_kept] at hkept; exact hkept
    all_goals exact hkept
  all_goals exact hkept

/-- A work is done only when its holder has been given up. -/
theorem Labour.given_up {chance : Chance} {W : Work} (hl : E.Labour W chance none E') :
    ∃ holder', E'.holders[W.holder]? = some holder' ∧ holder'.kept = false := by
  generalize hW' : (none : Option Work) = W' at hl
  cases hl
  case abandoned hh =>
    refine ⟨_, by rw [getElem?_setHolder hh, if_pos rfl], ?_⟩
    exact Holder.settle_kept ..
  all_goals cases hW'

/-- A holder that is tended was tended before. -/
theorem Moves.tended (hm : E.Moves stored e E') (ht : E'.Tended h) : E.Tended h := by
  constructor
  · intro holder hh
    obtain ⟨holder', hh', hturns⟩ := hm.turns hh
    exact hturns.kept (ht.kept holder' hh')
  · intro t W hW hwh hord
    refine Decidable.byContradiction fun hne => ?_
    rcases hm.work hW with hsame | ⟨chance, W', E₁, rfl, hl, rfl⟩
    · exact hne (ht.undrained t W hsame hwh hord)
    rcases W' with _ | W'
    · obtain ⟨holder', hh', hgone⟩ := hl.given_up
      rw [ht.kept holder' (hwh ▸ hh')] at hgone
      cases hgone
    · obtain ⟨hsame, hsame'⟩ := hl.same_holder
      exact (hl.onward hne).1
        (ht.undrained t W' (hl.getElem?_setWork hW) (hsame.trans hwh) (hsame'.trans hord))

/-- While a holder is tended, an entry stays unless its peer hangs up, its port is taken or the look
at its connection fails. -/
theorem Turns.filed (ht : E.Turns h holder e E' holder') (hplain : E.Plain)
    (hh' : E'.holders[h]? = some holder') (htended : E'.Tended h) (hx : (p, x) ∈ holder.registry)
    (hopen : E.network.looksOpen x = true)
    (hport : ∀ j chance a, e = .step (.attendant h j) chance → holder.attendants[j]? = some a →
      a.stage = .admitting → p ≠ a.port ∧ chance.blinds x = false) :
    (p, x) ∈ holder'.registry := by
  have hkept := htended.kept holder' hh'
  cases ht
  case emptied t W d hW hwh hs hd hnext =>
    exfalso
    have hord : W.orderly = true := by
      rcases hord : W.orderly with _ | _
      · have := hplain t W hW hord
        rcases hs with hs | hs <;> rw [hs] at this <;> simp at this
      · rfl
    exact hd (htended.undrained t _ hnext hwh hord)
  case left => rw [Holder.settle_kept] at hkept; cases hkept
  case polled hp =>
    cases hp
    case stopped =>
      rw [Holder.settle_kept] at hkept
      rw [Holder.settle_of_kept hkept]
      exact hx
    all_goals exact hx
  case attended he hj ha =>
    cases ha
    case admitted hs =>
      obtain ⟨hne, hseen⟩ := hport _ _ _ he hj hs
      exact Holder.mem_enroll.mpr (.inr ⟨hx, hne, hopen, hseen⟩)
    case parted =>
      rw [Holder.settle_kept] at hkept
      rw [Holder.settle_of_kept hkept]
      exact hx
    all_goals exact hx
  case shuffled hperm => exact hperm.mem_iff.mpr hx
  all_goals exact hx

/-! ## Connections that are lost -/

/-- Nobody has a pen for a connection that was answered. -/
structure Lost (E : Estate) (x : LinkId) : Prop where
  penless : ∀ P p, ¬ E.Has P x p
  said : E.network.said x = Attendance.answer

theorem Lost.moves (hl : E.Lost x) (hacc : E.Accounted) (hm : E.Moves stored e E') :
    E'.Lost x := by
  rcases hm.speech hacc with hs | ⟨P, x₀, p, part, shuts, next, hs⟩
  · refine ⟨fun P p hp => ?_, by rw [hs.said]; exact hl.said⟩
    rcases hs.has hp with ⟨P₀, p₀, hp₀, -⟩ | ⟨-, hsaid, -⟩
    · exact hl.penless _ _ hp₀
    · rw [hl.said] at hsaid
      cases hsaid
  · have hne : x ≠ x₀ := by
      rintro rfl
      exact hl.penless _ _ hs.pen
    refine ⟨fun P' p' hp => ?_, by rw [hs.said, if_neg hne]; exact hl.said⟩
    rcases hs.has hp with ⟨hp, -⟩ | ⟨-, heq, -⟩
    · exact hl.penless _ _ hp
    · exact hne heq

/-- A connection is lost when another one is filed under its port, and when the look at it fails
while another one is filed. -/
theorem Accounted.lost {chance : Chance} (hacc : E.Accounted) (ha : E.Answered) (hport : E.Ported)
    (hh : E.holders[h]? = some holder) (hk : holder.attendants[k]? = some a)
    (hs : a.stage = .admitting) (hx : x ∈ holder.registry.links)
    (hgoes : E.network.portOf? a.link = E.network.portOf? x ∨ chance.blinds x = true) :
    (E.setHolder h ((holder.enroll E.network a chance).1.move k (.parting 1),
      (holder.enroll E.network a chance).2)).Lost x := by
  have hfiled : E.Has (.holder h none) x .answered := .holder hh (.filed hx)
  have hmine : E.Has (.holder h (some k)) a.link .answered :=
    .holder hh (.attendant hk (by rw [hs]; rfl))
  have hne : x ≠ a.link := by
    rintro rfl
    cases hacc.place_unique hfiled hmine
  have hends := (Holder.Attended.admitted hs : holder.Attended E.network k a chance ..).ends
  constructor
  · intro P p hp
    rcases has_setHolder hh hp with ⟨-, -, hwait⟩ | ⟨j, -, hp⟩ | ⟨⟨-, hother⟩, hp⟩
    · rw [hends.1] at hwait
      cases hacc.place_unique hfiled (.waiting hwait)
    · have hatt : (holder.enroll E.network a chance).1.attendants[k]? = some a := hk
      rcases Holder.has_move hatt hp with ⟨-, hlink, -⟩ | ⟨-, hp⟩
      · exact hne hlink
      · rcases hp with @⟨i, a', q, hi, hq⟩ | ⟨hx'⟩
        · cases hacc.place_unique hfiled (.holder hh (.attendant hi hq))
        · obtain ⟨⟨p', y⟩, hmem, rfl⟩ := List.mem_map.mp hx'
          rcases Holder.mem_enroll.mp hmem with heq | ⟨hmem, hp', -, hseen⟩
          · cases heq
            exact hne rfl
          · rcases hgoes with hsame | hblind
            · -- Both entries would be filed under the port of the new one.
              have hold := hport.filed hh p' y hmem
              rw [← hsame, hport.attendant hh a (List.mem_of_getElem? hk)] at hold
              exact hp' (Option.some.inj hold).symm
            · cases hseen.symm.trans hblind
    · exact hother none (hacc.place_unique hp hfiled)
  · show (holder.enroll E.network a chance).2.said x = _
    rw [show (holder.enroll E.network a chance).2.said = E.network.said from
      (Network.said_releaseAll ..).trans (Network.said_releaseAll ..)]
    exact (ha hfiled).1

end Estate

end LoopbackLock
