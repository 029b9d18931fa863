import LoopbackLock.Proofs.Estate.Answered
import LoopbackLock.Proofs.Estate.Registrar

/-!
# A holder that is being released

From the moment a release has emptied the registry of its holder, one work deals with the holder
and no other one begins. What was drained is announced to, piece by piece; what is filed later is
swept; and nothing is announced to anybody else (`Releasing.moves`).
-/

namespace LoopbackLock

/-- The connections that a release has yet to announce itself to. -/
def Dismantling.audience : Dismantling → List LinkId
  | notifying x _ queue => x :: queue
  | shutting _ queue | discarding _ queue => queue
  | _ => []

/-- The release has emptied the registry once and not yet twice. -/
def Dismantling.isBetween : Dismantling → Bool
  | notifying .. | shutting .. | discarding .. | stopping | joining | sweeping => true
  | draining | clearing .. | abandoning => false

@[simp] theorem Dismantling.audience_notify (xs : List LinkId) : (notify xs).audience = xs := by
  cases xs <;> rfl

@[simp] theorem Dismantling.audience_clear (xs : List LinkId) : (clear xs).audience = [] := by
  cases xs <;> rfl

theorem Dismantling.isBetween_notify (xs : List LinkId) : (notify xs).isBetween = true := by
  cases xs <;> rfl

theorem Dismantling.audience_of_head {d : Dismantling} {x : LinkId} {rest : Bytes}
    {queue : List LinkId} (h : d = notifying x rest queue) : x ∈ d.audience := by
  rw [h]; exact List.mem_cons_self

/-- Who is yet to be told was answered and is not shut. -/
theorem Dismantling.pens_of_audience {d : Dismantling} {x : LinkId} (h : x ∈ d.audience) :
    (x, .answered) ∈ d.pens ∨ ∃ rest, (x, .announcing rest) ∈ d.pens := by
  cases d
  case notifying y rest queue =>
    rcases List.mem_cons.mp h with rfl | hx
    · exact .inr ⟨rest, List.mem_cons_self⟩
    · exact .inl (List.mem_cons_of_mem _ (Pen.mem_ofQueue.mpr ⟨hx, rfl⟩))
  case shutting | discarding =>
    exact .inl (List.mem_cons_of_mem _ (Pen.mem_ofQueue.mpr ⟨h, rfl⟩))
  all_goals cases h

namespace Estate

variable {E E' : Estate} {stored : HolderId → Prop} {h : HolderId} {holder holder' : Holder}
variable {e : Event} {t : ThreadId} {W : Work} {W' : Option Work} {chance : Chance} {x : LinkId}
variable {B : List LinkId} {C : LinkId → Prop}

/-- An event cuts the announcement on a connection short. -/
def Cuts (E : Estate) (e : Event) (x : LinkId) : Prop :=
  ∃ t chance W rest queue, e = .step (.thread t) chance ∧ E.works[t]? = some (some W) ∧
    W.stage = .notifying x rest queue ∧ E.network.cuts x rest chance = true

/-- Outside a list of connections, nothing but answers was said by a holder. -/
def Reticent (h : HolderId) (B : List LinkId) (E : Estate) : Prop :=
  ∀ (holder : Holder), E.holders[h]? = some holder → ∀ a ∈ holder.attendants, a.link ∉ B →
    E.network.said a.link <+: Attendance.answer

/-- A release has emptied the registry of its holder: `t` is its thread, `B` was registered, and
`C` is where announcements may be cut short. -/
structure Releasing (B : List LinkId) (C : LinkId → Prop) (h : HolderId) (t : ThreadId)
    (E : Estate) : Prop where
  sole : ∀ (t' : ThreadId) (W : Work), E.works[t']? = some (some W) → W.holder = h →
    t' = t ∧ W.stage ≠ .draining ∧ ∀ x ∈ W.stage.audience, x ∈ B
  phase : (∃ W, E.works[t]? = some (some W) ∧ W.holder = h ∧ W.orderly = true ∧
    W.stage.isBetween = true) ∨ E.Swept h
  told : ∀ x ∈ B, (∃ W, E.works[t]? = some (some W) ∧ W.holder = h ∧ x ∈ W.stage.audience) ∨
    C x ∨ E.network.said x = script
  late : E.Reticent h B

/-- The audience of a work shrinks: whoever leaves it was told, or the announcement was cut. -/
theorem Labour.audience (ha : E.Answered) (hW : E.works[t]? = some (some W))
    (hl : E.Labour W chance W' E') (hx : x ∈ W.stage.audience) :
    (∃ W₁, W' = some W₁ ∧ W₁.holder = W.holder ∧ x ∈ W₁.stage.audience) ∨
      E.Cuts (.step (.thread t) chance) x ∨ E'.network.said x = script := by
  cases hl
  case stuck => exact .inl ⟨W, rfl, rfl, hx⟩
  case wrote hs hw => rw [hs] at hx; exact .inl ⟨_, rfl, rfl, hx⟩
  case announced y rest queue n hs hw =>
    rw [hs] at hx
    rcases List.mem_cons.mp hx with rfl | hx
    · right; right
      have hfits := ha (.work (p := .announcing rest) hW (by rw [hs]; exact List.mem_cons_self))
      show n.said x = script
      rw [Network.said_write hw, if_pos rfl]
      exact hfits.1.2
    · exact .inl ⟨_, rfl, rfl, hx⟩
  case cut y rest queue n hs hcut hn =>
    rw [hs] at hx
    rcases List.mem_cons.mp hx with rfl | hx
    · exact .inr (.inl ⟨t, chance, W, rest, queue, rfl, hW, hs, hcut⟩)
    · exact .inl ⟨_, rfl, rfl, hx⟩
  case shut hs hn => rw [hs] at hx; exact .inl ⟨_, rfl, rfl, hx⟩
  case discarded hs =>
    rw [hs] at hx
    exact .inl ⟨_, rfl, rfl, by rw [Dismantling.audience_notify]; exact hx⟩
  case drained hs _ _ => rw [hs] at hx; cases hx
  case stopped hs _ => rw [hs] at hx; cases hx
  case joined hs _ _ => rw [hs] at hx; cases hx
  case swept hs _ _ => rw [hs] at hx; cases hx
  case cleared hs => rw [hs] at hx; cases hx
  case abandoned hs _ => rw [hs] at hx; cases hx

/-- A work that goes on has drained its holder before, and its audience is what was left of it. -/
theorem Labour.onward {W' : Work} (hl : E.Labour W chance (some W') E')
    (hs : W.stage ≠ .draining) :
    W'.stage ≠ .draining ∧ ∀ x ∈ W'.stage.audience, x ∈ W.stage.audience := by
  generalize hW' : some W' = W₁ at hl
  cases hl
  case stuck => cases hW'; exact ⟨hs, fun _ hx => hx⟩
  case drained hd _ _ => exact absurd hd hs
  case wrote hd _ => cases hW'; rw [hd]; exact ⟨by simp, fun _ hx => hx⟩
  case announced hd _ => cases hW'; rw [hd]; exact ⟨by simp, fun _ hx => List.mem_cons_of_mem _ hx⟩
  case cut hd _ _ => cases hW'; rw [hd]; exact ⟨by simp, fun _ hx => List.mem_cons_of_mem _ hx⟩
  case shut hd _ => cases hW'; rw [hd]; exact ⟨by simp, fun _ hx => hx⟩
  case discarded hd =>
    cases hW'
    rw [hd]
    exact ⟨Dismantling.notify_ne_draining _, fun x hx => by
      rwa [Dismantling.audience_notify] at hx⟩
  case stopped hd _ => cases hW'; exact ⟨by simp, fun _ hx => by cases hx⟩
  case joined hd _ _ =>
    cases hW'
    constructor
    · split <;> simp
    · intro x hx
      split at hx <;> cases hx
  case swept => cases hW'; exact ⟨Dismantling.clear_ne_draining _, fun x hx => by simp at hx⟩
  case cleared => cases hW'; exact ⟨Dismantling.clear_ne_draining _, fun x hx => by simp at hx⟩
  case abandoned => cases hW'

/-- A release that has drained goes on until it has swept. -/
theorem Labour.between (hr : E.Registered) (hstop : E.Stopped) (hW : E.works[t]? = some (some W))
    (hl : E.Labour W chance W' E') (hord : W.orderly = true) (hb : W.stage.isBetween = true) :
    (∃ W₁, W' = some W₁ ∧ W₁.holder = W.holder ∧ W₁.orderly = true ∧
      W₁.stage.isBetween = true) ∨ E'.Swept W.holder := by
  cases hl
  case stuck => exact .inl ⟨W, rfl, rfl, hord, hb⟩
  case drained hs _ _ => rw [hs] at hb; cases hb
  case wrote => exact .inl ⟨_, rfl, rfl, hord, rfl⟩
  case announced => exact .inl ⟨_, rfl, rfl, hord, rfl⟩
  case cut => exact .inl ⟨_, rfl, rfl, hord, rfl⟩
  case shut => exact .inl ⟨_, rfl, rfl, hord, rfl⟩
  case discarded => exact .inl ⟨_, rfl, rfl, hord, Dismantling.isBetween_notify _⟩
  case stopped => exact .inl ⟨_, rfl, rfl, hord, rfl⟩
  case joined =>
    exact .inl ⟨_, rfl, rfl, hord, by rw [hord]; rfl⟩
  case swept holder hs hh hfree =>
    -- Nobody has the registry locked, so nobody is about to file a connection.
    right
    obtain ⟨holder₁, hh₁, hst⟩ := hstop t W hW (.inr hs)
    obtain rfl := Option.some.inj (hh₁.symm.trans hh)
    refine ⟨{ holder₁ with registry := [] }, ?_, hst, rfl, fun a hmem hadm => ?_⟩
    · rw [getElem?_setHolder hh, if_pos rfl]
    · obtain ⟨j, hj⟩ := List.getElem?_of_mem hmem
      have hmine := hr W.holder holder₁ hh j a hj (Attendance.isRegistrar_of_admitting hadm)
      cases hfree.symm.trans hmine
  case cleared hs => rw [hs] at hb; cases hb
  case abandoned hs _ => rw [hs] at hb; cases hb

theorem came_of_attendant {a : Attendant} (hh : E.holders[h]? = some holder)
    (ha : a ∈ holder.attendants) : 0 < E.measure (Holder.came a.link) h := by
  obtain ⟨j, hj⟩ := List.getElem?_of_mem ha
  have hle := le_total (f := Attendant.came a.link) hj
  rw [Attendant.came_self] at hle
  rw [measure_some hh]
  exact hle

/-- Only one attendant has ever been at a connection. -/
theorem Accounted.attendant_unique {h' : HolderId} {k k' : Nat} {a a' : Attendant}
    (hacc : E.Accounted) (hh : E.holders[h]? = some holder) (hk : holder.attendants[k]? = some a)
    (hh' : E.holders[h']? = some holder') (hk' : holder'.attendants[k']? = some a')
    (hlink : a'.link = a.link) : h' = h ∧ k' = k := by
  have hcame' := came_of_attendant hh' (List.mem_of_getElem? hk')
  rw [hlink] at hcame'
  obtain rfl := hacc.home_unique hcame' (came_of_attendant hh (List.mem_of_getElem? hk))
  obtain rfl := Option.some.inj (hh.symm.trans hh')
  refine ⟨rfl, Decidable.byContradiction fun hne => ?_⟩
  have hpair := pair_le_total (f := Attendant.came a.link) hk' hk hne
  have hone : Attendant.came a.link a' = 1 := by rw [← hlink]; exact Attendant.came_self
  rw [hone, Attendant.came_self] at hpair
  have hle := measure_le_total (Holder.came a.link) E h'
  have harrival := hacc.arrival a.link
  rw [measure_some hh] at hle
  unfold came at harrival
  unfold Holder.came at hle harrival
  omega

/-- A work that announces on a connection of a holder is one for this holder. -/
theorem Accounted.holder_of_announces {a : Attendant} (hacc : E.Accounted)
    (hh : E.holders[h]? = some holder) (ha : a ∈ holder.attendants)
    (hann : E.Announces W a.link) : W.holder = h := by
  obtain ⟨⟨t, hW⟩, rest, queue, hs⟩ := hann
  refine hacc.home_unique (hacc.came_of_pens (pens_pos_of_work (p := .announcing rest) hW ?_))
    (came_of_attendant hh ha)
  rw [hs]
  exact List.mem_cons_self

/-- A holder stays reticent while no work announces a release to others. -/
theorem Reticent.moves (hret : E.Reticent h B) (hacc : E.Accounted) (ha : E.Answered)
    (hm : E.Moves stored e E')
    (hown : ∀ {W x}, E.Announces W x → W.holder = h → x ∈ B) : E'.Reticent h B := by
  intro holder' hh' a' ha' hB
  rcases hm.holder_of hh' with ⟨holder, hh, ht⟩ | ⟨-, s, ℓ, rfl⟩
  · rcases ht.attendant_of ha' with ⟨a, hmem, hlink, -⟩ | ⟨hwait, -⟩
    · rw [← hlink] at hB ⊢
      rcases ha.said hacc hm a.link with hsame | ⟨-, hans | ⟨-, W, hann⟩⟩
      · rw [hsame]
        exact hret holder hh a hmem hB
      · exact hans
      · exact absurd (hown hann (hacc.holder_of_announces hh hmem hann)) hB
    · have hfresh := ha (.waiting hwait)
      rcases ha.said hacc hm a'.link with hsame | ⟨-, hans | ⟨-, W, hann⟩⟩
      · rw [hsame, hfresh.1]
        exact List.nil_prefix
      · exact hans
      · obtain ⟨⟨t, hW⟩, rest, queue, hs⟩ := hann
        have hplace := hacc.place_unique (.waiting hwait)
          (.work (p := .announcing rest) hW (by rw [hs]; exact List.mem_cons_self))
        cases hplace
  · cases ha'

theorem script_not_prefix : ¬ script <+: Attendance.answer := by
  intro h
  have hle := h.length_le
  have hlonger : Attendance.answer.length < script.length := by decide
  omega

/-- What was said in full stays so. -/
theorem Answered.full (ha : E.Answered) (hacc : E.Accounted) (hm : E.Moves stored e E')
    (hx : E.network.said x = script) : E'.network.said x = script := by
  rcases ha.said hacc hm x with hsame | ⟨hgrows, hans | ⟨hspeech, -⟩⟩
  · rw [hsame, hx]
  · rw [hx] at hgrows
    exact absurd (hgrows.trans hans) script_not_prefix
  · rw [hx] at hgrows
    exact hspeech.eq_of_length (Nat.le_antisymm hspeech.length_le hgrows.length_le)

/-! ## From the first emptying on -/

theorem Releasing.start (hW : E.works[t]? = some (some W)) (hwh : W.holder = h)
    (hord : W.orderly = true) (hh : E.holders[h]? = some holder)
    (hsole : ∀ (t' : ThreadId) (W : Work), E.works[t']? = some (some W) → W.holder = h → t' = t)
    (hret : E.Reticent h []) :
    ((E.setHolder h ({ holder with registry := [] }, E.network)).setWork t
      (some { W with stage := .notify holder.registry.links })).Releasing
      holder.registry.links C h t := by
  have hmine : (E.works.set t (some { W with stage := .notify holder.registry.links }))[t]? =
      some (some { W with stage := .notify holder.registry.links }) :=
    List.getElem?_set_self (List.getElem?_eq_some_iff.mp hW).1
  constructor
  · intro t' W' hW' hwh'
    have hW' : (E.works.set t _)[t']? = some (some W') := hW'
    rcases getElem?_set_cases hW' with ⟨rfl, heq⟩ | ⟨hne, hold⟩
    · cases heq
      exact ⟨rfl, Dismantling.notify_ne_draining _, fun x hx => by
        rwa [Dismantling.audience_notify] at hx⟩
    · exact absurd (hsole t' W' hold hwh') (Ne.symm hne)
  · exact .inl ⟨_, hmine, hwh, hord, Dismantling.isBetween_notify _⟩
  · intro x hx
    exact .inl ⟨_, hmine, hwh, by rw [Dismantling.audience_notify]; exact hx⟩
  · intro holder' hh' a ha _
    have hh' : (E.setHolder h ({ holder with registry := [] }, E.network)).holders[h]? =
      some holder' := hh'
    rw [getElem?_setHolder hh, if_pos rfl] at hh'
    cases hh'
    exact hret holder hh a ha (by simp)

theorem Releasing.moves (hrel : E.Releasing B C h t) (hacc : E.Accounted) (ha : E.Answered)
    (hr : E.Registered) (hstop : E.Stopped) (hm : E.Moves stored e E') (hstored : ¬ stored h)
    (hcut : ∀ x, E.Cuts e x → C x) : E'.Releasing B C h t := by
  constructor
  · intro t' W' hW' hwh
    obtain ⟨W₀, hW₀, hworks⟩ := hm.works hW'
    cases hworks
    case same => exact hrel.sole t' W' hW₀ hwh
    case began hst _ => exact absurd (hwh ▸ hst) hstored
    case laboured chance W E₁ he hl hE =>
      obtain ⟨htt, hs, hB⟩ := hrel.sole t' W hW₀ (hl.same_holder.1.symm.trans hwh)
      obtain ⟨hs', haud⟩ := hl.onward hs
      exact ⟨htt, hs', fun x hx => hB x (haud x hx)⟩
  · rcases hrel.phase with ⟨W, hW, hwh, hord, hb⟩ | hsw
    · rcases hm.work hW with hsame | ⟨chance, W', E₁, -, hl, rfl⟩
      · exact .inl ⟨W, hsame, hwh, hord, hb⟩
      · rcases hl.between hr hstop hW hord hb with ⟨W₁, rfl, hwh₁, hord₁, hb₁⟩ | hsw
        · exact .inl ⟨W₁, hl.getElem?_setWork hW, hwh₁.trans hwh, hord₁, hb₁⟩
        · exact .inr (hwh ▸ hsw)
    · exact .inr (hsw.moves hm)
  · intro x hx
    rcases hrel.told x hx with ⟨W, hW, hwh, haud⟩ | hC | hfull
    · rcases hm.work hW with hsame | ⟨chance, W', E₁, rfl, hl, rfl⟩
      · exact .inl ⟨W, hsame, hwh, haud⟩
      · rcases hl.audience ha hW haud with ⟨W₁, rfl, hwh₁, haud₁⟩ | hcuts | hfull
        · exact .inl ⟨W₁, hl.getElem?_setWork hW, hwh₁.trans hwh, haud₁⟩
        · exact .inr (.inl (hcut x hcuts))
        · exact .inr (.inr hfull)
    · exact .inr (.inl hC)
    · exact .inr (.inr (ha.full hacc hm hfull))
  · refine hrel.late.moves hacc ha hm fun hann hwh => ?_
    obtain ⟨⟨t', hW⟩, rest, queue, hs⟩ := hann
    exact (hrel.sole t' _ hW hwh).2.2 _ (Dismantling.audience_of_head hs)

/-- Who was drained is shut or given up only once the announcement is complete, or was cut. -/
theorem Releasing.announced (hrel : E.Releasing B C h t) (hacc : E.Accounted) (ha : E.Answered)
    (hx : x ∈ B) (hover : E.network.isShut x = true ∨ E.network.handles x = 0) :
    C x ∨ E.network.said x = script := by
  rcases hrel.told x hx with ⟨W, hW, -, haud⟩ | hdone
  · exfalso
    have hpen : ∃ p, (x, p) ∈ W.stage.pens ∧ ∀ s b, p.Fits s b → b = false := by
      rcases Dismantling.pens_of_audience haud with hp | ⟨rest, hp⟩
      · exact ⟨_, hp, fun _ _ hfits => hfits.2⟩
      · exact ⟨_, hp, fun _ _ hfits => hfits.2⟩
    obtain ⟨p, hp, hopen⟩ := hpen
    rcases hover with hshut | hclosed
    · rw [hopen _ _ (ha (.work hW hp))] at hshut
      cases hshut
    · have hown := le_total (f := Work.owns x) hW
      have hpos : 0 < Work.owns x (some W) :=
        List.count_pos_iff.mpr (Dismantling.mem_links_of_pens hp)
      have hhandles := hacc.handles x
      unfold owners at hhandles
      omega
  · exact hdone

/-- The handles of an accepted connection are with its attendant, the registry, and works. -/
theorem Accounted.handles_of_attendant {a : Attendant} (hacc : E.Accounted)
    (hh : E.holders[h]? = some holder) (ha : a ∈ holder.attendants) :
    E.network.handles a.link = a.stage.handles + holder.registry.links.count a.link +
      total (Work.owns a.link) E.works := by
  obtain ⟨j, hj⟩ := List.getElem?_of_mem ha
  have hcame := came_of_attendant hh ha
  rw [measure_some hh] at hcame
  have harrival := hacc.arrival a.link
  have hle := le_total (f := Holder.came a.link) hh
  unfold came at harrival
  have hothers : total (Holder.owns a.link) E.holders = holder.owns a.link := by
    refine total_eq_single hh fun k holder' hne hk => ?_
    have hpair := pair_le_total (f := Holder.came a.link) hh hk (Ne.symm hne)
    have hpen := hacc.pen k a.link
    rw [measure_some hk, pens_of_holder hk] at hpen
    have hattendants : total (Attendant.owns a.link) holder'.attendants = 0 := by
      refine total_eq_zero fun a' ha' => Attendant.owns_of_ne fun hlink => ?_
      have hcame' := came_of_attendant hk ha'
      rw [measure_some hk, hlink] at hcame'
      omega
    unfold Holder.pens at hpen
    unfold Holder.owns
    omega
  have hmine : total (Attendant.owns a.link) holder.attendants = a.stage.handles := by
    refine (total_eq_single hj fun i a' hne hi => Attendant.owns_of_ne fun hlink => ?_).trans
      Attendant.owns_self
    have hpair := pair_le_total (f := Attendant.came a.link) hj hi (Ne.symm hne)
    have hother : Attendant.came a.link a' = 1 := by rw [← hlink]; exact Attendant.came_self
    rw [Attendant.came_self, hother] at hpair
    have hsum : holder.came a.link = total (Attendant.came a.link) holder.attendants := rfl
    omega
  rw [hacc.handles]
  unfold owners
  rw [hothers]
  unfold Holder.owns
  omega

/-- Where no work deals with a holder and nothing is registered with it, each connection is with its
attendant alone. -/
theorem Accounted.owned_of_idle {a : Attendant} (hacc : E.Accounted)
    (hidle : ∀ (t : ThreadId) (W : Work), E.works[t]? = some (some W) → W.holder ≠ h)
    (hh : E.holders[h]? = some holder) (hempty : holder.registry = []) (ha : a ∈ holder.attendants) :
    E.network.handles a.link = a.stage.handles := by
  rw [hacc.handles_of_attendant hh ha, hempty]
  have hworks : total (Work.owns a.link) E.works = 0 := by
    refine total_eq_zero fun work hmem => ?_
    rcases work with _ | W
    · rfl
    obtain ⟨t', hW⟩ := List.getElem?_of_mem hmem
    refine List.count_eq_zero.mpr fun hx => ?_
    have hpos : 0 < Work.owns a.link (some W) := List.count_pos_iff.mpr hx
    have hpens := owns_le_pens hW a.link
    exact hidle t' W hW (hacc.home_unique (hacc.came_of_pens (k := W.holder) (by omega))
      (came_of_attendant hh ha))
  rw [hworks]
  rfl

/-- Once the release is over, each connection is with its attendant alone. -/
theorem Releasing.owned {a : Attendant} (hrel : E.Releasing B C h t) (hacc : E.Accounted)
    (hover : ∀ W, E.works[t]? = some (some W) → W.holder ≠ h) (hh : E.holders[h]? = some holder)
    (hempty : holder.registry = []) (ha : a ∈ holder.attendants) :
    E.network.handles a.link = a.stage.handles := by
  refine hacc.owned_of_idle (fun t' W hW hhome => ?_) hh hempty ha
  obtain ⟨rfl, -, -⟩ := hrel.sole t' W hW hhome
  exact hover W hW hhome

end Estate

end LoopbackLock
