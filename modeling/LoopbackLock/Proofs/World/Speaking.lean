import LoopbackLock.Proofs.World.Attending
import LoopbackLock.Proofs.World.Wholeness

/-!
# Who speaks on a connection

The called end of a connection says something only with a step of its attendant, which is at its
answer, or with a step of a release that announces itself there (`Answered.speaker`). Unless a write
was cut short, nothing, the answer, or the answer with the announcement has been said, or somebody
is at it (`worded_of_run`). A release announces itself where the registry had the connection when
the release emptied it (`drained_of_run`).
-/

namespace LoopbackLock

theorem Dismantling.links_of_audience {d : Dismantling} {x : LinkId} (h : x ∈ d.audience) :
    x ∈ d.links := by
  rcases pens_of_audience h with hp | ⟨_, hp⟩ <;> exact mem_links_of_pens hp

namespace Estate

variable {E E' : Estate} {stored : HolderId → Prop} {e : Event} {h : HolderId} {k : Nat}
  {x : LinkId} {rest : Bytes} {W : Work} {t : ThreadId} {chance : Chance} {queue : List LinkId}

/-- Nobody else moves an attendant that is at its answer. -/
theorem Answers.stays (hans : E.Answers h k x rest) (hm : E.Moves stored e E')
    (hne : ∀ chance, e ≠ .step (.attendant h k) chance) : E'.Answers h k x rest := by
  obtain ⟨holder, a, hh, hk, hlink, hs⟩ := hans
  obtain ⟨holder', hh', ht⟩ := hm.turns hh
  exact ⟨holder', a, hh', ht.attendant_stays hk hne, hlink, hs⟩

/-- A connection is not answered and announced to at once. -/
theorem Answers.unannounced (hans : E.Answers h k x rest) (hacc : E.Accounted) :
    ¬ E.Announces W x := by
  rintro ⟨⟨t, hW⟩, rest', queue, hs⟩
  cases hacc.place_unique hans.has
    (.work (p := .announcing rest') hW (by rw [hs]; exact List.mem_cons_self))

/-- On a connection that is being answered only its attendant says something. -/
theorem Answered.said_of_answering {P : Place} (ha : E.Answered) (hacc : E.Accounted)
    (hm : E.Moves stored e E') (hp : E.Has P x (.answering rest)) :
    E'.network.said x = E.network.said x ∨ ∃ h k chance rest,
      e = .step (.attendant h k) chance ∧ E.Answers h k x rest ∧
        E'.network.said x <+: Attendance.answer := by
  obtain ⟨h, k, hans⟩ := hp.answering
  by_cases hmine : ∃ chance, e = .step (.attendant h k) chance
  · obtain ⟨chance, rfl⟩ := hmine
    rcases ha.said hacc hm x with hsame | ⟨-, hshort | ⟨-, W, hann⟩⟩
    · exact .inl hsame
    · exact .inr ⟨h, k, chance, rest, rfl, hans, hshort⟩
    · exact absurd hann (hans.unannounced hacc)
  · -- What is left to be said is the same, and so what was said is.
    have hstays := hans.stays hm fun chance heq => hmine ⟨chance, heq⟩
    exact .inl (List.append_cancel_right
      (((ha.moves hacc hm) hstays.has).1.trans (ha hans.has).1.symm))

/-- On a connection that is being announced to only the release that does so says something. -/
theorem Answered.said_of_announcing {P : Place} (ha : E.Answered) (hacc : E.Accounted)
    (hm : E.Moves stored e E') (hp : E.Has P x (.announcing rest)) :
    E'.network.said x = E.network.said x ∨ ∃ t chance W rest queue,
      e = .step (.thread t) chance ∧ E.works[t]? = some (some W) ∧
      W.stage = .notifying x rest queue ∧ Attendance.answer <+: E.network.said x ∧
      E'.network.said x <+: script := by
  obtain ⟨W, ⟨t, hW⟩, rest', queue, hstage⟩ := hp.announcing
  have hhas : ∀ {E₁ : Estate}, E₁.works[t]? = some (some W) →
      E₁.Has (.work t) x (.announcing rest') :=
    fun hW => .work hW (by rw [hstage]; exact List.mem_cons_self)
  have hfits := (ha (hhas hW)).1
  rcases hm.work hW with hsame | ⟨chance, W', E₁, rfl, -, -⟩
  · have hfits' := ((ha.moves hacc hm) (hhas hsame)).1
    exact .inl (List.append_cancel_right (hfits'.2.trans hfits.2.symm))
  · refine .inr ⟨t, chance, W, rest', queue, rfl, hW, hstage, hfits.1, ?_⟩
    rcases ha.said hacc hm x with hsame | ⟨-, hshort | ⟨hscript, -⟩⟩
    · rw [hsame]
      exact ⟨rest', hfits.2⟩
    · exact hshort.trans (List.prefix_append ..)
    · exact hscript

/-- Something is said on a connection by its attendant, which is at the answer, or by a work that is
announcing a release there. -/
theorem Answered.speaker (ha : E.Answered) (hacc : E.Accounted) (hm : E.Moves stored e E')
    (x : LinkId) :
    E'.network.said x = E.network.said x ∨
    (∃ h k chance rest, e = .step (.attendant h k) chance ∧ E.Answers h k x rest ∧
      E'.network.said x <+: Attendance.answer) ∨
    ∃ t chance W rest queue, e = .step (.thread t) chance ∧ E.works[t]? = some (some W) ∧
      W.stage = .notifying x rest queue ∧ Attendance.answer <+: E.network.said x ∧
      E'.network.said x <+: script := by
  rcases hm.speech hacc with hs | ⟨P, x₀, p, part, shuts, next, hs⟩
  · exact .inl (by rw [hs.said])
  by_cases hx : x = x₀
  case neg => exact .inl (by rw [hs.said, if_neg hx])
  subst hx
  have hpen := hs.pen
  have hquiet : part = [] → E'.network.said x = E.network.said x := by
    rintro rfl
    rw [hs.said, if_pos rfl, List.append_nil]
  cases hs.utters
  case answering | answered | muted => exact (ha.said_of_answering hacc hm hpen).imp_right .inl
  case announcing | announced | cut => exact (ha.said_of_announcing hacc hm hpen).imp_right .inr
  case shut => exact .inl (hquiet rfl)

/-- Nothing, the answer, or the answer with the announcement has been said on a connection, or
somebody is at it. -/
def Worded (E : Estate) (x : LinkId) : Prop :=
  E.network.said x = [] ∨ E.network.said x = Attendance.answer ∨ E.network.said x = script ∨
    (∃ h k rest, E.Answers h k x rest) ∨ ∃ W, E.Announces W x

/-- A work that is at an announcement goes on with it, completes it, or the write is cut short. -/
theorem Labour.worded {W' : Option Work} (ha : E.Answered) (hW : E.works[t]? = some (some W))
    (hl : E.Labour W chance W' E') (hs : W.stage = .notifying x rest queue) :
    (∃ W₁ rest queue, W' = some W₁ ∧ W₁.stage = .notifying x rest queue) ∨
      E'.network.said x = script ∨ E.network.cuts x rest chance = true := by
  cases hl
  case stuck => exact .inl ⟨W, rest, queue, rfl, hs⟩
  case wrote hs' _ =>
    rw [hs] at hs'
    cases hs'
    exact .inl ⟨_, _, _, rfl, rfl⟩
  case announced n hs' hw =>
    rw [hs] at hs'
    cases hs'
    right; left
    have hfits := ha (.work (p := .announcing rest) hW (by rw [hs]; exact List.mem_cons_self))
    show n.said x = script
    rw [Network.said_write hw, if_pos rfl]
    exact hfits.1.2
  case cut hs' hcut _ =>
    rw [hs] at hs'
    cases hs'
    exact .inr (.inr hcut)
  case drained hs' _ _ | swept hs' _ _ | joined hs' _ _ => rw [hs] at hs'; cases hs'
  case shut hs' _ | stopped hs' _ | abandoned hs' _ => rw [hs] at hs'; cases hs'
  case discarded hs' | cleared hs' => rw [hs] at hs'; cases hs'

/-- What a work has taken out of a registry it had before, or has just taken. -/
theorem Labour.links_of {W' : Work} (hl : E.Labour W chance (some W') E')
    (hx : x ∈ W'.stage.links) : x ∈ W.stage.links ∨
      ∃ holder, E.holders[W.holder]? = some holder ∧ x ∈ holder.registry.links := by
  generalize hW' : some W' = W₁ at hl
  cases hl
  case stuck => cases hW'; exact .inl hx
  case drained holder _ hh _ =>
    cases hW'
    rw [Dismantling.links_notify] at hx
    exact .inr ⟨holder, hh, hx⟩
  case wrote hd _ | announced hd _ | shut hd _ => cases hW'; rw [hd]; exact .inl hx
  case cut hd _ _ => cases hW'; rw [hd]; exact .inl hx
  case discarded hd =>
    cases hW'
    rw [Dismantling.links_notify] at hx
    rw [hd]
    exact .inl (List.mem_cons_of_mem _ hx)
  case stopped => cases hW'; cases hx
  case joined => cases hW'; dsimp only at hx; split at hx <;> cases hx
  case swept holder _ hh _ =>
    cases hW'
    rw [Dismantling.links_clear] at hx
    exact .inr ⟨holder, hh, hx⟩
  case cleared hd =>
    cases hW'
    rw [Dismantling.links_clear] at hx
    rw [hd]
    exact .inl (List.mem_cons_of_mem _ hx)
  case abandoned => cases hW'

/-- What works have taken out of registries was answered. -/
def Entrusted (E : Estate) : Prop :=
  ∀ (t : ThreadId) (W : Work), E.works[t]? = some (some W) → ∀ x ∈ W.stage.links,
    Attendance.answer <+: E.network.said x

theorem Entrusted.blank (terrain : Terrain) : (World.blank terrain).estate.Entrusted :=
  fun _ _ hW => nomatch hW

theorem Entrusted.moves (hent : E.Entrusted) (ha : E.Answered) (hacc : E.Accounted)
    (hm : E.Moves stored e E') : E'.Entrusted := by
  intro t W' hW' x hx
  suffices hold : Attendance.answer <+: E.network.said x by
    rcases ha.said hacc hm x with hsame | ⟨hgrows, -⟩
    · rwa [hsame]
    · exact hold.trans hgrows
  obtain ⟨W, hW, hworks⟩ := hm.works hW'
  cases hworks
  case same => exact hent t W' hW x hx
  case began hstage =>
    rw [hstage] at hx
    split at hx <;> cases hx
  case laboured hl _ =>
    rcases hl.links_of hx with hx | ⟨holder, hh, hx⟩
    · exact hent t _ hW x hx
    · have hsaid : E.network.said x = Attendance.answer := (ha (.holder hh (.filed hx))).1
      exact ⟨[], by rw [hsaid, List.append_nil]⟩

end Estate

namespace World

variable {w w' w₀ : World} {e : Event} {es : List Event} {h : HolderId} {k : Nat} {x : LinkId}
  {t : ThreadId} {chance : Chance} {rest : Bytes}

/-- The system cuts an answer or an announcement on a connection short. -/
def CutsShort (x : LinkId) (w : World) (e : Event) : Prop :=
  w.isCut x e = true ∨ ∃ h k chance rest, e = .step (.attendant h k) chance ∧
    w.estate.Answers h k x rest ∧ w.network.cuts x rest chance = true

/-- A work that announces is a call that releases its lock. -/
theorem Regular.releasing_of_work {W : Work} (hw : w.Regular)
    (hW : w.estate.works[t]? = some (some W)) (hs : W.stage = .draining ∨
      ∃ x rest queue, W.stage = .notifying x rest queue) :
    ∃ i, w.threads[t]? = some (.busy i (.dismantling W.holder W.stage)) := by
  rcases keeper_of_work hw.orderly hW with ⟨-, i, hcall⟩ | ⟨hdrop, -⟩
  · exact ⟨i, callOn_eq_some.mp hcall⟩
  · have hplain := hw.plain t W hW hdrop
    rcases hs with hs | ⟨x, rest, queue, hs⟩ <;> rw [hs] at hplain <;> simp at hplain

/-- An answer goes on, is completed, or its write is cut short. -/
theorem Regular.worded_of_answer (hw : w.Regular)
    (he : w.happen? (.step (.attendant h k) chance) = some w') (hans : w.estate.Answers h k x rest)
    (hcut : w.network.cuts x rest chance = false) : w'.estate.Worded x := by
  have hm := hw.moves (happened_of_happen? he)
  have huncut : w.cutsAnswer (.step (.attendant h k) chance) = false := by
    obtain ⟨holder, a, hh, hk, rfl, hs⟩ := hans
    have hh : w.holders[h]? = some holder := hh
    simp [cutsAnswer, hh, hk, hs, hcut]
  rcases hw.whole_step he hans huncut with hnone | hall | ⟨rest', hgoes⟩
  · exact .inl hnone
  · have hshort : w'.network.said x <+: Attendance.answer := by
      rcases hw.answered.said hw.accounted hm x with hsame | ⟨-, hshort | ⟨-, W, hann⟩⟩
      · have hsame : w'.network.said x = w.network.said x := hsame
        rw [hsame]
        exact ⟨rest, (hw.answered hans.has).1⟩
      · exact hshort
      · exact absurd hann (hans.unannounced hw.accounted)
    exact .inr (.inl (hall.eq_of_length (Nat.le_antisymm hall.length_le hshort.length_le)).symm)
  · exact .inr (.inr (.inr (.inl ⟨h, k, rest', hgoes⟩)))

/-- An announcement goes on, is completed, or its write is cut short. -/
theorem Regular.worded_of_announcement {W : Work} {queue : List LinkId} (hw : w.Regular)
    (he : w.happen? (.step (.thread t) chance) = some w')
    (hW : w.estate.works[t]? = some (some W)) (hs : W.stage = .notifying x rest queue)
    (hcut : ¬ w.network.cuts x rest chance = true) : w'.estate.Worded x := by
  rcases (hw.moves (happened_of_happen? he)).work hW with hsame | ⟨chance', W', E₁, heq, hl, hE⟩
  · exact .inr (.inr (.inr (.inr ⟨W, ⟨t, hsame⟩, rest, queue, hs⟩)))
  cases heq
  rcases hl.worded hw.answered hW hs with ⟨W₁, rest', queue', rfl, hs'⟩ | hfull | hcuts
  · refine .inr (.inr (.inr (.inr ⟨W₁, ⟨t, ?_⟩, rest', queue', hs'⟩)))
    rw [hE]
    exact hl.getElem?_setWork hW
  · refine .inr (.inr (.inl ?_))
    rw [hE]
    exact hfull
  · exact absurd hcuts hcut

theorem Regular.worded (hw : w.Regular) (he : w.happen? e = some w') (hx : w.estate.Worded x)
    (hcut : ¬ w.CutsShort x e) : w'.estate.Worded x := by
  have hm := hw.moves (happened_of_happen? he)
  by_cases hans : ∃ h k chance rest, e = .step (.attendant h k) chance ∧ w.estate.Answers h k x rest
  · obtain ⟨h, k, chance, rest, rfl, hans⟩ := hans
    refine hw.worded_of_answer he hans (Bool.eq_false_iff.mpr fun hcuts => hcut ?_)
    exact .inr ⟨h, k, chance, rest, rfl, hans, hcuts⟩
  by_cases hann : ∃ t chance W rest queue, e = .step (.thread t) chance ∧
      w.estate.works[t]? = some (some W) ∧ W.stage = .notifying x rest queue
  · obtain ⟨t, chance, W, rest, queue, rfl, hW, hs⟩ := hann
    refine hw.worded_of_announcement he hW hs fun hcuts => hcut ?_
    exact .inl (hw.isCut_of_cuts ⟨t, chance, W, rest, queue, rfl, hW, hs, hcuts⟩)
  -- Nobody speaks on the connection, and who is at it stays there.
  have hsame : w'.network.said x = w.network.said x := by
    rcases hw.answered.speaker hw.accounted hm x with hsame | ⟨h, k, chance, rest, he, hmine, -⟩ |
      ⟨t, chance, W, rest, queue, he, hW, hs, -⟩
    · exact hsame
    · exact absurd ⟨h, k, chance, rest, he, hmine⟩ hans
    · exact absurd ⟨t, chance, W, rest, queue, he, hW, hs⟩ hann
  rcases hx with hnone | hall | hfull | ⟨h, k, rest, hmine⟩ | ⟨W, ⟨t, hW⟩, rest, queue, hs⟩
  · exact .inl (hsame.trans hnone)
  · exact .inr (.inl (hsame.trans hall))
  · exact .inr (.inr (.inl (hsame.trans hfull)))
  · exact .inr (.inr (.inr (.inl ⟨h, k, rest, hmine.stays hm fun chance heq =>
      hans ⟨h, k, chance, rest, heq, hmine⟩⟩)))
  · rcases hm.work hW with hstays | ⟨chance, W', E₁, heq, -, -⟩
    · exact .inr (.inr (.inr (.inr ⟨W, ⟨t, hstays⟩, rest, queue, hs⟩)))
    · exact absurd ⟨t, chance, W, rest, queue, heq, hW, hs⟩ hann

theorem worded_of_run {terrain : Terrain} (hr : (World.blank terrain).run? es = some w)
    (x : LinkId) : w.estate.Worded x ∨ (World.blank terrain).Once (CutsShort x) es := by
  refine history_of_run (P := fun es w => w.estate.Worded x ∨
    (World.blank terrain).Once (CutsShort x) es) (.inl (.inl rfl)) ?_ hr
  intro es w e w' hr hw hx he
  rw [once_concat hr]
  by_cases hcut : w.CutsShort x e
  · exact .inr (.inr hcut)
  · exact hx.imp (fun hx => hw.worded he hx hcut) .inl

theorem entrusted_of_run {terrain : Terrain} (hr : (World.blank terrain).run? es = some w) :
    w.estate.Entrusted :=
  (Regular.blank terrain).run_invariant (P := fun w => w.estate.Entrusted)
    (fun _ _ _ hw hent he => hent.moves hw.answered hw.accounted (hw.moves he))
    (.blank terrain) hr

/-- Whatever has been said, the attendant has begun to answer. -/
theorem tried_of_said {terrain : Terrain} (hr : (World.blank terrain).run? es = some w)
    (hx : w.network.said x ≠ []) : (World.blank terrain).Once (Tries x) es := by
  refine history_of_run (P := fun es w => w.network.said x ≠ [] →
    (World.blank terrain).Once (Tries x) es) (fun hx => absurd rfl hx) ?_ hr hx
  intro es w e w' hr hw htried he hx
  rw [once_concat hr]
  rcases hw.answered.speaker hw.accounted (hw.moves (happened_of_happen? he)) x with hsame |
    ⟨h, k, chance, rest, rfl, hans, -⟩ | ⟨t, chance, W, rest, queue, -, -, -, hans, -⟩
  · have hsame : w'.network.said x = w.network.said x := hsame
    exact .inl (htried (hsame ▸ hx))
  · exact .inr ⟨rest, hans⟩
  · refine .inl (htried fun hnone => ?_)
    have hnone : w.estate.network.said x = [] := hnone
    rw [hnone] at hans
    exact absurd (List.prefix_nil.mp hans) (by decide)

/-! ## Whom a release announces itself to -/

/-- A release takes a connection out of the registry. -/
def Drains (t : ThreadId) (h : HolderId) (x : LinkId) (w : World) : Event → Prop
  | .step (.thread t') _ => t' = t ∧ ∃ i holder,
    w.threads[t]? = some (.busy i (.dismantling h .draining)) ∧ w.holders[h]? = some holder ∧
      x ∈ holder.registry.links
  | _ => False

/-- Who is yet to be told of a release was registered when it emptied the registry. -/
theorem Regular.drained {W' : Work} (hw : w.Regular) (he : w.Happened e w')
    (hW' : w'.estate.works[t]? = some (some W')) (hx : x ∈ W'.stage.audience) :
    (∃ W, w.estate.works[t]? = some (some W) ∧ W.holder = W'.holder ∧ x ∈ W.stage.audience) ∨
      w.Drains t W'.holder x e := by
  obtain ⟨W₀, hW₀, hworks⟩ := (hw.moves he).works hW'
  cases hworks
  case same => exact .inl ⟨W', hW₀, rfl, hx⟩
  case began hstage =>
    rw [hstage] at hx
    split at hx <;> cases hx
  case laboured chance W E₁ he hl _ =>
    have hholder := hl.same_holder.1
    by_cases hs : W.stage = .draining
    · right
      obtain ⟨i, hcall⟩ := hw.releasing_of_work hW₀ (.inl hs)
      rw [hs] at hcall
      rw [he, hholder]
      refine ⟨rfl, i, ?_⟩
      rcases hl.links_of (Dismantling.links_of_audience hx) with hx | ⟨holder, hh, hx⟩
      · rw [hs] at hx
        cases hx
      · exact ⟨holder, hcall, hh, hx⟩
    · exact .inl ⟨W, hW₀, hholder.symm, (hl.onward hs).2 x hx⟩

theorem drained_of_run {terrain : Terrain} (hr : (World.blank terrain).run? es = some w) {W : Work}
    (hW : w.estate.works[t]? = some (some W)) (hx : x ∈ W.stage.audience) :
    (World.blank terrain).Once (Drains t W.holder x) es := by
  refine history_of_run (P := fun es w => ∀ W, w.estate.works[t]? = some (some W) →
    x ∈ W.stage.audience → (World.blank terrain).Once (Drains t W.holder x) es)
    (fun W hW => nomatch hW) ?_ hr W hW hx
  intro es w e w' hr hw hdrained he W' hW' hx
  rw [once_concat hr]
  rcases hw.drained (happened_of_happen? he) hW' hx with ⟨W, hW, hholder, hx⟩ | hdrains
  · exact .inl (hholder ▸ hdrained W hW hx)
  · exact .inr hdrains

end World

end LoopbackLock
