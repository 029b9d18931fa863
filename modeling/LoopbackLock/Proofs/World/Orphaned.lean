import LoopbackLock.Proofs.Estate.Outliving
import LoopbackLock.Proofs.World.Idleness
import LoopbackLock.Proofs.World.Steady
import LoopbackLock.Proofs.World.Waiters

/-!
# What a dropped lock leaves behind

A lock that is dropped stops its holder, waits for the accepting worker and gives the holder up. It
does not empty the registry, as a release does. So the listener is closed, nothing is said to anybody
and nobody else is let in, but those who are registered are disconnected only when the last attendant
of the holder is gone (`drop_orphans`).
-/

namespace LoopbackLock.World

variable {w w' w₀ w₁ w₂ : World} {t : ThreadId} {i : LockId} {h : HolderId} {e : Event}
variable {es es₁ es₂ : List Event} {chance : Chance} {x : LinkId} {holder : Holder}
variable {R J : Registry} {seen : LinkId → Prop}

/-! ## The listener -/

/-- A lock that was dropped has no port. -/
theorem Watched.not_hasPort_of_dropped (h : Watched w₀ es w) (hl : w.lock? i = none) :
    ¬ HasPort w₀ es w i := by
  have hnobody : ∀ t c, w.callOn i t ≠ some c := by
    intro t c hc
    obtain ⟨l, hl'⟩ := h.regular.orderly.present hc
    cases hl.symm.trans hl'
  intro hport
  rcases h.owner_of_hasPort hport with ⟨ℓ, t, c, hc, -⟩ | ⟨k, holder, -, -, hemploys⟩
  · exact hnobody t c hc
  · rcases hemploys with ⟨l, hl', -⟩ | ⟨t, c, hc, -⟩
    · cases hl.symm.trans hl'
    · exact hnobody t c hc

/-- What a lock has bound it has bound later too. -/
theorem HasBound.append {ℓ : ListenerId} (h : w₀.HasBound es i ℓ) (es' : List Event) :
    w₀.HasBound (es ++ es') i ℓ := by
  obtain ⟨es₁, es₂, w, rfl, hr, hgrips⟩ := h
  exact ⟨es₁, es₂ ++ es', w, List.append_assoc .., hr, hgrips⟩

/-! ## The last step of a drop -/

/-- A drop ends by giving the holder up. -/
theorem drop_step (hw : w.Orderly) (ht : w.threads[t]? = some (.busy i (.dropping h .abandoning)))
    (hh : w.holders[h]? = some holder) (he : w.happen? (.step (.thread t) chance) = some w') :
    ∃ l, w.lock? i = some l ∧ l.state = .holding h ∧
      w' = (w.setHolder h (({ holder with kept := false } : Holder).settle w.network)).settle t i l
        (.over .dropped) := by
  obtain ⟨l, r, w₁, hl, hs, rfl⟩ := stepThread?_busy ht he
  obtain ⟨holder', hh', hs⟩ := Option.bind_eq_some_iff.mp hs
  obtain rfl := Option.some.inj (hh.symm.trans hh')
  cases hs
  have hstands := hw.stands hl t
  rw [callOn_eq_some.mpr ht] at hstands
  exact ⟨l, hl, hstands, rfl⟩

/-- Who has no keeper is not stored any more. -/
theorem unstored_of_keepers (hfounded : h < w.holders.length) (hk : w.keepers h = 0) :
    w.Unstored h where
  founded := hfounded
  lock := by
    rintro ⟨i, l, hl, hs⟩
    have := Employs.keepers (i := i) (.inl ⟨l, hl, hs⟩)
    omega
  call i t hc := by
    have := Employs.keepers (h := h) (i := i) (.inr ⟨t, _, hc, rfl⟩)
    omega

/-- What holds from the end of a drop on, when `R` was registered and `J` was being filed. No look
at those that were `seen` has failed. -/
structure AfterDrop (R J : Registry) (seen : LinkId → Prop) (h : HolderId) (w : World) :
    Prop where
  regular : w.Regular
  unstored : w.Unstored h
  idle : ∀ (t : ThreadId) (W : Work), w.estate.works[t]? = some (some W) → W.holder ≠ h
  reticent : w.estate.Reticent h []
  outlived : ∃ holder, w.holders[h]? = some holder ∧ holder.Outlived R J seen w.network

/-- Who is registered is there. -/
theorem Regular.link_of_registered (hw : w.Regular) (hh : w.holders[h]? = some holder)
    (hx : x ∈ holder.registry.links) : x < w.network.links.length := by
  refine Decidable.byContradiction fun hge => (hw.open_of_registered hh hx).2 ?_
  exact Network.view_none (List.getElem?_eq_none_iff.mpr (Nat.le_of_not_lt hge))

theorem AfterDrop.happened (ha : w.AfterDrop R J seen h)
    (hlook : ∀ x, seen x → w.overlooks h x e = false) (he : w.Happened e w') :
    w'.AfterDrop R J seen h := by
  obtain ⟨hw, hunstored, hidle, hreticent, holder, hh, hout⟩ := ha
  have hmoves := hw.moves he
  have hup : ∀ x, w.network.isHungUp x = true → w'.network.isHungUp x = true :=
    fun x => (he.evolves hw.unoccupied hw.accounted).isHungUp
  refine ⟨hw.happened he, hunstored.happened hw.unoccupied he, fun t' W' hW' hwh => ?_,
    hreticent.moves hw.accounted hw.answered hmoves fun ⟨⟨t, hW⟩, _⟩ hwh => ?_, ?_⟩
  · obtain ⟨W₀, hW₀, hworks⟩ := hmoves.works hW'
    cases hworks
    case same => exact hidle t' W' hW₀ hwh
    case began hst _ => exact hunstored.lock (hwh ▸ hst)
    case laboured hl _ => exact hidle t' _ hW₀ (hl.same_holder.1.symm.trans hwh)
  · exact absurd hwh (hidle t _ hW)
  · obtain ⟨holder', hh', hturns⟩ := hmoves.turns hh
    refine ⟨holder', hh', Holder.Outlived.evolved ?_ hup⟩
    cases hturns
    case same => exact hout
    case emptied hW hwh _ _ _ => exact absurd hwh (hidle _ _ hW)
    case halted hW hwh _ => exact absurd hwh (hidle _ _ hW)
    case left hW hwh _ => exact absurd hwh (hidle _ _ hW)
    case polled hp =>
      have hgone := hout.unworked
      cases hp
      case stopped hworker _ => cases hgone.symm.trans hworker
      case turned hworker _ => exact absurd hgone hworker
      case attached hworker _ => cases hgone.symm.trans hworker
    case attended j chance a _ he hj ha =>
      refine hout.attended ha hj hw.sound (fun x hx => hw.link_of_registered hh hx)
        fun hs x hx => ?_
      have hblind := hlook x hx
      simpa [he, overlooks, hh, hj, hs] using hblind
    case shuffled hperm => exact hout.shuffled hperm

/-- A drop leaves the holder to its attendants. -/
theorem Watched.afterDrop (hwatched : Watched w₀ es w)
    (ht : w.threads[t]? = some (.busy i (.dropping h .abandoning)))
    (hh : w.holders[h]? = some holder) (he : w.happen? (.step (.thread t) chance) = some w')
    (seen : LinkId → Prop) :
    w'.AfterDrop holder.registry holder.incoming seen h ∧ w'.lock? i = none := by
  have hw := hwatched.regular
  have hc : w.callOn i t = some (.dropping h .abandoning) := callOn_eq_some.mpr ht
  have hW := work_of_call hc (W := ⟨h, false, .abandoning⟩) rfl
  have hhappened := happened_of_happen? he
  obtain ⟨l, hl, hst, hw'⟩ := drop_step hw.orderly ht hh he
  -- The only keeper was the lock, which is gone.
  have hkeepers : w'.keepers h = 0 := by
    have hone : w.keepers h ≤ 1 := hw.kept.one h
    have hsettle := keepers_settle (w := w.setHolder h
      (({ holder with kept := false } : Holder).settle w.network)) ht hl l (.over .dropped) h
    rw [← hw', hst] at hsettle
    have hmine : keeps h (LockState.holding h).holder? = 1 := if_pos rfl
    have hnone : keeps h (((Progress.over Ending.dropped).slot l).bind (·.state.holder?)) +
        keeps h ((Progress.over Ending.dropped : Progress Call Ending).call?.bind Call.holder?) = 0 :=
      rfl
    have hsame : (w.setHolder h
      (({ holder with kept := false } : Holder).settle w.network)).keepers h = w.keepers h := rfl
    omega
  have hidle : ∀ (t' : ThreadId) (W : Work), w'.estate.works[t']? = some (some W) →
      W.holder ≠ h := by
    rintro t' W hW' rfl
    have hemploys : ∃ j, w'.Employs j W.holder := by
      rcases keeper_of_work (hw.happened hhappened).orderly hW' with ⟨-, j, hc'⟩ |
        ⟨-, j, l', -, hl', hst'⟩
      · exact ⟨j, .inr ⟨t', _, hc', rfl⟩⟩
      · exact ⟨j, .inl ⟨l', hl', hst'⟩⟩
    obtain ⟨j, hemploys⟩ := hemploys
    have := hemploys.keepers
    omega
  have hworker : holder.worker = .gone :=
    Decidable.byContradiction fun hne =>
      (hwatched.minded.joined t i _ h ht rfl).2 ⟨_, fronts_getElem? hh, hne⟩
  have hstop : holder.stopping = true := by
    rcases hs : holder.stopping with _ | _
    · exact absurd hworker
        (hwatched.serving.alive _ (List.mem_of_getElem? (fronts_getElem? hh)) hs)
    · rfl
  have hreticent : w.estate.Reticent h [] :=
    (hw.discreet h).resolve_right fun hspoken => hspoken.unstored.lock ⟨i, l, hl, hst⟩
  have hlt : h < w.holders.length := (List.getElem?_eq_some_iff.mp hh).1
  have hholders : w'.holders = w.holders.set h
      (({ holder with kept := false } : Holder).settle w.network).1 := by rw [hw']; rfl
  refine ⟨⟨hw.happened hhappened, unstored_of_keepers ?_ hkeepers, hidle,
    hreticent.moves hw.accounted hw.answered (hw.moves hhappened) fun ⟨⟨t', hW'⟩, _, _, hs⟩ hwh => ?_,
    _, ?_, .abandoned hstop hworker w.network _⟩, ?_⟩
  · rw [hholders, List.length_set]
    exact hlt
  · obtain rfl := hw.kept.work_unique hw.orderly hW hW' hwh
    cases hW.symm.trans hW'
    cases hs
  · rw [hholders, List.getElem?_set_self hlt]
  · rw [hw', lock?_settle (w := w.setHolder h _) hl, if_pos rfl]
    rfl

/-! ## What is left -/

/-- A holder that its lock has given up when `R` was registered and `J` was being filed. No look at
those that were `seen` has failed since. -/
structure Orphaned (w : World) (h : HolderId) (R J : Registry) (seen : LinkId → Prop)
    (holder : Holder) : Prop where
  there : w.holders[h]? = some holder
  closed : w.network.isListening holder.listener = false
  /-- No release is announced to anybody. -/
  unannounced : ∀ a ∈ holder.attendants, w.network.said a.link <+: Attendance.answer
  /-- Nobody is registered who was not, or was not being filed. -/
  filed : ∀ e ∈ holder.registry, e ∈ R ∨ e ∈ J
  accepted : ∀ x ∈ R.links, ∃ a ∈ holder.attendants, a.link = x
  /-- While an attendant is there, those who were registered are so and are not disconnected, unless
  they hang up, are displaced or a look at them fails. -/
  stays : (∃ a ∈ holder.attendants, a.stage ≠ .gone) → ∀ p x, (p, x) ∈ R → (∀ j ∈ J, j.1 ≠ p) →
    seen x → w.network.isHungUp x = false → w.Keeps h x
  /-- With the last attendant every connection is closed, and every peer that reads finds it out. -/
  emptied : (∀ a ∈ holder.attendants, a.stage = .gone) → holder.registry = [] ∧
    ∀ a ∈ holder.attendants, w.network.handles a.link = 0 ∧
      ∀ most, w.network.read? a.link .caller most ≠ none

theorem AfterDrop.orphaned (ha : w.AfterDrop R J seen h) (hR : ∀ x ∈ R.links,
      0 < w.estate.measure (Holder.came x) h)
    (hclosed : ∀ holder, w.holders[h]? = some holder →
      w.network.isListening holder.listener = false) :
    ∃ holder, w.Orphaned h R J seen holder := by
  obtain ⟨hw, -, hidle, hreticent, holder, hh, hout⟩ := ha
  refine ⟨holder, hh, hclosed holder hh, fun a hmem => hreticent holder hh a hmem nofun, hout.filed,
    fun x hx => ?_, fun hbusy p x hx hport hseen hopen => ?_,
    fun hgone => ⟨hout.emptied hgone, fun a hmem => ?_⟩⟩
  · exact attendant_of_came hh (hR x hx)
  · have hfiled := hout.stays hbusy (p, x) hx hport hseen hopen
    exact hw.keeps hh (List.mem_map.mpr ⟨_, hfiled, rfl⟩)
  · have howned : w.network.handles a.link = a.stage.handles :=
      hw.accounted.owned_of_idle (E := w.estate) hidle hh (hout.emptied hgone) hmem
    have hzero : w.network.handles a.link = 0 := by rw [howned, hgone a hmem]; rfl
    obtain ⟨l, hl⟩ := hw.link_of_attendant hh hmem
    exact ⟨hzero, hw.woken hl hzero⟩

/-- When a lock that holds the port has been dropped, its listener is closed, nobody is told of a
release and nobody else gets registered. But those who are registered keep their connections until
the last attendant of the holder is gone; then all are closed. -/
theorem drop_orphans {terrain : Terrain} (h₁ : (World.blank terrain).run? es₁ = some w₁)
    (ht : w₁.threads[t]? = some (.busy i (.dropping h .abandoning)))
    (hh : w₁.holders[h]? = some holder)
    (h₂ : w₁.run? (.step (.thread t) chance :: es₂) = some w₂) :
    ∃ holder', w₂.Orphaned h holder.registry holder.incoming
      (fun x => Along (fun w e => w.overlooks h x e = false) w₁ (.step (.thread t) chance :: es₂))
      holder' := by
  have hwatched := watched_of_run h₁
  have hrun : (World.blank terrain).run? (es₁ ++ .step (.thread t) chance :: es₂) = some w₂ := by
    rw [run?_append, h₁]
    exact h₂
  have hcame : ∀ x ∈ holder.registry.links, 0 < w₂.estate.measure (Holder.came x) h :=
    fun x hx => Nat.lt_of_lt_of_le (hwatched.regular.came_of_registered hh hx)
      (came_le_run hwatched.regular h₂ h x)
  obtain ⟨holder₂, hh₂, hlistener⟩ := hwatched.regular.listener_of_run h₂ hh
  -- The listener was the dropped lock's, and so is still closed.
  have hbound : (World.blank terrain).HasBound es₁ i holder.listener := by
    obtain ⟨l, hl⟩ := hwatched.regular.orderly.present (callOn_eq_some.mpr ht)
    have hstands := hwatched.regular.orderly.stands hl t
    rw [callOn_eq_some.mpr ht] at hstands
    exact hwatched.origins.runs (.inr ⟨h, _, .inl ⟨l, hl, hstands⟩, fronts_getElem? hh, rfl⟩)
  rw [run?_cons] at h₂
  obtain ⟨w', he, h₂⟩ := Option.bind_eq_some_iff.mp h₂
  obtain ⟨hafter, hnone⟩ := hwatched.afterDrop ht hh he
    fun x => Along (fun w e => w.overlooks h x e = false) w₁ (.step (.thread t) chance :: es₂)
  have hdropped : w₂.lock? i = none := by
    obtain ⟨l, hl⟩ := hwatched.regular.orderly.present (callOn_eq_some.mpr ht)
    have hlt : i < w'.locks.length :=
      ((happened_of_happen? he).dropped hwatched.regular.unoccupied (lock?_lt hl)).1
    exact (hafter.regular.run_invariant (P := fun w => i < w.locks.length ∧ w.lock? i = none)
      (fun v e v' hv hP he => ⟨(he.dropped hv.unoccupied hP.1).1,
        (he.dropped hv.unoccupied hP.1).2 hP.2⟩) ⟨hlt, hnone⟩ h₂).2
  have hlook : ∀ x, Along (fun w e => Along (fun w e => w.overlooks h x e = false) w₁
      (.step (.thread t) chance :: es₂) → w.overlooks h x e = false) w' es₂ := by
    intro x
    by_cases hseen : Along (fun w e => w.overlooks h x e = false) w₁
        (.step (.thread t) chance :: es₂)
    · exact (hseen.2 w' he).mono fun w e hlook _ => hlook
    · exact .of_forall fun w e hlook => absurd hlook hseen
  have hafter₂ := (Along.forall hlook).invariant
    (fun _ _ _ ha hlook he => AfterDrop.happened ha hlook (happened_of_happen? he)) hafter h₂
  refine hafter₂.orphaned hcame fun holder' hh' => ?_
  obtain rfl := Option.some.inj (hh₂.symm.trans hh')
  rw [hlistener]
  refine Bool.eq_false_iff.mpr fun hopen => ?_
  exact (watched_of_run hrun).not_hasPort_of_dropped hdropped ⟨_, hbound.append _, hopen⟩

/-- Two peers connect. One asks whether the port is held and is registered, the other one says
nothing; then the lock is dropped, and the accepting worker ends. -/
def silentPeer : List Event := List.flatten
  [[.newLock {}, .newThread, .begins 0 0 .acquire], turns 6 (.thread 0),
    [.call { host := .loopback, port := 40000 } ({} : Settings).endpoint,
      .call { host := .loopback, port := 40001 } ({} : Settings).endpoint,
      .deed 0 (.write (Text.encode Message.check.line))],
    turns 4 (.worker 0), turns 7 (.attendant 0 0), turns 1 (.attendant 0 1),
    [.begins 0 0 .drop], turns 2 (.thread 0), turns 1 (.worker 0), turns 1 (.thread 0)]

theorem silent_peer_orphaned :
    ∃ w₁ w₂, (World.blank .usual).run? silentPeer = some w₁ ∧
      w₁.run? [.step (.thread 0) .plain] = some w₂ ∧ w₂.lock? 0 = none ∧ w₂.Keeps 0 0 := by
  obtain ⟨w₁, h₁⟩ := Option.isSome_iff_exists.mp
    (by decide +kernel : ((World.blank .usual).run? silentPeer).isSome = true)
  have hends : ((World.blank .usual).run? silentPeer).all (fun w =>
      w.threads[0]? = some (.busy 0 (.dropping 0 .abandoning)) ∧
      (w.holders[0]?).any (fun holder => holder.registry = [(40000, 0)] ∧ holder.incoming = []) ∧
      Along (fun w e => w.overlooks 0 0 e = false) w [.step (.thread 0) .plain] ∧
      (w.run? [.step (.thread 0) .plain]).any fun w => w.lock? 0 = none ∧
        w.network.isHungUp 0 = false ∧
        (w.holders[0]?).any fun holder => holder.attendants.any (·.stage ≠ .gone)) = true := by
    decide +kernel
  rw [h₁, Option.all_some, decide_eq_true_eq] at hends
  obtain ⟨ht, hholder, hseen, hends⟩ := hends
  obtain ⟨holder, hh, hholder⟩ := (Option.any_eq_true ..).mp hholder
  obtain ⟨hregistry, hincoming⟩ := of_decide_eq_true hholder
  obtain ⟨w₂, h₂, hends⟩ := (Option.any_eq_true ..).mp hends
  obtain ⟨hdropped, hopen, hbusy⟩ := of_decide_eq_true hends
  obtain ⟨holder', horphaned⟩ := drop_orphans h₁ ht hh h₂
  rw [horphaned.there, hregistry, hincoming] at *
  obtain ⟨a, hmem, hbusy⟩ := List.any_eq_true.mp hbusy
  exact ⟨w₁, w₂, h₁, h₂, hdropped,
    horphaned.stays ⟨a, hmem, of_decide_eq_true hbusy⟩ 40000 0 List.mem_cons_self nofun hseen hopen⟩

end LoopbackLock.World
