import LoopbackLock.Proofs.World.Release

/-!
# How long a waiter stays registered

A holder files its waiters under the ports they come from, whatever their hosts are. So until a
release drains the holder or the lock gives it up, a waiter that does not hang up stays registered
and open exactly as long as nobody else from the same port is filed and no look at its connection
fails. If it stays, it is told of the release before it is shut; if not, it never is
(`registered_iff_undisplaced`).
-/

namespace LoopbackLock.World

variable {w w' w₁ w₂ w₃ : World} {t : ThreadId} {i : LockId} {h : HolderId} {e : Event}
variable {es es₁ es₂ es₃ : List Event} {chance : Chance} {x : LinkId} {holder : Holder}

/-- The lock has not given the holder up, and no release has drained its registry. -/
structure Tended (w : World) (h : HolderId) : Prop where
  kept : ∀ (holder : Holder), w.holders[h]? = some holder → holder.kept = true
  undrained : ∀ (t : ThreadId) (i : LockId) (d : Dismantling),
    w.threads[t]? = some (.busy i (.dismantling h d)) → d = .draining

/-- The connection is registered with the holder, and open. -/
structure Keeps (w : World) (h : HolderId) (x : LinkId) : Prop where
  filed : ∃ holder, w.holders[h]? = some holder ∧ x ∈ holder.registry.links
  unshut : w.network.isShut x = false
  unclosed : w.network.handles x ≠ 0

/-- A connection is filed with the holder that comes from the same port as another one. -/
def displaces (w : World) (h : HolderId) (x : LinkId) : Event → Bool
  | .step (.attendant k j) _ =>
    k = h && ((w.holders[k]?).bind (·.attendants[j]?)).any fun a =>
      a.stage = .admitting && w.network.portOf? a.link = w.network.portOf? x
  | _ => false

/-- The look at a connection fails while another one is filed with the holder. -/
def overlooks (w : World) (h : HolderId) (x : LinkId) : Event → Bool
  | .step (.attendant k j) chance =>
    k = h && chance.blinds x &&
      ((w.holders[k]?).bind (·.attendants[j]?)).any (·.stage = .admitting)
  | _ => false

/-- A connection is filed with the holder, and another one goes whose peer has not hung up. -/
def ousts (w : World) (h : HolderId) (x : LinkId) (e : Event) : Bool :=
  w.displaces h x e || w.overlooks h x e

theorem ousts_eq_true (hh : w.holders[h]? = some holder) :
    w.ousts h x e = true ↔ ∃ j chance a, e = .step (.attendant h j) chance ∧
      holder.attendants[j]? = some a ∧ a.stage = .admitting ∧
      (w.network.portOf? a.link = w.network.portOf? x ∨ chance.blinds x = true) := by
  constructor
  · intro houst
    unfold ousts displaces overlooks at houst
    split at houst
    · next k j chance =>
      by_cases hk : k = h
      · subst hk
        rcases hj : holder.attendants[j]? with _ | a
        · simp [hh, hj] at houst
        · have hboth : a.stage = .admitting ∧
              (w.network.portOf? a.link = w.network.portOf? x ∨ chance.blinds x = true) := by
            simp [hh, hj] at houst
            tauto
          exact ⟨j, chance, a, rfl, hj, hboth⟩
      · simp [hk] at houst
    · cases houst
  · rintro ⟨j, chance, a, rfl, hj, hs, hgoes⟩
    simpa [ousts, displaces, overlooks, hh, hj, hs] using hgoes

theorem Tended.estate (ht : w.Tended h) (ho : w.Orderly) : w.estate.Tended h where
  kept := ht.kept
  undrained t W hW hwh hord := by
    rcases keeper_of_work ho hW with ⟨-, i, hc⟩ | ⟨hdrop, -⟩
    · rw [hwh] at hc
      exact ht.undrained t i W.stage (callOn_eq_some.mp hc)
    · rw [hord] at hdrop
      cases hdrop

theorem Regular.keeps (hw : w.Regular) (hh : w.holders[h]? = some holder)
    (hx : x ∈ holder.registry.links) : w.Keeps h x where
  filed := ⟨holder, hh, hx⟩
  unshut := (hw.open_of_registered hh hx).1
  unclosed := (hw.open_of_registered hh hx).2

/-- A waiter stays where it is, unless somebody from its port is filed or the look at it fails. -/
theorem Keeps.happened (hk : w.Keeps h x) (hw : w.Regular) (he : w.Happened e w')
    (htended : w'.estate.Tended h) (hopen : w'.network.isHungUp x = false)
    (hnot : w.ousts h x e = false) : w'.Keeps h x := by
  obtain ⟨⟨holder, hh, hx⟩, -, -⟩ := hk
  obtain ⟨⟨p, x⟩, hmem, rfl⟩ := List.mem_map.mp hx
  dsimp only at hopen hnot ⊢
  obtain ⟨holder', hh', ht⟩ := (hw.moves he).turns (E := w.estate) hh
  have hport : w.network.portOf? x = some p := hw.ported.filed hh p x hmem
  obtain ⟨l, hl, -⟩ := Option.map_eq_some_iff.mp hport
  have hopen' : w.network.isHungUp x = false := by
    rcases hup : w.network.isHungUp x with _ | _
    · rfl
    · rw [(he.evolves hw.unoccupied hw.accounted).isHungUp hup] at hopen
      cases hopen
  have hlooks := hw.sound.looksOpen (List.getElem?_eq_some_iff.mp hl).1 hopen'
  have hstays : ∀ j chance a, e = .step (.attendant h j) chance →
      holder.attendants[j]? = some a → a.stage = .admitting →
      p ≠ a.port ∧ chance.blinds x = false := by
    intro j chance a hej hj hs
    have hown := hw.ported.attendant hh a (List.mem_of_getElem? hj)
    refine ⟨fun heq => ?_, ?_⟩
    · refine Bool.eq_false_iff.mp hnot ((ousts_eq_true hh).mpr ⟨j, chance, a, hej, hj, hs, .inl ?_⟩)
      rw [hport, heq]
      exact hown
    · refine Bool.eq_false_iff.mpr fun hblind => Bool.eq_false_iff.mp hnot ?_
      exact (ousts_eq_true hh).mpr ⟨j, chance, a, hej, hj, hs, .inr hblind⟩
  have hfiled := ht.filed hw.plain hh' htended hmem hlooks hstays
  exact (hw.happened he).keeps hh' (List.mem_map.mpr ⟨_, hfiled, rfl⟩)

/-- A waiter is lost when somebody else from its port is filed, and when the look at it fails. -/
theorem Keeps.lost (hk : w.Keeps h x) (hw : w.Regular) (he : w.happen? e = some w')
    (houst : w.ousts h x e = true) : w'.estate.Lost x := by
  obtain ⟨⟨holder, hh, hx⟩, -, -⟩ := hk
  obtain ⟨j, chance, a, rfl, hj, hs, hgoes⟩ := (ousts_eq_true hh).mp houst
  have hlost := hw.accounted.lost hw.answered hw.ported (E := w.estate) hh hj hs hx hgoes
  obtain ⟨holder₁, hh₁, hstep⟩ := Option.bind_eq_some_iff.mp he
  obtain rfl := Option.some.inj (hh.symm.trans hh₁)
  rw [Holder.attend?_admitting hj hs] at hstep
  cases hstep
  exact hlost

theorem tended_of_run (hw : w.Regular) (hr : w.run? es = some w') (ht : w'.estate.Tended h) :
    w.estate.Tended h := by
  refine Classical.byContradiction fun hnot => ?_
  exact hw.run_invariant (P := fun v => ¬ v.estate.Tended h)
    (fun _ _ _ hv hnot he ht => hnot ((hv.moves he).tended ht)) hnot hr ht

theorem hungUp_of_run (hw : w.Regular) (hr : w.run? es = some w')
    (hup : w.network.isHungUp x = true) : w'.network.isHungUp x = true :=
  hw.run_invariant (P := fun v => v.network.isHungUp x = true)
    (fun _ _ _ hv hup he => (he.evolves hv.unoccupied hv.accounted).isHungUp hup) hup hr

theorem lost_of_run (hw : w.Regular) (hr : w.run? es = some w') (hl : w.estate.Lost x) :
    w'.estate.Lost x :=
  hw.run_invariant (P := fun v => v.estate.Lost x)
    (fun _ _ _ hv hl he => hl.moves hv.accounted (hv.moves he)) hl hr

/-- Along a run, a waiter is kept if nothing ousts it, and lost otherwise. -/
theorem Keeps.run (hk : w.Keeps h x) (hw : w.Regular) (hr : w.run? es = some w')
    (htended : w'.estate.Tended h) (hopen : w'.network.isHungUp x = false) :
    Along (fun w e => w.ousts h x e = false) w es ∧ w'.Keeps h x ∨
      ¬ Along (fun w e => w.ousts h x e = false) w es ∧ w'.estate.Lost x := by
  induction es generalizing w with
  | nil => cases hr; exact .inl ⟨trivial, hk⟩
  | cons e es ih =>
    rw [run?_cons] at hr
    obtain ⟨w₁, he, hr⟩ := Option.bind_eq_some_iff.mp hr
    have hhappened := happened_of_happen? he
    have hw₁ := hw.happened hhappened
    rcases hdis : w.ousts h x e with _ | _
    · have hopen₁ : w₁.network.isHungUp x = false := by
        rcases hup : w₁.network.isHungUp x with _ | _
        · rfl
        · rw [hungUp_of_run hw₁ hr hup] at hopen
          cases hopen
      have hk₁ := hk.happened hw hhappened (tended_of_run hw₁ hr htended) hopen₁ hdis
      rcases ih hk₁ hw₁ hr with ⟨halong, hkeeps⟩ | ⟨hnot, hlost⟩
      · refine .inl ⟨⟨hdis, fun w' he' => ?_⟩, hkeeps⟩
        obtain rfl := Option.some.inj (he.symm.trans he')
        exact halong
      · exact .inr ⟨fun halong => hnot (halong.2 w₁ he), hlost⟩
    · refine .inr ⟨fun halong => ?_, lost_of_run hw₁ hr (hk.lost hw he hdis)⟩
      cases halong.1.symm.trans hdis

theorem Keeps.not_lost (hk : w.Keeps h x) : ¬ w.estate.Lost x := by
  obtain ⟨⟨holder, hh, hx⟩, -, -⟩ := hk
  exact fun hl => hl.penless _ _ (.holder hh (.filed hx))

/-- Until its holder is drained or given up, a waiter that has not hung up is registered and open if
and only if nobody else from its port was filed and no look at its connection failed; and if and
only if so, the release that drains the holder is announced to it before it is shut or closed, but
for a write that the system cuts. -/
theorem registered_iff_undisplaced {terrain : Terrain}
    (h₁ : (World.blank terrain).run? es₁ = some w₁) (hh : w₁.holders[h]? = some holder)
    (hx : x ∈ holder.registry.links) (h₂ : w₁.run? es₂ = some w₂) (htended : w₂.Tended h)
    (hopen : w₂.network.isHungUp x = false) :
    (w₂.Keeps h x ↔ Along (fun w e => w.ousts h x e = false) w₁ es₂) ∧
      ∀ t i chance es₃ w₃, w₂.threads[t]? = some (.busy i (.dismantling h .draining)) →
        w₂.run? (.step (.thread t) chance :: es₃) = some w₃ →
        Along (fun w e => w.isCut x e = false) w₂ (.step (.thread t) chance :: es₃) →
        w₃.network.isShut x = true ∨ w₃.network.handles x = 0 →
        (w₃.network.said x = script ↔ Along (fun w e => w.ousts h x e = false) w₁ es₂) := by
  have hreg₁ : w₁.Regular := (Regular.blank terrain).run h₁
  have hreg₂ : w₂.Regular := hreg₁.run h₂
  rcases (hreg₁.keeps hh hx).run hreg₁ h₂ (htended.estate hreg₂.orderly) hopen with
    ⟨halong, hkeeps⟩ | ⟨hnot, hlost⟩
  · refine ⟨iff_of_true hkeeps halong, fun t i chance es₃ w₃ ht h₃ huncut hover => ?_⟩
    obtain ⟨⟨holder₂, hh₂, hx₂⟩, -, -⟩ := hkeeps
    have hcut : Along (fun w e => ∀ y, w.isCut y e = true → y ≠ x) w₂
        (.step (.thread t) chance :: es₃) := by
      refine huncut.mono fun w e hnot y hy heq => ?_
      rw [heq, hnot] at hy
      cases hy
    have hdrained := afterDrain_of_run (C := (· ≠ x)) hreg₂ ht hh₂ h₃ hcut
    have htold := hdrained.releasing.announced hdrained.regular.accounted
      hdrained.regular.answered hx₂ hover
    exact iff_of_true (htold.resolve_left fun hne => hne rfl) halong
  · refine ⟨iff_of_false (fun hkeeps => hkeeps.not_lost hlost) hnot,
      fun t i chance es₃ w₃ _ h₃ _ _ => iff_of_false (fun htold => ?_) hnot⟩
    have hanswer : w₃.network.said x = Attendance.answer := (lost_of_run hreg₂ h₃ hlost).said
    rw [htold] at hanswer
    exact Estate.script_not_prefix ⟨[], by rw [hanswer, List.append_nil]⟩

/-- Two peers with one port on two hosts ask whether the lock is held; the first one is filed. -/
def onePort : List Event :=
  [.newLock {}, .newThread, .begins 0 0 .acquire] ++ turns 6 (.thread 0) ++
  [.call { host := .v4 127 0 0 2, port := 40000 } ({} : Settings).endpoint,
    .call { host := .v4 127 0 0 3, port := 40000 } ({} : Settings).endpoint,
    .deed 0 (.write (Text.encode Message.check.line)),
    .deed 1 (.write (Text.encode Message.check.line))] ++
  turns 4 (.worker 0) ++ turns 6 (.attendant 0 0)

/-- The second one is filed too, and a release begins. -/
def takeover : List Event :=
  turns 6 (.attendant 0 1) ++ [.begins 0 0 .release] ++ turns 2 (.thread 0)

/-- The release goes on, and the attendants end. -/
def parting : List Event :=
  turns 4 (.thread 0) ++ turns 1 (.attendant 0 0) ++ turns 1 (.attendant 0 1)

theorem one_port_displaced :
    ∃ w₂ w₃, (World.blank .usual).run? (onePort ++ takeover) = some w₂ ∧ ¬ w₂.Keeps 0 0 ∧
      w₂.run? (.step (.thread 0) .plain :: parting) = some w₃ ∧ w₃.network.said 0 ≠ script := by
  obtain ⟨w₁, h₁⟩ := Option.isSome_iff_exists.mp
    (by decide +kernel : ((World.blank .usual).run? onePort).isSome = true)
  have hfiled : ((World.blank .usual).run? onePort).all (fun w =>
      (w.holders[0]?).map (·.registry.links) = some [0] ∧
      ¬ Along (fun w e => w.ousts 0 0 e = false) w takeover) = true := by decide +kernel
  rw [h₁, Option.all_some, decide_eq_true_eq] at hfiled
  obtain ⟨hlinks, hnot⟩ := hfiled
  obtain ⟨holder, hh, hlinks⟩ := Option.map_eq_some_iff.mp hlinks
  obtain ⟨w₂, h₂⟩ := Option.isSome_iff_exists.mp
    (by decide +kernel : ((World.blank .usual).run? (onePort ++ takeover)).isSome = true)
  have hbegun : ((World.blank .usual).run? (onePort ++ takeover)).all (fun w =>
      w.threads = [.busy 0 (.dismantling 0 .draining)] ∧ (w.holders[0]?).all (·.kept) ∧
      w.network.isHungUp 0 = false ∧
      Along (fun w e => w.isCut 0 e = false) w (.step (.thread 0) .plain :: parting) ∧
      (w.run? (.step (.thread 0) .plain :: parting)).isSome ∧
      (w.run? (.step (.thread 0) .plain :: parting)).all fun w => w.network.handles 0 = 0) =
        true := by decide +kernel
  rw [h₂, Option.all_some, decide_eq_true_eq] at hbegun
  obtain ⟨hthreads, hkept, hopen, huncut, hdone, hclosed⟩ := hbegun
  obtain ⟨w₃, h₃⟩ := Option.isSome_iff_exists.mp hdone
  rw [h₃, Option.all_some, decide_eq_true_eq] at hclosed
  have hrun := h₂
  rw [run?_append, h₁] at h₂
  have htended : w₂.Tended 0 := by
    constructor
    · intro holder hh
      rw [hh] at hkept
      exact hkept
    · intro t i d hbusy
      rw [hthreads] at hbusy
      rcases t with _ | t <;> cases hbusy
      rfl
  obtain ⟨hkeeps, htold⟩ := registered_iff_undisplaced h₁ hh (x := 0)
    (by rw [hlinks]; exact List.mem_cons_self) h₂ htended hopen
  refine ⟨w₂, w₃, hrun, fun hk => hnot (hkeeps.mp hk), h₃, fun hsaid => hnot ?_⟩
  exact (htold 0 0 .plain parting w₃ (by rw [hthreads]; rfl) h₃ huncut
    (.inr hclosed)).mp hsaid

end LoopbackLock.World
