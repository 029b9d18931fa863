import LoopbackLock.Proofs.World.Readiness
import LoopbackLock.Proofs.World.Steady
import Mathlib.Logic.Relation

/-!
# Releases come to their end

A release waits for the lock of the registry and for the accepting worker, and for nothing else. An
attendant that has the registry locked can always go on, and so can a worker that was told to stop.
So from every world a release can be brought to its end, whatever fails on the way
(`Steady.concludes`).
-/

namespace LoopbackLock

theorem LockState.holder?_eq_some {s : LockState} {h : HolderId} :
    s.holder? = some h ↔ s = .holding h := by
  cases s <;> simp [LockState.holder?]

namespace PortLock

variable {l : PortLock} {t : ThreadId} {h : HolderId} {d d' : Dismantling} {r : Reply}

/-! ## Steps of a release -/

theorem step_resetting (hs : l.state = .holding h) :
    l.step t .resetting .done = ({ l with state := .idle }, .going (.dismantling h .draining)) := by
  simp only [step, hs]

/-- A lock without a holder has nothing to dismantle. -/
theorem step_resetting_bare (hs : l.state.holder? = none) :
    l.step t .resetting .done = ({ l with state := .idle }, .going .leaving) := by
  cases hstate : l.state <;> simp_all [step, LockState.holder?]

theorem step_dismantling (hd : d.step true r = .going d') :
    l.step t (.dismantling h d) r = (l, .going (.dismantling h d')) := by
  simp only [step, hd]

theorem step_dismantling_over (hd : d.step true r = .over ()) :
    l.step t (.dismantling h d) r = (l, .going .leaving) := by
  simp only [step, hd]

end PortLock

/-- The call releases the lock. -/
def Call.isRelease : Call → Bool
  | counting | resetting | dismantling .. | leaving => true
  | _ => false

namespace World

variable {w w' : World} {t : ThreadId} {i : LockId} {h : HolderId} {c : Call} {l : PortLock}
variable {d : Dismantling} {chance : Chance} {holder : Holder} {k : Nat} {a : Attendant}

/-- Registries come to yield their entries in other orders, any number of times. -/
abbrev Reordered : World → World → Prop := Relation.ReflTransGen Shuffles

theorem Reordered.threads (hr : w.Reordered w') : w'.threads = w.threads := by
  induction hr with
  | refl => rfl
  | tail _ hs ih => exact hs.threads.trans ih

theorem Reordered.holder_at (hr : w.Reordered w') (hh : w.holders[h]? = some holder) :
    ∃ registry, w'.holders[h]? = some { holder with registry } := by
  induction hr with
  | refl => exact ⟨holder.registry, hh⟩
  | tail _ hs ih =>
    obtain ⟨registry, hh'⟩ := ih
    obtain ⟨registry', -, hh''⟩ := hs.holder hh'
    exact ⟨registry', hh''⟩

theorem Steady.reordered (hw : w.Steady) (hr : w.Reordered w') : w'.Steady := by
  induction hr with
  | refl => exact hw
  | tail _ hs ih => exact ih.happened (@Happened.shuffled _ 0 [] _ hs)

/-- The call of a thread comes to its end. Somebody can make a step that changes something; and
whatever chance makes of it, and in whatever order registries are then, the call still comes to its
end. Only a step that leaves the world as it was is to be made again. -/
inductive Concludes (t : ThreadId) : World → Prop
  | over {w : World} {last : Option Ending} (ht : w.threads[t]? = some (.free last)) : Concludes t w
  | step {w : World} (a : Actor) (hready : ∃ chance w', w.step? a chance = some w' ∧ w' ≠ w)
      (hnext : ∀ chance w', w.step? a chance = some w' → w' ≠ w →
        ∀ w'', w'.Reordered w'' → Concludes t w'') : Concludes t w

/-- A thread that stands here in a call comes to its end. -/
def Concluding (t : ThreadId) (i : LockId) (c : Call) : Prop :=
  ∀ w : World, w.Steady → w.threads[t]? = some (.busy i c) → w.Concludes t

/-! ## Steps of the thread -/

theorem Steady.lock_of_call (hw : w.Steady) (ht : w.threads[t]? = some (.busy i c)) :
    ∃ l, w.lock? i = some l :=
  hw.regular.orderly.present (callOn_eq_some.mpr ht)

/-- A call that stays where it is and stores nothing leaves the world as it is. -/
theorem settle_same (ht : w.threads[t]? = some (.busy i c)) (hl : w.lock? i = some l) :
    w.settle t i l (.going c) = w := by
  show { w with locks := w.locks.set i (some l), threads := w.threads.set t (.busy i c) } = w
  rw [set_same (getElem?_of_lock? hl), set_same ht]

theorem threads_settle (ht : w.threads[t]? = some (.busy i c)) (l : PortLock)
    (p : Progress Call Ending) : (w.settle t i l p).threads[t]? = some (p.activity i) := by
  rw [settle_eq]
  exact List.getElem?_set_self (List.getElem?_eq_some_iff.mp ht).1

/-- A call comes to its end if its thread can make a step, and all that its steps lead to does. -/
theorem Concludes.of_thread (hw : w.Steady) (ht : w.threads[t]? = some (.busy i c))
    (hl : w.lock? i = some l) (hawake : c ≠ .entering)
    (hready : ∃ chance r w₁, w.serve? l.settings chance (c.request l.settings) = some (r, w₁) ∧
      (l.step t c r).2 ≠ .going c)
    (hnext : ∀ chance r w₁, w.serve? l.settings chance (c.request l.settings) = some (r, w₁) →
      (∃ ending, (l.step t c r).2 = .over ending) ∨
      (∃ c', (l.step t c r).2 = .going c' ∧ Concluding t i c') ∨
      l.step t c r = (l, .going c) ∧ w₁ = w) : w.Concludes t := by
  have hbusy : ∀ {s : Settings} {chance : Chance} {q : Request} {r : Reply} {w₁ : World},
      w.serve? s chance q = some (r, w₁) → w₁.threads[t]? = some (.busy i c) :=
    fun hs => by rw [(served_of_serve? hs).threads]; exact ht
  refine .step (.thread t) ?_ fun chance w' hstep hne w'' hr => ?_
  · obtain ⟨chance, r, w₁, hs, hmoves⟩ := hready
    refine ⟨chance, _, step?_of_serve? c ht hl (by simp [PortLock.isAsleep, hawake]) hs, ?_⟩
    intro heq
    have hafter := threads_settle (hbusy hs) (l.step t c r).1 (l.step t c r).2
    rw [heq, ht] at hafter
    rcases hp : (l.step t c r).2 with c' | ending
    · rw [hp] at hafter
      cases hafter
      exact hmoves hp
    · rw [hp] at hafter
      cases hafter
  · obtain ⟨l', r, w₁, hl', hs, rfl⟩ := stepThread?_busy ht hstep
    obtain rfl := Option.some.inj (hl.symm.trans hl')
    have hafter := threads_settle (hbusy hs) (l.step t c r).1 (l.step t c r).2
    rw [← hr.threads] at hafter
    rcases hnext chance r w₁ hs with ⟨ending, hp⟩ | ⟨c', hp, hc'⟩ | ⟨hp, rfl⟩
    · rw [hp] at hafter
      exact .over hafter
    · rw [hp] at hafter
      have hsteady := hw.happened (.threadStep ht hl hs)
      exact hc' w'' (hsteady.reordered hr) hafter
    · rw [hp] at hne
      exact absurd (settle_same ht hl) hne

theorem serve?_choose {s : Settings} {r : Reply} {w₁ : World}
    (hs : w.serve? s chance .choose = some (r, w₁)) : ∃ choice, r = .chosen choice ∧ w₁ = w := by
  cases chance <;> cases hs <;> exact ⟨_, rfl, rfl⟩

/-- The system replies to a release as it should. -/
theorem meets_of_serve? {s : Settings} {r : Reply} {w₁ : World}
    (hs : w.serve? s chance (d.request h) = some (r, w₁)) : d.Meets r := by
  cases d with
  | draining | sweeping =>
    obtain ⟨holder, -, hs⟩ := Option.bind_eq_some_iff.mp hs
    split at hs
    · cases hs
    · cases hs
      exact ⟨_, rfl⟩
  | notifying x rest queue =>
    rw [Dismantling.request, serve?_write] at hs
    rcases hsay : w.network.say x .callee rest chance with ⟨reply, n⟩
    rw [hsay] at hs
    cases hs
    rcases Network.say_cases hsay with ⟨f, rfl, -⟩ | ⟨count, rfl, -⟩
    · exact .inr ⟨f, rfl⟩
    · exact .inl ⟨_, rfl⟩
  | shutting x queue =>
    have hs : w.shut x chance = (r, w₁) := Option.some.inj hs
    unfold World.shut at hs
    split at hs
    · cases hs
      exact .inr ⟨_, rfl⟩
    · split at hs <;> cases hs
      · exact .inl rfl
      · exact .inr ⟨_, rfl⟩
  | discarding x queue | clearing x queue => cases hs; rfl
  | stopping =>
    obtain ⟨holder, -, hs⟩ := Option.bind_eq_some_iff.mp hs
    cases hs
    rfl
  | joining =>
    obtain ⟨holder, -, hs⟩ := Option.bind_eq_some_iff.mp hs
    split at hs <;> cases hs
    rfl
  | abandoning =>
    obtain ⟨holder, -, hs⟩ := Option.bind_eq_some_iff.mp hs
    cases hs
    rfl

/-- A write that failed has changed nothing. -/
theorem world_of_failed_write {s : Settings} {x : LinkId} {bytes : Bytes} {f : Fault} {w₁ : World}
    (hs : w.serve? s chance (.write x bytes) = some (.failed f, w₁)) : w₁ = w := by
  rw [serve?_write] at hs
  rcases hsay : w.network.say x .callee bytes chance with ⟨reply, n⟩
  rw [hsay] at hs
  rcases Network.say_cases hsay with ⟨f, rfl, rfl⟩ | ⟨count, rfl, -⟩ <;> cases hs
  rfl

theorem concluding_leaving : Concluding t i .leaving := by
  intro w hw ht
  obtain ⟨l, hl⟩ := hw.lock_of_call ht
  refine .of_thread hw ht hl nofun ⟨.plain, .chosen 0, w, rfl, nofun⟩ fun chance r w₁ hs => ?_
  obtain ⟨choice, rfl, -⟩ := serve?_choose hs
  exact .inl ⟨.released, rfl⟩

/-! ## Stages of a release -/

/-- A release that can make a step comes to its end if all that its steps lead to does. -/
theorem Concludes.dismantling (hw : w.Steady)
    (ht : w.threads[t]? = some (.busy i (.dismantling h d)))
    (hready : ∀ s, ∃ chance r w₁, w.serve? s chance (d.request h) = some (r, w₁) ∧
      d.step true r ≠ .going d)
    (hnext : ∀ s chance r w₁, w.serve? s chance (d.request h) = some (r, w₁) →
      d.step true r = .over () ∨
      (∃ d', d.step true r = .going d' ∧ Concluding t i (.dismantling h d')) ∨
      d.step true r = .going d ∧ w₁ = w) : w.Concludes t := by
  obtain ⟨l, hl⟩ := hw.lock_of_call ht
  refine .of_thread hw ht hl nofun ?_ fun chance r w₁ hs => ?_
  · obtain ⟨chance, r, w₁, hs, hmoves⟩ := hready l.settings
    refine ⟨chance, r, w₁, hs, fun hp => ?_⟩
    rcases hd : d.step true r with d' | _
    · rw [PortLock.step_dismantling hd] at hp
      cases hp
      exact hmoves hd
    · rw [PortLock.step_dismantling_over hd] at hp
      cases hp
  · rcases hnext l.settings chance r w₁ hs with hd | ⟨d', hd, hd'⟩ | ⟨hd, hsame⟩
    · exact .inr (.inl ⟨_, by rw [PortLock.step_dismantling_over hd], concluding_leaving⟩)
    · exact .inr (.inl ⟨_, by rw [PortLock.step_dismantling hd], hd'⟩)
    · exact .inr (.inr ⟨PortLock.step_dismantling hd, hsame⟩)

theorem Steady.holder_of_release (hw : w.Steady)
    (ht : w.threads[t]? = some (.busy i (.dismantling h d))) :
    ∃ holder, w.holders[h]? = some holder := by
  have hW := work_of_call (callOn_eq_some.mpr ht) (W := ⟨h, true, d⟩) rfl
  have hlt := (hw.regular.kept.unstored hw.regular.orderly hW rfl).founded
  exact ⟨_, List.getElem?_eq_getElem hlt⟩

theorem concluding_abandoning : Concluding t i (.dismantling h .abandoning) := by
  intro w hw ht
  obtain ⟨holder, hh⟩ := hw.holder_of_release ht
  refine .dismantling hw ht (fun s => ⟨.plain, .done,
    w.setHolder h (({ holder with kept := false } : Holder).settle w.network), ?_, nofun⟩)
    fun s chance r w₁ hs => ?_
  · simp [Dismantling.request, serve?, hh]
  · obtain rfl : _ = _ := meets_of_serve? hs
    exact .inl rfl

theorem concluding_clear (links : List LinkId) : Concluding t i (.dismantling h (.clear links)) := by
  induction links with
  | nil => exact concluding_abandoning
  | cons x links ih =>
    intro w hw ht
    refine .dismantling hw ht (fun s => ⟨.plain, .done, _, rfl, fun heq => ?_⟩)
      fun s chance r w₁ hs => ?_
    · have hlinks := congrArg Dismantling.links (Progress.going.inj heq)
      rw [Dismantling.links_clear] at hlinks
      exact List.cons_ne_self _ _ hlinks.symm
    · obtain rfl : _ = _ := meets_of_serve? hs
      exact .inr (.inl ⟨_, rfl, ih⟩)

/-! ## Waiting for the lock of the registry -/

/-- A call comes to its end if somebody makes a step of the holder that changes the holder, and it
does whatever comes of that. -/
theorem Concludes.of_holder {step? : Chance → Option (Holder × Network)} (hw : w.Steady)
    (ht : w.threads[t]? = some (.busy i c)) (hh : w.holders[h]? = some holder) (actor : Actor)
    (hstep : ∀ chance, w.step? actor chance = (step? chance).map (w.setHolder h))
    (hready : ∃ chance next, step? chance = some next ∧ next.1 ≠ holder)
    (hnext : ∀ chance next, step? chance = some next → ∀ w' : World, w'.Steady →
      w'.threads[t]? = some (.busy i c) →
      (∃ registry, w'.holders[h]? = some { next.1 with registry }) → w'.Concludes t) :
    w.Concludes t := by
  have hset : ∀ next, (w.setHolder h next).holders[h]? = some next.1 :=
    fun next => List.getElem?_set_self (List.getElem?_eq_some_iff.mp hh).1
  refine .step actor ?_ fun chance w' hmade hne w'' hr => ?_
  · obtain ⟨chance, next, hs, hne⟩ := hready
    refine ⟨chance, w.setHolder h next, by rw [hstep, hs]; rfl, fun heq => hne ?_⟩
    have hsame := hset next
    rw [heq, hh] at hsame
    exact (Option.some.inj hsame).symm
  · have hsteady := hw.happened (happened_of_happen? (e := .step actor chance) hmade)
    rw [hstep] at hmade
    obtain ⟨next, hs, rfl⟩ := Option.map_eq_some_iff.mp hmade
    exact hnext chance next hs w'' (hsteady.reordered hr) (by rw [hr.threads]; exact ht)
      (hr.holder_at (hset next))

/-- The step of an attendant is one of its holder. -/
theorem step?_attendant (hh : w.holders[h]? = some holder) (chance : Chance) :
    w.step? (.attendant h k) chance =
      (holder.attend? w.network k chance).map (w.setHolder h) := by
  show (w.holders[h]?).bind _ = _
  rw [hh]
  rfl

/-- A release that is to empty the registry comes to its end once it has. -/
structure Empties (t : ThreadId) (i : LockId) (h : HolderId) (d : Dismantling) : Prop where
  stage : d = .draining ∨ d = .sweeping
  next : ∀ links, ∃ d', d' ≠ d ∧ d.step true (.drained links) = .going d' ∧
    Concluding t i (.dismantling h d')

theorem Empties.free (he : Empties t i h d) (hw : w.Steady)
    (ht : w.threads[t]? = some (.busy i (.dismantling h d))) (hh : w.holders[h]? = some holder)
    (hnone : holder.registrar = none) : w.Concludes t := by
  have hrequest : d.request h = .drain h := by rcases he.stage with rfl | rfl <;> rfl
  refine .dismantling hw ht (fun s => ⟨.plain, .drained holder.registry.links,
    w.setHolder h ({ holder with registry := [] }, w.network), ?_, fun heq => ?_⟩)
    fun s chance r w₁ hs => ?_
  · simp [hrequest, serve?, hh, hnone]
  · obtain ⟨d', hne, hstep, -⟩ := he.next holder.registry.links
    rw [hstep] at heq
    exact hne (Progress.going.inj heq)
  · have hmeets := meets_of_serve? hs
    obtain ⟨links, rfl⟩ : ∃ links, r = .drained links := by
      rcases he.stage with rfl | rfl <;> exact hmeets
    obtain ⟨d', -, hstep, hd'⟩ := he.next links
    exact .inr (.inl ⟨d', hstep, hd'⟩)

/-- An attendant that has the registry locked to enter its connection gives it free. -/
theorem Empties.admitting (he : Empties t i h d) (hw : w.Steady)
    (ht : w.threads[t]? = some (.busy i (.dismantling h d))) (hh : w.holders[h]? = some holder)
    (hsome : holder.registrar = some k) (hk : holder.attendants[k]? = some a)
    (hs : a.stage = .admitting) : w.Concludes t := by
  have hattend := Holder.attend?_admitting hk hs w.network
  refine .of_holder hw ht hh (.attendant h k) (step?_attendant hh)
    ⟨.plain, _, hattend .plain, fun heq => ?_⟩ fun chance next hs w' hw' ht' hh' => ?_
  · have hreg := congrArg Holder.registrar heq
    cases hsome.symm.trans hreg.symm
  · cases (hattend chance).symm.trans hs
    obtain ⟨registry, hh'⟩ := hh'
    exact he.free hw' ht' hh' rfl

/-- An attendant that has the registry locked and was told to stop gives it free. -/
theorem Empties.halted (he : Empties t i h d) (hw : w.Steady)
    (ht : w.threads[t]? = some (.busy i (.dismantling h d))) (hh : w.holders[h]? = some holder)
    (hsome : holder.registrar = some k) (hk : holder.attendants[k]? = some a)
    (hs : a.stage = .deciding) (hstop : holder.stopping = true) : w.Concludes t := by
  have hattend : ∀ chance, holder.attend? w.network k chance =
      some (({ holder with registrar := none } : Holder).move k (.parting 2), w.network) := by
    intro chance
    simp [Holder.attend?, hk, hs, hstop]
  refine .of_holder hw ht hh (.attendant h k) (step?_attendant hh)
    ⟨.plain, _, hattend .plain, fun heq => ?_⟩ fun chance next hnext w' hw' ht' hh' => ?_
  · cases hsome.symm.trans (congrArg Holder.registrar heq).symm
  · cases (hattend chance).symm.trans hnext
    obtain ⟨registry, hh'⟩ := hh'
    exact he.free hw' ht' hh' rfl

/-- An attendant that has the registry locked and was not told to stop enters its connection. -/
theorem Empties.deciding (he : Empties t i h d) (hw : w.Steady)
    (ht : w.threads[t]? = some (.busy i (.dismantling h d))) (hh : w.holders[h]? = some holder)
    (hsome : holder.registrar = some k) (hk : holder.attendants[k]? = some a)
    (hs : a.stage = .deciding) (hstop : holder.stopping = false) : w.Concludes t := by
  have hattend : ∀ chance, holder.attend? w.network k chance =
      some (holder.move k .admitting, w.network) := by
    intro chance
    simp [Holder.attend?, hk, hs, hstop]
  have hmoved := Holder.attendants_move hk .admitting k
  rw [if_pos rfl] at hmoved
  refine .of_holder hw ht hh (.attendant h k) (step?_attendant hh)
    ⟨.plain, _, hattend .plain, fun heq => ?_⟩ fun chance next hnext w' hw' ht' hh' => ?_
  · have hstage := hmoved
    rw [show holder.move k .admitting = holder from heq, hk] at hstage
    rw [Option.some.inj hstage] at hs
    cases hs
  · cases (hattend chance).symm.trans hnext
    obtain ⟨registry, hh'⟩ := hh'
    exact he.admitting hw' ht' hh' hsome hmoved rfl

/-- A release that is to empty the registry waits until whoever has it locked is done with it. -/
theorem Empties.concluding (he : Empties t i h d) : Concluding t i (.dismantling h d) := by
  intro w hw ht
  obtain ⟨holder, hh⟩ := hw.holder_of_release ht
  rcases hreg : holder.registrar with _ | k
  · exact he.free hw ht hh hreg
  obtain ⟨a, hk, hat⟩ := hw.manned h holder hh k hreg
  cases hs : a.stage
  case deciding =>
    rcases hstop : holder.stopping with _ | _
    · exact he.deciding hw ht hh hreg hk hs hstop
    · exact he.halted hw ht hh hreg hk hs hstop
  case admitting => exact he.admitting hw ht hh hreg hk hs
  all_goals
    rw [hs] at hat
    cases hat

theorem concluding_sweeping : Concluding t i (.dismantling h .sweeping) :=
  Empties.concluding ⟨.inr rfl, fun links =>
    ⟨.clear links, by cases links <;> nofun, rfl, concluding_clear links⟩⟩

/-! ## Waiting for the accepting worker -/

/-- The step of an accepting worker is one of its holder. -/
theorem step?_worker (hh : w.holders[h]? = some holder) (chance : Chance) :
    w.step? (.worker h) chance = (holder.poll? w.network chance).map (w.setHolder h) := by
  show (w.holders[h]?).bind _ = _
  rw [hh]
  rfl

theorem joining_gone (hw : w.Steady) (ht : w.threads[t]? = some (.busy i (.dismantling h .joining)))
    (hh : w.holders[h]? = some holder) (hworker : holder.worker = .gone) : w.Concludes t := by
  refine .dismantling hw ht (fun s => ⟨.plain, .done, w, ?_, nofun⟩) fun s chance r w₁ hs => ?_
  · simp [Dismantling.request, serve?, hh, hworker]
  · obtain rfl : _ = _ := meets_of_serve? hs
    exact .inr (.inl ⟨.sweeping, rfl, concluding_sweeping⟩)

/-- A worker that was told to stop ends when it checks that. -/
theorem joining_checking (hw : w.Steady)
    (ht : w.threads[t]? = some (.busy i (.dismantling h .joining)))
    (hh : w.holders[h]? = some holder) (hworker : holder.worker = .checking) : w.Concludes t := by
  obtain ⟨holder', hh', hstop⟩ := hw.regular.stopped t ⟨h, true, .joining⟩
    (work_of_call (callOn_eq_some.mpr ht) rfl) (.inl rfl)
  obtain rfl := Option.some.inj (hh.symm.trans hh')
  have hpoll : ∀ chance, holder.poll? w.network chance = some
      (({ holder with worker := .gone } : Holder).settle (w.network.unbind holder.listener)) := by
    intro chance
    simp [Holder.poll?, hworker, hstop]
  refine .of_holder hw ht hh (.worker h) (step?_worker hh) ⟨.plain, _, hpoll .plain, fun heq => ?_⟩
    fun chance next hs w' hw' ht' hh' => ?_
  · have hsame := congrArg Holder.worker heq
    rw [Holder.settle_worker] at hsame
    cases hsame.trans hworker
  · cases (hpoll chance).symm.trans hs
    obtain ⟨registry, hh'⟩ := hh'
    exact joining_gone hw' ht' hh' (Holder.settle_worker ..)

theorem joining_resting (hw : w.Steady)
    (ht : w.threads[t]? = some (.busy i (.dismantling h .joining)))
    (hh : w.holders[h]? = some holder) (hworker : holder.worker = .resting) : w.Concludes t := by
  refine .of_holder hw ht hh (.worker h) (step?_worker hh)
    ⟨.expire, ({ holder with worker := .checking }, w.network), by simp [Holder.poll?, hworker],
      fun heq => ?_⟩ fun chance next hs w' hw' ht' hh' => ?_
  · cases (congrArg Holder.worker heq).trans hworker
  · obtain rfl : next = ({ holder with worker := .checking }, w.network) := by
      cases chance <;> simp [Holder.poll?, hworker] at hs
      exact hs.symm
    obtain ⟨registry, hh'⟩ := hh'
    exact joining_checking hw' ht' hh' rfl

/-- A worker that looks for a connection checks next whether it is to stop, or rests first. -/
theorem joining_accepting (hw : w.Steady)
    (ht : w.threads[t]? = some (.busy i (.dismantling h .joining)))
    (hh : w.holders[h]? = some holder) (hworker : holder.worker = .accepting) : w.Concludes t := by
  have hmoved : ∀ {chance : Chance} {next : Holder × Network},
      holder.poll? w.network chance = some next →
        next.1.worker = .checking ∨ next.1.worker = .resting := by
    intro chance next hs
    unfold Holder.poll? at hs
    rw [hworker] at hs
    split at hs
    case h_2 f _ =>
      cases hs
      by_cases hf : f.kind = .interrupted
      · exact .inl (if_pos hf)
      · exact .inr (if_neg hf)
    case h_3 =>
      split at hs <;> cases hs
      · exact .inl rfl
      · exact .inr rfl
    all_goals simp_all
  obtain ⟨next, hpoll⟩ : ∃ next, holder.poll? w.network .plain = some next := by
    unfold Holder.poll?
    rw [hworker]
    simp only
    split <;> exact ⟨_, rfl⟩
  refine .of_holder hw ht hh (.worker h) (step?_worker hh) ⟨.plain, next, hpoll, fun heq => ?_⟩
    fun chance next hs w' hw' ht' hh' => ?_
  · rcases hmoved hpoll with hnew | hnew <;> rw [heq, hworker] at hnew <;> cases hnew
  · obtain ⟨registry, hh'⟩ := hh'
    rcases hmoved hs with hnew | hnew
    · exact joining_checking hw' ht' hh' hnew
    · exact joining_resting hw' ht' hh' hnew

/-- An accepting worker that was told to stop is gone after a few steps. -/
theorem concluding_joining : Concluding t i (.dismantling h .joining) := by
  intro w hw ht
  obtain ⟨holder, hh⟩ := hw.holder_of_release ht
  cases hworker : holder.worker
  case checking => exact joining_checking hw ht hh hworker
  case resting => exact joining_resting hw ht hh hworker
  case gone => exact joining_gone hw ht hh hworker
  case accepting => exact joining_accepting hw ht hh hworker

theorem concluding_stopping : Concluding t i (.dismantling h .stopping) := by
  intro w hw ht
  obtain ⟨holder, hh⟩ := hw.holder_of_release ht
  refine .dismantling hw ht (fun s => ⟨.plain, .done,
    w.setHolder h ({ holder with stopping := true }, w.network), ?_, nofun⟩)
    fun s chance r w₁ hs => ?_
  · simp [Dismantling.request, serve?, hh]
  · obtain rfl : _ = _ := meets_of_serve? hs
    exact .inr (.inl ⟨_, rfl, concluding_joining⟩)

/-! ## The announcements -/

theorem concluding_discarding {x : LinkId} {queue : List LinkId}
    (hqueue : Concluding t i (.dismantling h (.notify queue))) :
    Concluding t i (.dismantling h (.discarding x queue)) := by
  intro w hw ht
  refine .dismantling hw ht (fun s => ⟨.plain, .done, _, rfl, fun heq => ?_⟩)
    fun s chance r w₁ hs => ?_
  · have hlinks := congrArg Dismantling.links (Progress.going.inj heq)
    rw [Dismantling.links_notify] at hlinks
    exact List.cons_ne_self _ _ hlinks.symm
  · obtain rfl : _ = _ := meets_of_serve? hs
    exact .inr (.inl ⟨_, rfl, hqueue⟩)

theorem concluding_shutting {x : LinkId} {queue : List LinkId}
    (hqueue : Concluding t i (.dismantling h (.notify queue))) :
    Concluding t i (.dismantling h (.shutting x queue)) := by
  intro w hw ht
  refine .dismantling hw ht (fun s => ⟨.fail ⟨.other, ""⟩, .failed ⟨.other, ""⟩, w, rfl, nofun⟩)
    fun s chance r w₁ hs => ?_
  rcases meets_of_serve? hs with rfl | ⟨f, rfl⟩
  · exact .inr (.inl ⟨_, rfl, concluding_discarding hqueue⟩)
  · exact .inr (.inl ⟨_, rfl, concluding_discarding hqueue⟩)

/-- Whatever its writes do, an announcement comes to its end: it is over, or less is left of it. -/
theorem concluding_notifying {x : LinkId} {queue : List LinkId}
    (hqueue : Concluding t i (.dismantling h (.notify queue))) (rest : Bytes) :
    Concluding t i (.dismantling h (.notifying x rest queue)) := by
  induction hm : rest.length using Nat.strongRecOn generalizing rest with
  | ind m ih =>
    intro w hw ht
    refine .dismantling hw ht (fun s => ⟨.fail .brokenPipe, .failed .brokenPipe, w, rfl, nofun⟩)
      fun s chance r w₁ hs => ?_
    rcases hstep : (Dismantling.notifying x rest queue).step true r with d' | ⟨⟩
    · rcases Dismantling.step_notifying (meets_of_serve? hs) hstep with ⟨-, rfl⟩ |
        ⟨f, rfl, -, rfl⟩ | ⟨count, rfl, hpos, hcount, rfl⟩
      · exact .inr (.inl ⟨_, rfl, concluding_shutting hqueue⟩)
      · -- An interrupted write has changed nothing.
        exact .inr (.inr ⟨rfl, world_of_failed_write hs⟩)
      · have hless : (rest.drop count).length < m := by rw [List.length_drop]; omega
        exact .inr (.inl ⟨_, rfl, ih _ hless _ rfl⟩)
    · cases Dismantling.abandoning_of_over hstep

theorem concluding_notify (links : List LinkId) : Concluding t i (.dismantling h (.notify links)) := by
  induction links with
  | nil => exact concluding_stopping
  | cons x queue ih => exact concluding_notifying ih _

/-! ## Whole releases -/

theorem concluding_draining : Concluding t i (.dismantling h .draining) :=
  Empties.concluding ⟨.inl rfl, fun links =>
    ⟨.notify links, Dismantling.notify_ne_draining links, rfl, concluding_notify links⟩⟩

/-- A release comes to its end from each of its stages. -/
theorem concluding_dismantling : ∀ d, Concluding t i (.dismantling h d)
  | .draining => concluding_draining
  | .notifying _ rest queue => concluding_notifying (concluding_notify queue) rest
  | .shutting _ queue => concluding_shutting (concluding_notify queue)
  | .discarding _ queue => concluding_discarding (concluding_notify queue)
  | .stopping => concluding_stopping
  | .joining => concluding_joining
  | .sweeping => concluding_sweeping
  | .clearing x queue => concluding_clear (x :: queue)
  | .abandoning => concluding_abandoning

theorem concluding_resetting : Concluding t i .resetting := by
  intro w hw ht
  obtain ⟨l, hl⟩ := hw.lock_of_call ht
  rcases hholder : l.state.holder? with _ | h
  · refine .of_thread hw ht hl nofun ⟨.plain, .done, w, rfl, ?_⟩ fun chance r w₁ hs => ?_
    · rw [PortLock.step_resetting_bare hholder]
      nofun
    · cases hs
      exact .inr (.inl ⟨_, by rw [PortLock.step_resetting_bare hholder], concluding_leaving⟩)
  · have hstate := LockState.holder?_eq_some.mp hholder
    refine .of_thread hw ht hl nofun ⟨.plain, .done, w, rfl, ?_⟩ fun chance r w₁ hs => ?_
    · rw [PortLock.step_resetting hstate]
      nofun
    · cases hs
      exact .inr (.inl ⟨_, by rw [PortLock.step_resetting hstate], concluding_draining⟩)

theorem concluding_counting : Concluding t i .counting := by
  intro w hw ht
  obtain ⟨l, hl⟩ := hw.lock_of_call ht
  refine .of_thread hw ht hl nofun ⟨.plain, .done, w, rfl, ?_⟩ fun chance r w₁ hs => ?_
  · show l.count t ≠ _
    unfold PortLock.count
    split <;> nofun
  · cases hs
    simp only [PortLock.step, PortLock.count]
    split
    · exact .inl ⟨_, rfl⟩
    · exact .inr (.inl ⟨_, rfl, concluding_resetting⟩)
    · exact .inr (.inl ⟨_, rfl, concluding_leaving⟩)

/-- A release comes to its end wherever it stands. -/
theorem Steady.concludes (hw : w.Steady) (ht : w.threads[t]? = some (.busy i c))
    (hc : c.isRelease) : w.Concludes t := by
  cases c
  case counting => exact concluding_counting w hw ht
  case resetting => exact concluding_resetting w hw ht
  case dismantling h d => exact concluding_dismantling d w hw ht
  case leaving => exact concluding_leaving w hw ht
  all_goals cases hc

end World

end LoopbackLock
