import LoopbackLock.Proofs.Lock.Waiting
import LoopbackLock.Proofs.World.Patience

/-!
# Announced releases and vanished holders

A waiter whose read has run out of time challenges the holder again, and does not look at the
connection it keeps before the verdict. A release that is announced meanwhile is not heard: when the
challenge is refused, the holder counts as vanished. That is the only way
(`World.announced_vanishes_iff`): a waiter that is making no challenge when the announcement arrives
goes on to hear it, or finds the connection gone.
-/

namespace LoopbackLock

open Framing

variable {x : LinkId} {s : Settings} {r : Reply} {chance : Chance} {n n' : Network}
variable {calls : LinkId → Prop}

namespace Network

/-- What has arrived at the calling end of a connection and was not read. -/
abbrev inbox : Network → LinkId → Bytes := view (·.caller.inbox) []

theorem inbox_some {l : Link} (hl : n.links[x]? = some l) : n.inbox x = l.caller.inbox :=
  view_some hl

theorem link_of_inbox (h : n.inbox x ≠ []) : ∃ l, n.links[x]? = some l ∧ l.caller.inbox ≠ [] := by
  rcases hl : n.links[x]? with _ | l
  · exact absurd (view_none hl) h
  · exact ⟨l, rfl, inbox_some hl ▸ h⟩

/-- What others do leaves an inbox that has an owner as it is, or adds to it. -/
theorem Evolves.inbox (he : n.Evolves calls n') (hcalls : ¬ calls x) (hopen : n.callers x ≠ 0) :
    ∃ part, n'.inbox x = n.inbox x ++ part := by
  unfold Network.callers at hopen
  rcases hl : n.links[x]? with _ | l
  · rw [view_none hl] at hopen
    exact absurd rfl hopen
  · obtain ⟨l', hl', hev⟩ := he.old hl
    rw [eq_false hcalls] at hev
    rw [view_some hl] at hopen
    obtain ⟨part, -, hinbox⟩ := hev.delivers.2 hopen
    exact ⟨part, by rw [inbox_some hl', inbox_some hl, hinbox]⟩

/-- A read cannot run out of time where something has arrived. -/
theorem hear?_unexpired (hne : n.inbox x ≠ []) : n.hear? x .caller .expire = none := by
  obtain ⟨l, hl, hne⟩ := link_of_inbox hne
  have hfound : (l.atSide .caller).found readLimit =
      some (.ok ((l.atSide .caller).inbox.take readLimit)) := if_pos hne
  unfold hear? read?
  simp [hl, hfound]

/-- A read takes from the front of what has arrived. -/
theorem inbox_hear? {bytes : Bytes} (h : n.hear? x .caller chance = some (.heard bytes, n'))
    (hne : n.inbox x ≠ []) : bytes ≠ [] ∧ n.inbox x = bytes ++ n'.inbox x := by
  rcases hear?_cases h with ⟨_, hr, -⟩ | ⟨l, most, bytes', hl, hfound, hmost, hr, rfl⟩
  · cases hr
  cases hr
  rw [inbox_some hl] at hne ⊢
  have htake : bytes = l.caller.inbox.take most := by
    have hfound : l.caller.found most = some (.ok bytes) := hfound
    unfold End.found at hfound
    rw [if_pos hne] at hfound
    cases hfound
    rfl
  have hlink : (n.modifyLink x (·.take .caller bytes.length)).links[x]? =
      some (l.take .caller bytes.length) := getElem?_modifyLink_self hl _
  refine ⟨fun hnil => ?_, ?_⟩
  · rw [hnil] at htake
    rcases List.take_eq_nil_iff.mp htake.symm with hzero | hempty
    · omega
    · exact hne hempty
  · rw [inbox_some hlink]
    show l.caller.inbox = bytes ++ l.caller.inbox.drop bytes.length
    rw [htake, List.length_take]
    rcases Nat.le_total most l.caller.inbox.length with hle | hle
    · rw [Nat.min_eq_left hle, List.take_append_drop]
    · rw [Nat.min_eq_right hle, List.take_of_length_le hle, List.drop_length, List.append_nil]

end Network

namespace Vigil

variable {v : Vigil} {inbox : Bytes}

/-- A waiter owns the calling end it keeps. -/
theorem mem_links_of_kept (h : v.kept? = some x) : x ∈ v.links := by
  cases v <;> cases h <;> exact List.mem_cons_self

theorem Heeds.challenge? (h : v.Heeds x inbox) : v.challenge? = none := by
  cases v
  case probing | joining | rechecking => exact h.elim
  all_goals rfl

end Vigil

namespace World

variable {w w' w₁ w₂ : World} {t : ThreadId} {i : LockId} {e : Event} {es : List Event}
variable {v v' : Vigil} {reader : LineReader} {outcome : WaitOutcome}

/-- The thread waits for a holder of the lock's port. -/
abbrev Watches (w : World) (t : ThreadId) (i : LockId) (v : Vigil) : Prop :=
  w.threads[t]? = some (.busy i (.contending (.watching v)))

/-- The connection that a waiting thread keeps. -/
def kept? (w : World) (t : ThreadId) : Option LinkId :=
  match w.threads[t]? with
  | some (.busy _ (.contending (.watching v))) => v.kept?
  | _ => none

/-- The thread waits for a holder, and keeps this connection for it. -/
abbrev WaitsOn (t : ThreadId) (x : LinkId) (w : World) : Prop := w.kept? t = some x

theorem WaitsOn.watches (h : w.WaitsOn t x) : ∃ i v, w.Watches t i v ∧ v.kept? = some x := by
  unfold WaitsOn kept? at h
  split at h
  · next ht => exact ⟨_, _, ht, h⟩
  · cases h

/-- Chance does not pretend that a read of the thread for a release has run out of time. Its time
limit does run out, when there is nothing to read (`Chance.expire`). -/
def sparesRead (t : ThreadId) (w : World) : Event → Bool
  | .step (.thread t') (.fail f) =>
    match w.threads[t']? with
    | some (.busy _ (.contending (.watching (.awaiting ..)))) => t' ≠ t || !f.kind.isTimeout
    | _ => true
  | _ => true

/-- The step is the thread's, and a challenge it is making is refused. -/
def Refuses (w : World) (t : ThreadId) (e : Event) : Prop :=
  ∃ chance why, e = .step (.thread t) chance ∧ w.verdict? t chance = some (.error why)

/-- A challenge that the thread is making is refused along the run. -/
def RefusedAlong (t : ThreadId) : World → List Event → Prop
  | _, [] => False
  | w, e :: es => w.Refuses t e ∨ ∃ w', w.happen? e = some w' ∧ RefusedAlong t w' es

theorem not_refuses (h : ∀ why, w.verdict? t chance ≠ some (.error why)) :
    ¬ w.Refuses t (.step (.thread t) chance) := by
  rintro ⟨_, why, heq, hverdict⟩
  cases heq
  exact h why hverdict

/-- Whether a challenge is refused along a run is decided by its first event and the rest. -/
theorem refusedAlong_cons (he : w.happen? e = some w') :
    RefusedAlong t w (e :: es) ↔ w.Refuses t e ∨ RefusedAlong t w' es := by
  show w.Refuses t e ∨ (∃ w'', _) ↔ _
  simp only [he, Option.some.injEq, exists_eq_left']

/-- A thread that waits waited before, or it made a step of its waiting. -/
theorem Happened.waits_of (he : w.Happened e w') (hocc : w.occupants = [])
    (ht' : w'.Watches t i v') (hkept : v'.kept? = some x) :
    w.Watches t i v' ∧
        (∀ chance, e ≠ .step (.thread t) chance) ∨
      ∃ chance v l r w₁, e = .step (.thread t) chance ∧
        w.Watches t i v ∧ w.lock? i = some l ∧
        w.serve? l.settings chance (v.request l.settings) = some (r, w₁) ∧
        v.step l.settings r = .going v' ∧ w'.network = w₁.network := by
  rcases he.activity_of hocc ht' with ⟨ht, hne⟩ |
    ⟨chance, j, call, l, r, w₁, rfl, ht, hl, hs, rfl, heq⟩ | ⟨j, kind, heq⟩ | heq
  · exact .inl ⟨ht, hne⟩
  · rcases hstep : (l.step t call r).2 with call' | ending <;> rw [hstep] at heq <;> cases heq
    rcases Call.watching_of_step hstep with rfl | ⟨v, rfl, hv⟩
    · cases hkept
    · exact .inr ⟨chance, v, l, r, w₁, rfl, ht, hl, hs, hv, by rw [network_settle]⟩
  · cases kind <;> cases heq
  · cases heq

/-! ## The thread's own steps -/

/-- A thread that goes on waiting has made no step, or a step of its wait. -/
theorem Happened.watcher (he : w.Happened e w') (hocc : w.occupants = [])
    (hwaits : w'.WaitsOn t x) (ht : w.Watches t i v) :
    w'.Watches t i v ∧ v.kept? = some x ∧ (∀ chance, e ≠ .step (.thread t) chance) ∨
      ∃ chance v' l r w₁, e = .step (.thread t) chance ∧ w'.Watches t i v' ∧
        w.lock? i = some l ∧ w.serve? l.settings chance (v.request l.settings) = some (r, w₁) ∧
        v.step l.settings r = .going v' ∧ w'.network = w₁.network := by
  obtain ⟨i', v', ht', hkept⟩ := hwaits.watches
  rcases he.waits_of hocc ht' hkept with ⟨hsame, hne⟩ |
    ⟨chance, v₁, l, r, w₁, heq, hv, hl, hs, hstep, hnetwork⟩
  · cases ht.symm.trans hsame
    exact .inl ⟨ht', hkept, hne⟩
  · cases ht.symm.trans hv
    exact .inr ⟨chance, v', l, r, w₁, heq, ht', hl, hs, hstep, hnetwork⟩

/-- Where a challenge is made, a step gives its verdict; elsewhere there is none. -/
theorem verdict?_watching {l : PortLock} (ht : w.Watches t i v) (hl : w.lock? i = some l)
    (hs : w.serve? l.settings chance (v.request l.settings) = some (r, w₁)) :
    w.verdict? t chance = (v.challenge?).bind fun c =>
      match c.step l.settings r with
      | .going _ => none
      | .over verdict => some verdict := by
  unfold verdict?
  simp only [ht, hl, Option.bind_eq_bind, Option.bind_some]
  show (v.challenge?).bind _ = _
  rcases hc : v.challenge? with _ | c
  · rfl
  · have hrequest : v.request l.settings = c.request l.settings := by
      cases v <;> cases hc <;> rfl
    rw [hrequest] at hs
    rcases hstep : c.step l.settings r with _ | _ <;> simp only [Option.bind_some, hs, hstep]

/-- A call owns a calling end once. -/
theorem OwnedAt.once {call : Call} (ho : w.OwnedAt x) (ht : w.threads[t]? = some (.busy i call)) :
    call.links.count x ≤ 1 :=
  Nat.le_trans (le_total (f := Activity.calls x) ht) (Nat.le_trans ho.calls ho.one)

/-- A waiter that has the announcement ahead makes no challenge, and goes on to have it ahead. -/
theorem heeds_of_step {l : PortLock} (ho : w.OwnedAt x)
    (ht : w.Watches t i v)
    (hs : w.serve? l.settings chance (v.request l.settings) = some (r, w₁))
    (hv : v.step l.settings r = .going v') (htidy : v.Tidy)
    (hspared : w.sparesRead t (.step (.thread t) chance) = true)
    (hheeds : v.Heeds x (w.network.inbox x)) : v'.Heeds x (w₁.network.inbox x) := by
  cases v
  case listening y reader =>
    obtain ⟨rfl, hahead⟩ := hheeds
    cases hs
    cases hv
    exact Vigil.heeds_work htidy hahead false
  case awaiting y reader begun =>
    obtain ⟨rfl, hahead⟩ := hheeds
    obtain ⟨⟨reply, n⟩, hh, heq⟩ := Option.map_eq_some_iff.mp hs
    cases heq
    have hread : Announces (reader.pending ++ w.network.inbox y) := by
      rwa [htidy.buffered, List.append_nil] at hahead
    have hne := hread.ne_nil htidy.pending
    rcases Network.hear?_cases hh with ⟨f, rfl, rfl⟩ | ⟨_, _, bytes, _, _, _, rfl, _⟩
    · cases hv
      refine Vigil.heeds_failed ?_ hahead
      rcases Network.hear?_failed hh with rfl | rfl | rfl
      · rfl
      · rw [Network.hear?_unexpired hne] at hh
        cases hh
      · simpa [sparesRead, ht] using hspared
    · cases hv
      obtain ⟨hbytes, hinbox⟩ := Network.inbox_hear? hh hne
      exact Vigil.heeds_heard htidy hbytes (hinbox ▸ hread)
  case excusing y reader z =>
    obtain ⟨rfl, hahead⟩ := hheeds
    have hopen := (ho.mine ht List.mem_cons_self).1
    have hyz : ¬ (Request.hangUp z).calls y := by
      rintro rfl
      have htwo := ho.once ht
      simp [Call.links, Contention.links, Vigil.links] at htwo
    obtain ⟨part, hinbox⟩ := Network.Evolves.inbox
      ((served_of_serve? hs).evolves fun _ hx => hx) hyz hopen
    cases hs
    cases hv
    exact hinbox ▸ (Vigil.Heeds.append (v := .listening y reader) ⟨rfl, hahead⟩ part)
  case closing =>
    cases hs
    cases hv
  all_goals exact hheeds.elim

/-! ## Runs -/

/-- A world in which no peer has touched the calling end of this connection. -/
structure Sheltered (x : LinkId) (w : World) : Prop where
  regular : w.Regular
  owned : w.OwnedAt x
  tidy : ∀ (t : ThreadId) i call, w.threads[t]? = some (.busy i call) → call.Tidy

theorem Sheltered.blank (x : LinkId) (terrain : Terrain) : (World.blank terrain).Sheltered x where
  regular := .blank terrain
  owned := (Owned.blank terrain).at_link x
  tidy _ _ _ ht := by cases ht

theorem Sheltered.happened (hw : w.Sheltered x) (hdeed : ∀ d, e ≠ .deed x d)
    (he : w.Happened e w') : w'.Sheltered x where
  regular := hw.regular.happened he
  owned := hw.owned.happened hw.regular he hdeed
  tidy t i call ht' := by
    rcases he.activity_of hw.regular.unoccupied ht' with ⟨ht, -⟩ |
      ⟨_, j, c, l, r, _, -, ht, -, -, -, heq⟩ | ⟨j, kind, heq⟩ | heq
    · exact hw.tidy t i call ht
    · rcases hstep : (l.step t c r).2 with c' | _ <;> rw [hstep] at heq <;> cases heq
      exact (hw.tidy t _ c ht).step hstep
    · cases heq
      cases kind <;> trivial
    · cases heq

theorem Sheltered.run (hw : w.Sheltered x) (hdeed : ∀ d, .deed x d ∉ es)
    (hr : w.run? es = some w') : w'.Sheltered x :=
  foldlM_invariant (P := Sheltered x) (fun _ _ _ hmem hw he =>
    hw.happened (fun d heq => hdeed d (heq ▸ hmem)) (happened_of_happen? he)) hw hr

/-- What others do leaves what has arrived for a waiter, or adds to it. -/
theorem Sheltered.inbox_others {call : Call} (hw : w.Sheltered x) (hdeed : ∀ d, e ≠ .deed x d)
    (he : w.Happened e w') (ht : w.threads[t]? = some (.busy i call)) (hx : x ∈ call.links)
    (hne : ∀ chance, e ≠ .step (.thread t) chance) :
    ∃ part, w'.network.inbox x = w.network.inbox x ++ part := by
  exact (he.evolves hw.regular.unoccupied hw.regular.accounted).inbox
    (hw.owned.uncalled ht hx hdeed hne) (hw.owned.mine ht hx).1

/-- A waiter whose wait is over waits on no longer than until it hangs up. -/
theorem Regular.closing_stays (hw : w.Regular) (he : w.Happened e w')
    (ht : w.Watches t i (.closing x outcome)) (hwaits : w'.WaitsOn t x) :
    w'.Watches t i (.closing x outcome) := by
  rcases he.watcher hw.unoccupied hwaits ht with ⟨ht', -, -⟩ |
    ⟨chance, v, l, r, w₁, rfl, -, -, hs, hstep, -⟩
  · exact ht'
  · cases hs
    cases hstep

/-- A waiter that has the announcement ahead and makes no challenge is refused nowhere, and goes on
to have it ahead. -/
theorem Sheltered.heeds_happened (hw : w.Sheltered x) (hdeed : ∀ d, e ≠ .deed x d)
    (he : w.Happened e w') (hspared : w.sparesRead t e = true) (hwaits : w'.WaitsOn t x)
    (ht : w.Watches t i v) (hheeds : v.Heeds x (w.network.inbox x)) :
    ¬ w.Refuses t e ∧ ∃ v', w'.Watches t i v' ∧ v'.Heeds x (w'.network.inbox x) := by
  rcases he.watcher hw.regular.unoccupied hwaits ht with ⟨ht', hkept, hne⟩ |
    ⟨chance, v', l, r, w₁, rfl, ht', hl, hs, hstep, hnetwork⟩
  · obtain ⟨part, hinbox⟩ :=
      hw.inbox_others hdeed he ht (Vigil.mem_links_of_kept hkept) hne
    exact ⟨fun ⟨chance, _, heq, _⟩ => hne chance heq, v, ht', hinbox ▸ hheeds.append part⟩
  · refine ⟨not_refuses fun why hverdict => ?_, v', ht', hnetwork ▸
      heeds_of_step hw.owned ht hs hstep (hw.tidy t i _ ht) hspared hheeds⟩
    rw [verdict?_watching ht hl hs, hheeds.challenge?] at hverdict
    cases hverdict

/-- A waiter that challenges the holder again while the announcement is ahead still has it ahead
afterwards, or was refused and is done. -/
theorem Sheltered.recheck_happened {c : Challenge} (hw : w.Sheltered x)
    (hdeed : ∀ d, e ≠ .deed x d) (he : w.Happened e w') (hwaits : w'.WaitsOn t x)
    (ht : w.Watches t i (.rechecking x reader c))
    (hahead : Announces (reader.pending ++ reader.buffered ++ w.network.inbox x)) :
    (¬ w.Refuses t e ∧ ∃ v', w'.Watches t i v' ∧ v'.IsTold x (w'.network.inbox x)) ∨
      w.Refuses t e ∧ w'.Watches t i (.closing x .vanished) := by
  rcases he.watcher hw.regular.unoccupied hwaits ht with ⟨ht', hkept, hne⟩ |
    ⟨chance, v', l, r, w₁, rfl, ht', hl, hs, hstep, hnetwork⟩
  · obtain ⟨part, hinbox⟩ :=
      hw.inbox_others hdeed he ht (Vigil.mem_links_of_kept hkept) hne
    refine .inl ⟨fun ⟨chance, _, heq, _⟩ => hne chance heq, _, ht', reader, rfl, ?_⟩
    rw [hinbox, ← List.append_assoc]
    exact hahead.append part
  · have hverdict := verdict?_watching ht hl hs
    rw [show (Vigil.rechecking x reader c).challenge? = some c from rfl,
      Option.bind_some] at hverdict
    obtain ⟨hopen, -⟩ := hw.owned.mine ht List.mem_cons_self
    have hspare : ¬ ((Vigil.rechecking x reader c).request l.settings).calls x := by
      intro hcalls
      have hmem : x ∈ c.links := Challenge.mem_links_of_calls hcalls
      have htwo : (x :: c.links).count x ≤ 1 := hw.owned.once ht
      rw [List.count_cons_self] at htwo
      have := List.count_pos_iff.mpr hmem
      omega
    obtain ⟨part, hinbox⟩ := ((served_of_serve? hs).evolves fun _ hx => hx).inbox hspare hopen
    have hahead' : Announces (reader.pending ++ reader.buffered ++ w'.network.inbox x) := by
      rw [hnetwork, hinbox, ← List.append_assoc]
      exact hahead.append part
    simp only [Vigil.step] at hstep
    rcases hc : c.step l.settings r with c' | ⟨why | p⟩ <;> rw [hc] at hstep hverdict <;>
      cases hstep
    · exact .inl ⟨not_refuses fun why h => (by cases hverdict.symm.trans h), _, ht', reader, rfl,
        hahead'⟩
    · exact .inr ⟨⟨chance, why, rfl, hverdict⟩, ht'⟩
    · exact .inl ⟨not_refuses fun why h => (by cases hverdict.symm.trans h), _, ht', reader, rfl,
        hahead'⟩

/-- A waiter that has the announcement ahead and makes no challenge never finds that the holder has
vanished. -/
theorem Sheltered.heeding (hw : w.Sheltered x) (hdeed : ∀ d, .deed x d ∉ es)
    (hr : w.run? es = some w₂) (hwaits : Always (WaitsOn t x) w es)
    (hspared : Along (fun w e => w.sparesRead t e = true) w es) (ht : w.Watches t i v)
    (hheeds : v.Heeds x (w.network.inbox x)) (hend : w₂.Watches t i (.closing x outcome)) :
    outcome ≠ .vanished ∧ ¬ RefusedAlong t w es := by
  induction es generalizing w v with
  | nil =>
    cases hr
    cases ht.symm.trans hend
    exact ⟨hheeds.2, id⟩
  | cons e es ih =>
    rw [run?_cons] at hr
    obtain ⟨w', he, hr⟩ := Option.bind_eq_some_iff.mp hr
    have hhappened := happened_of_happen? he
    have hdeed₁ : ∀ d, e ≠ .deed x d := fun d heq => hdeed d (heq ▸ List.mem_cons_self)
    have hwaits' := hwaits.tail he
    obtain ⟨hnone, v', ht', hheeds'⟩ :=
      hw.heeds_happened hdeed₁ hhappened hspared.1 hwaits'.head ht hheeds
    obtain ⟨hout, hrest⟩ := ih (hw.happened hdeed₁ hhappened)
      (fun d hmem => hdeed d (List.mem_cons_of_mem _ hmem)) hr hwaits' (hspared.2 w' he) ht' hheeds'
    rw [refusedAlong_cons he]
    exact ⟨hout, not_or.mpr ⟨hnone, hrest⟩⟩

/-- Once its wait is over, a waiter keeps to the outcome. -/
theorem Regular.closing_run (hw : w.Regular) (hr : w.run? es = some w₂)
    (hwaits : Always (WaitsOn t x) w es) (ht : w.Watches t i (.closing x outcome)) :
    w₂.Watches t i (.closing x outcome) := by
  induction es generalizing w with
  | nil =>
    cases hr
    exact ht
  | cons e es ih =>
    rw [run?_cons] at hr
    obtain ⟨w', he, hr⟩ := Option.bind_eq_some_iff.mp hr
    have hhappened := happened_of_happen? he
    have hwaits' := hwaits.tail he
    exact ih (hw.happened hhappened) hr hwaits' (hw.closing_stays hhappened ht hwaits'.head)

/-- A waiter that has the announcement ahead finds that the holder has vanished if and only if a
challenge of its is refused. -/
theorem Sheltered.told (hw : w.Sheltered x) (hdeed : ∀ d, .deed x d ∉ es)
    (hr : w.run? es = some w₂) (hwaits : Always (WaitsOn t x) w es)
    (hspared : Along (fun w e => w.sparesRead t e = true) w es) (ht : w.Watches t i v)
    (htold : v.IsTold x (w.network.inbox x)) (hend : w₂.Watches t i (.closing x outcome)) :
    outcome = .vanished ↔ RefusedAlong t w es := by
  induction es generalizing w v with
  | nil =>
    cases hr
    cases ht.symm.trans hend
    obtain ⟨reader, hattends, -⟩ := htold
    cases hattends
  | cons e es ih =>
    rcases htold.cases with hheeds | ⟨reader, c, rfl, hahead⟩
    · obtain ⟨hout, hnone⟩ := hw.heeding hdeed hr hwaits hspared ht hheeds hend
      exact iff_of_false hout hnone
    rw [run?_cons] at hr
    obtain ⟨w', he, hr⟩ := Option.bind_eq_some_iff.mp hr
    have hhappened := happened_of_happen? he
    have hdeed₁ : ∀ d, e ≠ .deed x d := fun d heq => hdeed d (heq ▸ List.mem_cons_self)
    have hwaits' := hwaits.tail he
    rw [refusedAlong_cons he]
    rcases hw.recheck_happened hdeed₁ hhappened hwaits'.head ht hahead with
      ⟨hnone, v', ht', htold'⟩ | ⟨hrefused, hclosing⟩
    · rw [or_iff_right hnone]
      exact ih (hw.happened hdeed₁ hhappened)
        (fun d hmem => hdeed d (List.mem_cons_of_mem _ hmem)) hr hwaits' (hspared.2 w' he) ht' htold'
    · have hsame := (hw.regular.happened hhappened).closing_run hr hwaits' hclosing
      cases hsame.symm.trans hend
      exact iff_of_true rfl (.inl hrefused)

/-- The contender takes the lock without the port exactly if the holder vanished and the policy
is to assume the lock. -/
theorem resume_eq_assuming :
    Contention.resume s outcome = .assuming ↔ outcome = .vanished ∧ s.onVanished = .assume := by
  cases outcome
  case vanished =>
    unfold Contention.resume
    rcases s.onVanished with _ | _ <;> simp
  all_goals exact iff_of_false Contention.noConfusion (WaitOutcome.noConfusion ·.1)

/-- A release is announced on the connection that a waiter keeps. Its wait ends with a vanished
holder, and with the policy to assume the lock it takes the lock without the port, if and only if a
challenge that was under way when the announcement arrived is refused. -/
theorem announced_vanishes_iff {terrain : Terrain} {es₀ : List Event}
    (hstart : (World.blank terrain).run? es₀ = some w₁) (hdeed : ∀ d, .deed x d ∉ es₀ ++ es)
    (ht : w₁.Watches t i v) (htold : v.IsTold x (w₁.network.inbox x))
    (hr : w₁.run? es = some w₂) (hwaits : Always (WaitsOn t x) w₁ es)
    (hspared : Along (fun w e => w.sparesRead t e = true) w₁ es)
    (hend : w₂.Watches t i (.closing x outcome)) :
    (outcome = .vanished ↔ RefusedAlong t w₁ es) ∧
      (v.challenge? = none → outcome ≠ .vanished) ∧
      ∀ chance l w₃, w₂.lock? i = some l → w₂.happen? (.step (.thread t) chance) = some w₃ →
        (w₃.threads[t]? = some (.busy i (.contending .assuming)) ↔
          RefusedAlong t w₁ es ∧ l.settings.onVanished = .assume) := by
  have hdeed₀ : ∀ d, .deed x d ∉ es₀ := fun d h => hdeed d (List.mem_append_left _ h)
  have hdeed₁ : ∀ d, .deed x d ∉ es := fun d h => hdeed d (List.mem_append_right _ h)
  have hw := (Sheltered.blank x terrain).run hdeed₀ hstart
  have hiff := hw.told hdeed₁ hr hwaits hspared ht htold hend
  refine ⟨hiff, fun hnone => ?_, fun chance l w₃ hl he => ?_⟩
  · rcases htold.cases with hheeds | ⟨reader, c, rfl, -⟩
    · exact (hw.heeding hdeed₁ hr hwaits hspared ht hheeds hend).1
    · cases hnone
  · rw [← hiff, ← resume_eq_assuming]
    rcases happened_of_happen? he with ⟨ht', hl', hs⟩
    cases hend.symm.trans ht'
    cases hl.symm.trans hl'
    cases hs
    have hlt := (List.getElem?_eq_some_iff.mp ht').1
    show (w₂.threads.set t (.busy i (.contending (Contention.resume l.settings outcome))))[t]? = _ ↔ _
    rw [List.getElem?_set_self hlt]
    simp

/-- A waiter that assumes the lock of a vanished holder is heard and files its connection. When it
hears nothing for a while it asks again, and then the holder announces its release. -/
def lateAnnouncement : List Event :=
  [.newLock {}, .newLock { onVanished := .assume }, .newThread, .newThread,
    .begins 0 0 .acquire] ++ turns 6 (.thread 0) ++ [.begins 1 1 .acquire] ++ turns 7 (.thread 1) ++
    turns 2 (.worker 0) ++ turns 3 (.attendant 0 0) ++ turns 5 (.thread 1) ++ turns 2 (.worker 0) ++
    turns 6 (.attendant 0 1) ++ turns 3 (.thread 1) ++ [.step (.thread 1) .expire] ++
    turns 3 (.thread 1) ++ [.begins 0 0 .release] ++ turns 4 (.thread 0)

/-- The holder stops listening, which resets the connection of the challenge. -/
def lastResets : List Event := turns 3 (.thread 0) ++ turns 1 (.worker 0) ++ turns 2 (.thread 1)

theorem announced_yet_vanished :
    ∃ w₁ w₂ w₃, (World.blank .usual).run? lateAnnouncement = some w₁ ∧
      w₁.network.inbox 1 = Dismantling.announcement ∧ w₁.run? lastResets = some w₂ ∧
      w₂.Watches 1 1 (.closing 1 .vanished) ∧ RefusedAlong 1 w₁ lastResets ∧
      w₂.happen? (.step (.thread 1) .plain) = some w₃ ∧
      w₃.threads[1]? = some (.busy 1 (.contending .assuming)) := by
  obtain ⟨w₁, hstart⟩ := Option.isSome_iff_exists.mp
    (by decide +kernel : ((World.blank .usual).run? lateAnnouncement).isSome = true)
  have hmiddle : ((World.blank .usual).run? lateAnnouncement).all (fun w =>
      w.Watches 1 1 (.rechecking 1 {} (.listening 2 {} false)) ∧
      w.network.inbox 1 = Dismantling.announcement ∧ Always (WaitsOn 1 1) w lastResets ∧
      Along (fun w e => w.sparesRead 1 e = true) w lastResets ∧
      ((w.run? lastResets).any fun w => w.Watches 1 1 (.closing 1 .vanished) ∧
        (w.lock? 1).map (·.settings.onVanished) = some .assume ∧
        (w.happen? (.step (.thread 1) .plain)).isSome)) = true := by decide +kernel
  rw [hstart, Option.all_some, decide_eq_true_eq] at hmiddle
  obtain ⟨ht, hinbox, hwaits, hspared, hafter⟩ := hmiddle
  obtain ⟨w₂, hr, hafter⟩ := (Option.any_eq_true _ _).mp hafter
  obtain ⟨hend, hpolicy, hnext⟩ := of_decide_eq_true hafter
  obtain ⟨l, hl, hassume⟩ := Option.map_eq_some_iff.mp hpolicy
  obtain ⟨w₃, he⟩ := Option.isSome_iff_exists.mp hnext
  have htold : (Vigil.rechecking 1 {} (.listening 2 {} false)).IsTold 1 (w₁.network.inbox 1) :=
    ⟨{}, rfl, by rw [hinbox]; decide +kernel⟩
  have hdeed : ∀ d, .deed 1 d ∉ lateAnnouncement ++ lastResets := by
    simp [lateAnnouncement, lastResets, turns]
  obtain ⟨hiff, -, hassumes⟩ :=
    announced_vanishes_iff hstart hdeed ht htold hr hwaits hspared hend
  have hrefused := hiff.mp rfl
  exact ⟨w₁, w₂, w₃, hstart, hinbox, hr, hend, hrefused, he,
    (hassumes .plain l w₃ hl he).mpr ⟨hrefused, hassume⟩⟩

end World

end LoopbackLock
