import LoopbackLock.Proofs.Lock.Tenure
import LoopbackLock.Proofs.World.Order

/-!
# The ledger of all calls

The ledger holds the tenure of every thread with every lock. An event changes it by what the thread
itself sees: a release begins, the dropping of a lock begins, a call ends with the lock acquired.
In every world that comes about the ledger fits the gates and the states of the locks
(`Ledger.Fits.happened`).
-/

namespace LoopbackLock

/-- What every thread has of every lock by the calls it has made. -/
abbrev Ledger := ThreadId → LockId → Tenure

namespace Ledger

/-- Enters a tenure. -/
def put (L : Ledger) (t : ThreadId) (i : LockId) (T : Tenure) : Ledger :=
  fun t' i' => if t' = t ∧ i' = i then T else L t' i'

/-- Nobody has anything of a lock any more. -/
def strike (L : Ledger) (i : LockId) : Ledger := fun t' i' => if i' = i then {} else L t' i'

/-- The ledger after an event that leads from one world to another. -/
def after (L : Ledger) (w : World) (e : Event) (w' : World) : Ledger :=
  match e with
  | .begins t i .release => L.put t i (L t i).release
  | .begins _ i .drop => L.strike i
  | .step (.thread t) _ =>
    match w.threads[t]?, w'.threads[t]? with
    | some (.busy i _), some (.free (some (.acquired how))) => L.put t i ((L t i).acquire how)
    | _, _ => L
  | _ => L

variable {L : Ledger} {w w' : World} {t : ThreadId} {i : LockId} {T : Tenure}

theorem put_same : L.put t i T t i = T := if_pos ⟨rfl, rfl⟩

theorem put_of_ne {t' : ThreadId} {i' : LockId} (h : ¬ (t' = t ∧ i' = i)) :
    L.put t i T t' i' = L t' i' := if_neg h

theorem put_self : L.put t i (L t i) = L := by
  funext t' i'
  unfold put
  split
  · next h => rw [h.1, h.2]
  · rfl

/-- A step of a thread enters what its call returns. -/
theorem after_threadStep {c : Call} {l : PortLock} {p : Progress Call Ending} {chance : Chance}
    {w₁ : World} (ht : w.threads[t]? = some (.busy i c)) (hlt : t < w₁.threads.length) :
    L.after w (.step (.thread t) chance) (w₁.settle t i l p) = L.put t i (p.tenure (L t i)) := by
  have ht' : (w₁.settle t i l p).threads[t]? = some (p.activity i) := by
    rw [World.settle_eq]
    exact List.getElem?_set_self hlt
  unfold after
  simp only [ht, ht']
  rcases p with c' | _ | _ | _ | _
  case «over».acquired => rfl
  all_goals exact put_self.symm

/-- The ledger fits the world. -/
structure Fits (L : Ledger) (w : World) : Prop where
  books : ∀ {i l}, w.lock? i = some l → ¬ w.IsRetiring i → ∀ t,
    l.Books t (L t i) (w.callOn i t)
  /-- Nobody has anything of a lock that was dropped, is being dropped, or is not there yet. -/
  closed : ∀ {i}, w.lock? i = none ∨ w.IsRetiring i → ∀ t, L t i = {}

theorem Fits.congr (h : L.Fits w) (hl : w'.lock? = w.lock?) (hc : w'.callOn = w.callOn) :
    L.Fits w' := by
  have hret : w'.IsRetiring = w.IsRetiring := by funext i; unfold World.IsRetiring; rw [hc]
  obtain ⟨h1, h2⟩ := h
  constructor
  · rw [hl, hret, hc]; exact h1
  · rw [hl, hret]; exact h2

/-- A step of a thread and what it returns keep the ledger fitting. -/
theorem Fits.settle {c : Call} {l : PortLock} {r : Reply} (h : L.Fits w) (ho : w.Orderly)
    (ht : w.threads[t]? = some (.busy i c)) (hl : w.lock? i = some l) :
    (L.put t i ((l.step t c r).2.tenure (L t i))).Fits
      (w.settle t i (l.step t c r).1 (l.step t c r).2) := by
  have hc : w.callOn i t = some c := World.callOn_eq_some.mpr ht
  have hstands : l.Stands t (some c) := hc ▸ ho.stands hl t
  have hdrop := PortLock.isDrop_step l t c r
  have hcall := World.callOn_settle ht (l.step t c r).1 (l.step t c r).2
  have hlock := World.lock?_settle hl t (l.step t c r).1 (l.step t c r).2
  constructor
  · intro j l' hl' hnot t'
    have hnot₀ := World.not_isRetiring_of_settle ht hl hl' hnot
    rw [hlock] at hl'
    rw [hcall]
    by_cases hji : j = i
    · subst hji
      rw [if_pos rfl] at hl'
      rw [Progress.slot_eq_some hl']
      by_cases htt : t' = t
      · subst htt
        rw [if_pos rfl, if_pos rfl, put_same]
        have hbooks := h.books hl hnot₀ t'
        rw [hc] at hbooks
        refine hbooks.step r hstands ?_
        rcases hd : c.isDrop with _ | _
        · rfl
        · exact absurd ⟨t', c, hc, hd⟩ hnot₀
      · rw [if_neg htt, put_of_ne fun hh => htt hh.1]
        exact (h.books hl hnot₀ t').of_step r htt hstands
    · rw [if_neg hji] at hl'
      rw [put_of_ne fun hh => hji hh.2]
      have hbooks := h.books hl' hnot₀ t'
      by_cases htt : t' = t
      · subst htt
        rwa [if_pos rfl, if_neg (Ne.symm hji), ← World.callOn_of_busy hc hji]
      · rwa [if_neg htt]
  · intro j hj t'
    have hold := World.leaving_of_settle ht hl hj
    have hempty := h.closed hold
    by_cases hput : t' = t ∧ j = i
    · obtain ⟨rfl, rfl⟩ := hput
      rw [put_same, hempty]
      rcases hold with hnone | ⟨t'', c'', hc'', hd⟩
      · cases hnone.symm.trans hl
      · have hsame : t'' = t' := by
          by_cases htt : t'' = t'
          · exact htt
          · cases hd.symm.trans (ho.not_isDrop hc hc'' htt)
        subst hsame
        obtain rfl := Option.some.inj (hc.symm.trans hc'')
        exact Progress.tenure_of_isDrop (hdrop.trans hd)
    · rw [put_of_ne hput]
      exact hempty t'

/-- A call that does not drop its lock begins with the tenure it is begun with. -/
theorem Fits.opened (kind : CallKind) {last : Option Ending} {l : PortLock} {T : Tenure}
    (h : L.Fits w) (hl : w.lock? i = some l) (ht : w.threads[t]? = some (.free last))
    (hrest : ¬ w.IsRetiring i) (hkind : kind ≠ .drop)
    (hT : ∀ {l : PortLock}, l.Books t (L t i) none → l.Books t T (some kind.call)) :
    (L.put t i T).Fits { w with threads := w.threads.set t (.busy i kind.call) } := by
  have hcall := World.callOn_set ht (.busy i kind.call)
  have hnone : ∀ j, w.callOn j t = none := fun j => by unfold World.callOn; rw [ht]
  constructor
  · intro j l' hl' hnot t'
    have hbooks := h.books hl' (fun hr => hnot (hr.begun ht _)) t'
    rw [hcall]
    by_cases htt : t' = t
    · subst htt
      rw [hnone] at hbooks
      rw [if_pos rfl]
      show l'.Books t' _ (if i = j then some kind.call else none)
      by_cases hij : i = j
      · subst hij
        rw [if_pos rfl, put_same]
        exact hT hbooks
      · rw [if_neg hij, put_of_ne fun hh => hij hh.2.symm]
        exact hbooks
    · rw [if_neg htt, put_of_ne fun hh => htt hh.1]
      exact hbooks
  · intro j hj t'
    have hold : w.lock? j = none ∨ w.IsRetiring j := by
      rcases hj with hj | hj
      · exact .inl hj
      · rcases World.isRetiring_of_begun kind ht hj with hj | ⟨-, hd⟩
        · exact .inr hj
        · exact absurd hd hkind
    have hji : j ≠ i := by
      rintro rfl
      rcases hold with hnone | hr
      · cases hnone.symm.trans hl
      · exact hrest hr
    rw [put_of_ne fun hh => hji hh.2]
    exact h.closed hold t'

/-- A lock that begins to be dropped is struck from the ledger. -/
theorem Fits.struck {last : Option Ending} (h : L.Fits w)
    (ht : w.threads[t]? = some (.free last)) :
    (L.strike i).Fits { w with threads := w.threads.set t (.busy i .drop) } := by
  have hcall := World.callOn_set ht (.busy i .drop)
  have hnone : ∀ j, w.callOn j t = none := fun j => by unfold World.callOn; rw [ht]
  constructor
  · intro j l' hl' hnot t'
    have hji : j ≠ i := by
      rintro rfl
      exact hnot ⟨t, .drop, by rw [hcall, if_pos rfl]; exact if_pos rfl, rfl⟩
    have hbooks := h.books hl' (fun hr => hnot (hr.begun ht _)) t'
    have hsame : ({ w with threads := w.threads.set t (.busy i .drop) } : World).callOn j t' =
        w.callOn j t' := by
      rw [hcall]
      split
      · next htt => rw [htt, hnone]; exact if_neg (Ne.symm hji)
      · rfl
    rw [hsame]
    unfold strike
    rwa [if_neg hji]
  · intro j hj t'
    unfold strike
    by_cases hji : j = i
    · exact if_pos hji
    · rw [if_neg hji]
      refine h.closed ?_ t'
      rcases hj with hj | hj
      · exact .inl hj
      · rcases World.isRetiring_of_begun .drop ht hj with hj | ⟨hji', -⟩
        · exact .inr hj
        · exact absurd hji' hji

/-- A new lock has an empty page. -/
theorem Fits.lockMade (h : L.Fits w) (ho : w.Orderly) (s : Settings) :
    L.Fits { w with locks := w.locks ++ [some { settings := s }] } := by
  constructor
  · intro j l hl hnot t
    rcases World.lock?_lockMade hl with hl | ⟨hnone, rfl⟩
    · exact h.books hl hnot t
    · show PortLock.Books _ t (L t j) (w.callOn j t)
      rw [h.closed (.inl hnone)]
      rcases hc : w.callOn j t with _ | c
      · exact ⟨rfl, fun hb => by cases hb⟩
      · obtain ⟨l, hl⟩ := ho.present hc
        cases hnone.symm.trans hl
  · intro j hj t
    refine h.closed ?_ t
    rcases hj with hj | hj
    · rcases hl : w.lock? j with _ | l
      · exact .inl rfl
      · have hlt := World.lock?_lt hl
        unfold World.lock? at hj hl
        rw [List.getElem?_append_left hlt, hl] at hj
        cases hj
    · exact .inr hj

/-- A sleeper that wakes has nothing entered. -/
theorem Fits.stirred {l : PortLock} (h : L.Fits w) (hl : w.lock? i = some l) :
    L.Fits { w with locks := w.locks.set i (some { l with gate := l.gate.stir t }) } := by
  constructor
  · intro j l₁ hl₁ hnot t'
    obtain ⟨l₀, hl₀, asleep, rfl⟩ := World.lock?_stirred hl hl₁
    obtain ⟨hcounts, hbound⟩ := h.books hl₀ hnot t'
    exact ⟨hcounts, hbound⟩
  · intro j hj t'
    refine h.closed ?_ t'
    rcases hj with hj | hj
    · have hj := (World.lock?_set (World.lock?_lt hl)).symm.trans hj
      split at hj
      · cases hj
      · exact .inl hj
    · exact .inr hj

/-- Every event keeps the ledger fitting. -/
theorem Fits.happened {e : Event} (h : L.Fits w) (ho : w.Orderly) (he : w.Happened e w') :
    (L.after w e w').Fits w' := by
  rcases he with ⟨ht, hl, hs⟩ | ⟨-, -⟩ | ⟨-, -⟩ | ⟨-, hs⟩ | ⟨hl, ht, hfree⟩ | ⟨hl⟩ | s | _ | ⟨-⟩ |
    ⟨x, d⟩ | ⟨⟨-, -⟩⟩
  case threadStep =>
    have hserved := World.served_of_serve? hs
    have h₁ := h.congr (World.lock?_congr hserved.locks) (World.callOn_congr hserved.threads)
    have ho₁ := ho.congr hserved.locks hserved.threads
    have ht₁ := hserved.threads ▸ ht
    rw [after_threadStep ht (List.getElem?_eq_some_iff.mp ht₁).1]
    exact h₁.settle ho₁ ht₁ (by rwa [hserved.lock?])
  case workerStep => exact h.congr rfl rfl
  case attendantStep => exact h.congr rfl rfl
  case occupantStep =>
    obtain ⟨_, _, rfl⟩ := World.stepOccupant?_eq_some hs
    exact h.congr rfl rfl
  case begun t i kind _ _ =>
    have hrest : ¬ w.IsRetiring i := fun ⟨t', c, hc, hd⟩ => by simp [(hfree t' c hc).2] at hd
    cases kind
    case acquire =>
      have hopen := h.opened .acquire hl ht hrest (by decide) PortLock.Books.acquire
      rwa [put_self] at hopen
    case release => exact h.opened .release hl ht hrest (by decide) PortLock.Books.release
    case drop => exact h.struck ht
  case stirred => exact h.stirred hl
  case lockMade => exact h.lockMade ho s
  case threadMade => exact h.congr rfl (World.callOn_threadMade w)
  case called => exact h.congr rfl rfl
  case done =>
    obtain ⟨_, hd⟩ := World.deed_eq w x d
    rw [hd]
    exact h.congr rfl rfl
  case shuffled => exact h.congr rfl rfl

end Ledger

end LoopbackLock
