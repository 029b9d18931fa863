import LoopbackLock.Proofs.Occupant.Facing

/-!
# A holder that falls silent

A contender and a decoy that answers `k` connections make their steps in any order
(`Standoff.Play`). The contender finds the decoy alive as long as it is answered: it waits on its
second connection and confirms the decoy on each later one, up to the `k`-th. The next challenge
meets silence. If that is one of the first two, the port is in use by something else; otherwise the
holder has vanished, and the policy decides whether the lock is assumed or the port tried again,
which meets the same silence. In no way does the acquisition go on for ever: every step of the
contender is one of finitely many (`World.toGo`), and where it waits for an answer that will come
the decoy has as few left to make (`Standoff.met_by_silence`). There are such plays: the two can
make their steps by turns (`Standoff.exists_play`).
-/

namespace LoopbackLock

namespace World

variable {w w' : World}

/-- The contender makes a step, and the system serves it. -/
def Contends (w w' : World) : Prop :=
  ∃ l c chance, w.lock? 0 = some l ∧ w.threads[0]? = some (.busy 0 c) ∧
    Standoff.Serves w l.settings c chance ∧ w.step? (.thread 0) chance = some w'

/-- The decoy makes a step, and the system does its part. -/
def Attends (w w' : World) : Prop :=
  ∃ d chance, w.occupants[0]? = some (.decoy d) ∧ d.Granted chance ∧
    w.step? (.occupant 0) chance = some w'

/-- Steps of a kind can change a world. -/
def Moves (kind : World → World → Prop) (w : World) : Prop := ∃ w', kind w w' ∧ w' ≠ w

/-- The acquisition has returned. -/
def IsOver (w : World) : Prop := ∃ ending, w.threads = [.free (some ending)]

end World

open World

namespace Standoff

variable {s : Settings} {k m : Nat} {l : PortLock} {a : Activity} {c : Call} {d : Decoy}
variable {chance : Chance} {w w' : World} {f : Nat → World}

/-! ## The decoy -/

/-- A step of the decoy leaves the contender where it is. It brings an answer nearer that is still
to be given, unless it is a read or a write that was interrupted. -/
theorem Faces.attended (hfaces : Faces s k m w) (hd : w.occupants[0]? = some (.decoy d))
    (hg : d.Granted chance) (h : w.step? (.occupant 0) chance = some w') :
    Faces s k m w' ∧ w'.threads = w.threads ∧ (w'.toGo k < w.toGo k ∨
      w'.toGo k = w.toGo k ∧ (0 < w.due → w' = w ∧ ∃ f, chance = .fail f)) := by
  cases hfaces with
  | @resting l a links backlog answered stage hl hpause hsettled hrested =>
    cases Option.some.inj hd
    rw [step_decoy] at h
    obtain ⟨⟨d', n'⟩, hstep, rfl⟩ := Option.map_eq_some_iff.mp h
    have hlength : answered.length = min links.length k := by
      rw [hrested.answered, List.length_range]
    have hdone : links.length ≤ answered.length ∨ k ≤ answered.length := by omega
    have hempty : answered.length < k → backlog = [] := by
      intro hlt
      have hall : min links.length k = links.length := by omega
      rw [hrested.backlog, hall, Nat.sub_self]
      rfl
    obtain ⟨stage', hidle, rfl, rfl⟩ := Decoy.step_idle (hlength ▸ hrested.idle) hempty hstep
    have hnone : (Decoy.fading k answered stage).strides links.length = 0 :=
      Decoy.strides_idle hrested.idle hdone
    refine ⟨.resting hl hpause hsettled ⟨hlength ▸ hidle, hrested.answered, hrested.backlog⟩, rfl,
      .inr ⟨?_, ?_⟩⟩
    · rw [toGo_scene, toGo_scene, hnone, Decoy.strides_idle hidle hdone]
    · rw [due_scene, hnone]
      exact fun hpos => absurd hpos (Nat.lt_irrefl 0)
  | @talking l f ch before source asked unheard said unread pending stage backlog answered hl hfront
      hsettled hreception hasks hread hopen =>
    cases Option.some.inj hd
    rw [step_decoy] at h
    obtain ⟨⟨d', n'⟩, hstep, rfl⟩ := Option.map_eq_some_iff.mp h
    have hasked : asked = [] ∨ asked = Challenge.question := by
      cases hasks
      case listening => exact .inr rfl
      all_goals exact .inl rfl
    obtain ⟨unheard', more, answered', stage', backlog', hreception', rfl, rfl, hcases⟩ :=
      hreception.step rfl hasked hg hstep
    have hread' : pending ++ (unread ++ more) = said ++ more := by rw [← hread, List.append_assoc]
    refine ⟨.talking hl hfront hsettled hreception' hasks hread' hopen, rfl, ?_⟩
    rw [toGo_scene, toGo_scene, due_scene]
    simp only [List.length_append, List.length_singleton]
    rcases hcases with hless | ⟨⟨rfl, rfl, rfl, rfl⟩, hsame, hpos⟩
    · exact .inl (by omega)
    · refine .inr ⟨by rw [hsame], fun hdue => ?_⟩
      obtain ⟨rfl, hfail⟩ := hpos (by rwa [hsame])
      exact ⟨by rw [List.append_nil, List.append_nil], hfail⟩

/-! ## Plays -/

/-- The contender is about to acquire a lock with these settings, and the decoy has the port. -/
def opening (s : Settings) (k : Nat) : World :=
  scene { settings := s } (.busy 0 .acquire) (.fading k [] .checking)
    (.decoyed { host := .loopback, port := s.port } [] [])

/-- What can be reached from there, and how many times the contender has confirmed the holder
again on the way. -/
inductive Faced (s : Settings) (k : Nat) : Nat → World → Prop
  | opening : Faced s k 0 (opening s k)
  | contends {m : Nat} {w w' : World} (h : Faced s k m w) (hstep : w.Contends w') :
    Faced s k (m + w'.confirms) w'
  | attends {m : Nat} {w w' : World} (h : Faced s k m w) (hstep : w.Attends w') : Faced s k m w'

/-- The contender and the decoy make steps, and neither is held up for ever while it could make one
that changes anything. -/
structure Play (s : Settings) (k : Nat) (f : Nat → World) : Prop where
  opens : f 0 = opening s k
  step : ∀ i, f (i + 1) = f i ∨ (f i).Contends (f (i + 1)) ∨ (f i).Attends (f (i + 1))
  contends : ∀ i, ∃ j, i ≤ j ∧
    (¬(f j).Moves Contends ∨ (f j).Contends (f (j + 1)) ∧ f (j + 1) ≠ f j)
  attends : ∀ i, ∃ j, i ≤ j ∧
    (¬(f j).Moves Attends ∨ (f j).Attends (f (j + 1)) ∧ f (j + 1) ≠ f j)

theorem Play.faced (hplay : Play s k f) (i : Nat) : ∃ m, Faced s k m (f i) := by
  induction i with
  | zero =>
    rw [hplay.opens]
    exact ⟨0, .opening⟩
  | succ i ih =>
    obtain ⟨m, hm⟩ := ih
    rcases hplay.step i with hsame | hc | ha
    · exact ⟨m, hsame ▸ hm⟩
    · exact ⟨_, hm.contends hc⟩
    · exact ⟨m, hm.attends ha⟩

theorem Faces.settings (hfaces : Faces s k m w) (hl : w.lock? 0 = some l) : l.settings = s := by
  cases hfaces with
  | resting hsettings | talking hsettings =>
    cases Option.some.inj hl
    exact hsettings

/-- A step of the contender that changes anything leads on. -/
theorem Faces.contended (hvalid : s.validate = .ok s) (hfaces : Faces s k m w)
    (h : w.Contends w') : w' = w ∧ w.confirms = 0 ∨ Advances s k m w w' := by
  obtain ⟨l, c, chance, hl, hc, hserves, hstep⟩ := h
  obtain rfl := hfaces.settings hl
  rcases hfaces.step hvalid hc hserves hstep with ⟨-, hsame⟩ | hadvances
  · exact .inl hsame
  · exact .inr hadvances

theorem Faced.faces (hvalid : s.validate = .ok s) (hhost : s.host = .loopback)
    (h : Faced s k m w) : Faces s k m w := by
  induction h with
  | opening =>
    have hendpoint : { host := .loopback, port := s.port } = s.endpoint := by
      rw [Settings.endpoint, hhost]
    have hzero : 0 = min ([] : List Link).length k - 2 := by simp
    rw [Standoff.opening, hendpoint, hzero]
    refine .resting rfl (.entering rfl) (fun i l hl => by cases hl) ⟨.inl rfl, ?_, ?_⟩ <;> simp
  | contends _ hstep ih =>
    rcases ih.contended hvalid hstep with ⟨rfl, hnone⟩ | hadvances
    · rwa [hnone]
    · exact hadvances.1
  | attends _ hstep ih =>
    obtain ⟨d, chance, hd, hg, hstep⟩ := hstep
    exact (ih.attended hd hg hstep).1

/-! ## The end of a play -/

theorem Pause.over_or_busy (hpause : Pause s k l m a) :
    (∃ ending, a = .free (some ending) ∧ Ends s k m ending) ∨ ∃ c, a = .busy 0 c := by
  cases hpause
  case returned hends => exact .inl ⟨_, rfl, hends⟩
  all_goals exact .inr ⟨_, rfl⟩

theorem Faces.over_or_busy (hfaces : Faces s k m w) :
    w.IsOver ∨ ∃ l c, w.lock? 0 = some l ∧ w.threads[0]? = some (.busy 0 c) := by
  cases hfaces with
  | resting _ hpause =>
    rcases hpause.over_or_busy with ⟨ending, rfl, -⟩ | ⟨c, rfl⟩
    · exact .inl ⟨ending, rfl⟩
    · exact .inr ⟨_, c, rfl, rfl⟩
  | talking => exact .inr ⟨_, _, rfl, rfl⟩

/-- As long as the acquisition is not over, the contender has a step that changes something, or an
answer is due and the decoy has one. -/
theorem Faces.can_move (hvalid : s.validate = .ok s) (hfaces : Faces s k m w) (hover : ¬w.IsOver)
    (hport : w.network.HasPort) : w.Moves Contends ∨ 0 < w.due ∧ w.Moves Attends := by
  obtain ⟨l, c, hl, hc⟩ := hfaces.over_or_busy.resolve_left hover
  obtain rfl := hfaces.settings hl
  rcases hfaces.can_step hvalid hc hport with
    ⟨chance, hserves, hfail, hstep⟩ | ⟨hdue, d, chance, hd, hg, hfail, hstep⟩
  · obtain ⟨w', hstep⟩ := Option.isSome_iff_exists.mp hstep
    refine .inl ⟨w', ⟨l, c, chance, hl, hc, hserves, hstep⟩, ?_⟩
    rintro rfl
    rcases hfaces.step hvalid hc hserves hstep with ⟨⟨f, hf⟩, -⟩ | hadvances
    · exact hfail f hf
    · exact Nat.lt_irrefl _ hadvances.2
  · obtain ⟨w', hstep⟩ := Option.isSome_iff_exists.mp hstep
    refine .inr ⟨hdue, w', ⟨d, chance, hd, hg, hstep⟩, ?_⟩
    rintro rfl
    obtain ⟨-, -, hless | ⟨-, hinterrupted⟩⟩ := hfaces.attended hd hg hstep
    · exact Nat.lt_irrefl _ hless
    · obtain ⟨-, f, hf⟩ := hinterrupted hdue
      exact hfail f hf

/-- A step of a play brings it nearer to its end, or it leaves the contender where it is, and
changes nothing while an answer is due. -/
theorem Play.onward (hvalid : s.validate = .ok s) (hhost : s.host = .loopback) (hplay : Play s k f)
    (i : Nat) : (f (i + 1)).toGo k < (f i).toGo k ∨ (f (i + 1)).toGo k = (f i).toGo k ∧
      (f (i + 1) ≠ f i → (f i).due = 0 ∧ ¬(f i).Contends (f (i + 1))) := by
  obtain ⟨m, hfaced⟩ := hplay.faced i
  have hfaces := hfaced.faces hvalid hhost
  by_cases hless : (f (i + 1)).toGo k < (f i).toGo k
  · exact .inl hless
  have hcontends (hc : (f i).Contends (f (i + 1))) : f (i + 1) = f i := by
    rcases hfaces.contended hvalid hc with ⟨hsame, -⟩ | hadvances
    · exact hsame
    · exact absurd hadvances.2 hless
  refine .inr ?_
  rcases hplay.step i with hsame | hc | ⟨d, chance, hd, hg, hstep⟩
  · exact ⟨by rw [hsame], fun hne => absurd hsame hne⟩
  · exact ⟨by rw [hcontends hc], fun hne => absurd (hcontends hc) hne⟩
  · obtain ⟨-, -, hcases⟩ := hfaces.attended hd hg hstep
    obtain ⟨heq, hdue⟩ := hcases.resolve_left hless
    refine ⟨heq, fun hne => ⟨?_, fun hc => hne (hcontends hc)⟩⟩
    exact Nat.eq_zero_of_not_pos fun hpos => hne (hdue hpos).1

/-- Where nothing changes any more, steps that are not held up cannot change anything. -/
theorem not_moves_of_still {kind : World → World → Prop} {i : Nat} (hstill : ∀ t, f (i + t) = f i)
    (hfair : ∃ j, i ≤ j ∧ (¬(f j).Moves kind ∨ kind (f j) (f (j + 1)) ∧ f (j + 1) ≠ f j)) :
    ¬(f i).Moves kind := by
  obtain ⟨j, hle, hfair⟩ := hfair
  obtain ⟨t, rfl⟩ := Nat.exists_eq_add_of_le hle
  rcases hfair with hno | ⟨-, hne⟩
  · rwa [hstill t] at hno
  · exact absurd ((hstill (t + 1)).trans (hstill t).symm) hne

/-- As long as the acquisition does not return, a play comes nearer to its end. -/
theorem Play.nearer (hvalid : s.validate = .ok s) (hhost : s.host = .loopback)
    (hplay : Play s k f) (hport : ∀ i, (f i).network.HasPort) (hnever : ∀ i, ¬(f i).IsOver)
    (i : Nat) : ∃ j, (f j).toGo k < (f i).toGo k := by
  refine Classical.byContradiction fun hno => ?_
  have hmove (j : Nat) : (f j).Moves Contends ∨ 0 < (f j).due ∧ (f j).Moves Attends := by
    obtain ⟨m, hfaced⟩ := hplay.faced j
    exact (hfaced.faces hvalid hhost).can_move hvalid (hnever j) (hport j)
  have hlevel (j : Nat) : (f (i + j)).toGo k = (f i).toGo k := by
    induction j with
    | zero => rfl
    | succ j ihj =>
      rcases hplay.onward hvalid hhost (i + j) with hless | ⟨hsame, -⟩
      · exact absurd ⟨_, ihj ▸ hless⟩ hno
      · exact hsame.trans ihj
  have hquiet (j : Nat) (hne : f (i + j + 1) ≠ f (i + j)) :
      (f (i + j)).due = 0 ∧ ¬(f (i + j)).Contends (f (i + j + 1)) := by
    rcases hplay.onward hvalid hhost (i + j) with hless | ⟨-, hquiet⟩
    · exact absurd ⟨_, hlevel j ▸ hless⟩ hno
    · exact hquiet hne
  by_cases hdue : ∃ j, 0 < (f (i + j)).due
  · -- An answer is due: nothing changes, although the contender or the decoy could move.
    obtain ⟨j, hpos⟩ := hdue
    have hstill (t : Nat) : f (i + j + t) = f (i + j) := by
      induction t with
      | zero => rfl
      | succ t iht =>
        refine Classical.byContradiction fun hne => ?_
        have hstep : f (i + (j + t) + 1) ≠ f (i + (j + t)) := by
          rw [← Nat.add_assoc, iht]
          exact hne
        have hzero := (hquiet (j + t) hstep).1
        rw [← Nat.add_assoc, iht] at hzero
        exact absurd hzero (Nat.ne_of_gt hpos)
    rcases hmove (i + j) with hmoves | ⟨-, hmoves⟩
    · exact not_moves_of_still hstill (hplay.contends _) hmoves
    · exact not_moves_of_still hstill (hplay.attends _) hmoves
  · -- No answer is due: the contender can always move, but it never does.
    obtain ⟨t, hle, hfair⟩ := hplay.contends i
    obtain ⟨t, rfl⟩ := Nat.exists_eq_add_of_le hle
    rcases hfair with hstuck | ⟨hc, hne⟩
    · rcases hmove (i + t) with hmoves | ⟨hpos, -⟩
      · exact hstuck hmoves
      · exact hdue ⟨t, hpos⟩
    · exact (hquiet t hne).2 hc

/-- In every play the acquisition returns. -/
theorem Play.returns (hvalid : s.validate = .ok s) (hhost : s.host = .loopback)
    (hplay : Play s k f) (hport : ∀ i, (f i).network.HasPort) : ∃ i, (f i).IsOver := by
  refine Classical.byContradiction fun hnever => ?_
  have hnever (i : Nat) : ¬(f i).IsOver := fun hover => hnever ⟨i, hover⟩
  suffices hstuck : ∀ n i, (f i).toGo k = n → False from hstuck _ 0 rfl
  intro n
  induction n using Nat.strongRecOn with
  | ind n ih =>
    intro i hi
    obtain ⟨j, hless⟩ := hplay.nearer hvalid hhost hport hnever i
    exact ih _ (hi ▸ hless) j rfl

/-! ## There is a play -/

/-- Two ways to go on, by turns. -/
def byTurns (g h : World → World) (w : World) : Nat → World
  | 0 => w
  | i + 1 => if i % 2 = 0 then g (byTurns g h w i) else h (byTurns g h w i)

/-- Steps of a kind can be made wherever they change anything. -/
theorem exists_moving (kind : World → World → Prop) :
    ∃ g : World → World, ∀ w, ¬w.Moves kind ∧ g w = w ∨ kind w (g w) ∧ g w ≠ w := by
  refine Classical.axiomOfChoice
    (r := fun w w' => ¬w.Moves kind ∧ w' = w ∨ kind w w' ∧ w' ≠ w) fun w => ?_
  by_cases hmoves : w.Moves kind
  · obtain ⟨w', hstep, hne⟩ := hmoves
    exact ⟨w', .inr ⟨hstep, hne⟩⟩
  · exact ⟨w, .inl ⟨hmoves, rfl⟩⟩

/-- The contender and the decoy can make their steps by turns. -/
theorem exists_play (s : Settings) (k : Nat) : ∃ f, Play s k f := by
  obtain ⟨g, hg⟩ := exists_moving Contends
  obtain ⟨h, hh⟩ := exists_moving Attends
  have heven (i : Nat) (hi : i % 2 = 0) :
      byTurns g h (opening s k) (i + 1) = g (byTurns g h (opening s k) i) := if_pos hi
  have hodd (i : Nat) (hi : ¬i % 2 = 0) :
      byTurns g h (opening s k) (i + 1) = h (byTurns g h (opening s k) i) := if_neg hi
  refine ⟨byTurns g h (opening s k), rfl, fun i => ?_, fun i => ⟨2 * i, by omega, ?_⟩,
    fun i => ⟨2 * i + 1, by omega, ?_⟩⟩
  · by_cases hi : i % 2 = 0
    · rw [heven i hi]
      exact (hg _).imp And.right fun hstep => .inl hstep.1
    · rw [hodd i hi]
      exact (hh _).imp And.right fun hstep => .inr hstep.1
  · rw [heven (2 * i) (Nat.mul_mod_right 2 i)]
    exact (hg _).imp_left And.left
  · rw [hodd (2 * i + 1) (by omega)]
    exact (hh _).imp_left And.left

theorem Pause.le (h : Pause s k l m a) : m ≤ k + 2 := by
  have hround {j : Nat} (h : IsRound s k j) : j ≤ k + 2 := by
    rcases h with rfl | ⟨rfl, -⟩ <;> omega
  have hends {j : Nat} {ending : Ending} (h : Ends s k j ending) : j ≤ k + 2 := by
    cases h <;> omega
  cases h
  case announcing h | binding h | yielding h => exact hround h
  case connecting h => exact Nat.le_succ_of_le h.le
  case refused h _ => exact Nat.succ_le_succ h.le
  case failing h | quitting h | returned h => exact hends h
  all_goals omega

theorem Faces.length_le (hfaces : Faces s k m w) : w.network.links.length ≤ k + 2 := by
  cases hfaces with
  | resting _ hpause => exact hpause.le
  | @talking _ _ _ before _ _ _ _ _ _ _ _ _ _ hfront =>
    show (before ++ [_]).length ≤ k + 2
    rw [List.length_append]
    exact Nat.succ_le_succ hfront.le

/-! ## What comes of it -/

/-- How the acquisition ends: the lock is assumed if the policy says so and the holder was confirmed
on two connections before it vanished. -/
def outcome (s : Settings) (k : Nat) : Ending :=
  if 2 ≤ k ∧ s.onVanished = .assume then .acquired .assumed else .failed (refusal s)

/-- How many connections the contender makes: one that is not answered, and another one when the
holder has vanished and the port is tried again. -/
def calls (s : Settings) (k : Nat) : Nat :=
  if 2 ≤ k ∧ s.onVanished = .rebind then k + 2 else k + 1

theorem Ends.outcome {ending : Ending} (h : Ends s k m ending) :
    ending = outcome s k ∧ m = calls s k := by
  cases h with
  | refused hk =>
    have hno : ¬2 ≤ k := Nat.not_le.mpr hk
    exact ⟨(if_neg fun h => hno h.1).symm, (if_neg fun h => hno h.1).symm⟩
  | assumed hk hpolicy => exact ⟨(if_pos ⟨hk, hpolicy⟩).symm, (if_neg (by simp [hpolicy])).symm⟩
  | rebound hk hpolicy => exact ⟨(if_neg (by simp [hpolicy])).symm, (if_pos ⟨hk, hpolicy⟩).symm⟩

/-- What is true once the acquisition is over. -/
structure Concluded (s : Settings) (k confirmed : Nat) (w : World) (ending : Ending) : Prop where
  ending : ending = outcome s k
  /-- The holder was confirmed again as often as it could be. -/
  confirmed : confirmed = k - 2
  connections : w.network.links.length = calls s k
  /-- The decoy has said its answer on the first `k` connections, and nothing on any other. -/
  said : ∀ (i : Nat) (l : Link), w.network.links[i]? = some l →
    l.callee.said = if i < k then Attendance.answer else []
  answered : ∀ d, .decoy d ∈ w.occupants →
    d.answered = List.range (min k w.network.links.length)

/-- A decoy that has answered `k` connections accepts no more: it looks whether it is to stop, and
rests, and all other connections wait. -/
def Sated (k : Nat) (w : World) : Prop :=
  ∀ d, .decoy d ∈ w.occupants → d.answered.length ≤ k ∧ (d.answered.length = k →
    (d.stage = .checking ∨ d.stage = .resting) ∧ ∀ ℓ ∈ w.network.listeners,
      ℓ.backlog = List.range' k (w.network.links.length - k))

theorem Faces.concluded {ending : Ending} (hfaces : Faces s k m w)
    (hover : w.threads = [.free (some ending)]) : Concluded s k m w ending := by
  cases hfaces with
  | @resting l a links backlog answered stage hl hpause hsettled hrested =>
    obtain rfl : a = .free (some ending) := List.singleton_inj.mp hover
    have hends : Ends s k links.length ending := by
      rcases hpause.over_or_busy with ⟨_, hsame, hends⟩ | ⟨c, hbusy⟩
      · cases hsame
        exact hends
      · cases hbusy
    obtain ⟨hending, hcalls⟩ := hends.outcome
    have hle : k + 1 ≤ links.length := by
      rw [hcalls, calls]
      split <;> omega
    refine ⟨hending, by omega, hcalls, fun i l hl => (hsettled i l hl).said, fun d hd => ?_⟩
    cases List.mem_singleton.mp hd
    rw [Nat.min_comm]
    exact hrested.answered
  | talking => cases hover

theorem Faces.sated (hfaces : Faces s k m w) : Sated k w := by
  intro d hd
  cases hfaces with
  | @resting l a links backlog answered stage hl hpause hsettled hrested =>
    cases List.mem_singleton.mp hd
    obtain ⟨hidle, rfl, rfl⟩ := hrested
    show (List.range _).length ≤ k ∧ ((List.range _).length = k → _)
    rw [List.length_range]
    refine ⟨Nat.min_le_right _ _, fun hall => ?_⟩
    rw [hall] at hidle
    refine ⟨DecoyStage.IsIdle.full hidle, fun ℓ hℓ => ?_⟩
    obtain rfl := List.mem_singleton.mp hℓ
    rw [hall]
    rfl
  | @talking l f ch before source asked unheard said unread pending stage backlog answered hl hfront
      hsettled hreception =>
    cases List.mem_singleton.mp hd
    obtain ⟨hle, hfull⟩ := hreception.full
    refine ⟨hle, fun hall => ?_⟩
    obtain ⟨hstage, hbacklog⟩ := hfull hall
    refine ⟨hstage, fun ℓ hℓ => ?_⟩
    obtain rfl := List.mem_singleton.mp hℓ
    show backlog = List.range' k ((before ++ [_]).length - k)
    rw [hbacklog, List.length_append]
    rfl

/-- A contender before a holder that answers `k` connections and then falls silent. However the two
make their steps, the acquisition returns, as long as ports are left for its connections; and when
it has, it has ended as it must, after `k - 2` confirmations, and the first `k` connections were
answered and no other. At no time does the holder accept another connection once it has answered
`k`. -/
theorem met_by_silence (hvalid : s.validate = .ok s) (hhost : s.host = .loopback) (k : Nat) :
    (∀ f, Play s k f → (k + 2 < UInt16.size ∨ ∀ i, (f i).network.HasPort) →
      ∃ i m, Faced s k m (f i) ∧ (f i).IsOver) ∧
    ∀ m w, Faced s k m w → Sated k w ∧
      ∀ ending, w.threads = [.free (some ending)] → Concluded s k m w ending := by
  refine ⟨fun f hplay hport => ?_, fun m w hfaced => ?_⟩
  · have hport (i : Nat) : (f i).network.HasPort := by
      rcases hport with hk | hport
      · obtain ⟨m, hfaced⟩ := hplay.faced i
        have hle := (hfaced.faces hvalid hhost).length_le
        exact Network.hasPort_of_length_lt (Nat.lt_of_le_of_lt hle hk)
      · exact hport i
    obtain ⟨i, hover⟩ := hplay.returns hvalid hhost hport
    obtain ⟨m, hfaced⟩ := hplay.faced i
    exact ⟨i, m, hfaced, hover⟩
  · have hfaces := hfaced.faces hvalid hhost
    exact ⟨hfaces.sated, fun ending hover => hfaces.concluded hover⟩

/-- A holder that answers three connections is confirmed once again; then the lock is assumed. -/
theorem met_by_silence_thrice : ({ onVanished := .assume } : Settings).validate =
      .ok { onVanished := .assume } ∧
    ({ onVanished := .assume } : Settings).host = .loopback ∧
    ∃ f i, Play { onVanished := .assume } 3 f ∧ Faced { onVanished := .assume } 3 1 (f i) ∧
      (f i).threads = [.free (some (.acquired .assumed))] ∧ (f i).network.links.length = 4 := by
  have hvalid : ({ onVanished := .assume } : Settings).validate = .ok { onVanished := .assume } :=
    rfl
  obtain ⟨f, hplay⟩ := exists_play { onVanished := .assume } 3
  have hmain := met_by_silence hvalid rfl 3
  obtain ⟨i, m, hfaced, ending, hover⟩ := hmain.1 f hplay (.inl (by decide))
  have hend := (hmain.2 m (f i) hfaced).2 ending hover
  obtain rfl : m = 1 := hend.confirmed
  have houtcome : outcome { onVanished := .assume } 3 = .acquired .assumed := by simp [outcome]
  obtain rfl := hend.ending.trans houtcome
  exact ⟨hvalid, rfl, f, i, hplay, hfaced, hover, hend.connections⟩

end Standoff

end LoopbackLock
