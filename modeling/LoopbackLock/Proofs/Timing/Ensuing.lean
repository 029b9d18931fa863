import LoopbackLock.Timing.Course

/-!
# What can ensue in time

A course goes on with a step that is due first. Where several are due at once, any of them may come
first, and between two steps time may pass or somebody from outside may change the state
(`Course.Ensues`). What `Course.proceed` does is one of the things that can ensue
(`Course.reaches_proceed`).

At the instant pace steps take no time, only waits do. Then time passes only while nobody can go on,
and no further than to the end of the first wait that has a limit (`Course.Ensues.cases`).
-/

namespace LoopbackLock

/-- The pace at which only waits take time. -/
def Pace.instant : Pace := { step := 0, wake := 0 }

namespace Course

variable {State Agent : Type} {sys : System State Agent}
variable {outside : State → State → Prop} {c c' c₀ : Course State Agent} {a b : Agent}
variable {d d' : Due Agent} {time : Nat}

/-! ## What is due -/

/-- All that is due. -/
def dues (sys : System State Agent) (c : Course State Agent) : List (Due Agent) :=
  c.seats.filterMap (c.due? sys)

/-- Nothing is due in the past. -/
theorem now_le_of_mem_dues (hd : d ∈ c.dues sys) : c.now ≤ d.time := by
  obtain ⟨s, -, hs⟩ := List.mem_filterMap.mp hd
  unfold due? at hs
  split at hs
  · obtain ⟨limit, -, rfl⟩ := Option.map_eq_some_iff.mp hs
    exact Nat.le_max_left ..
  · cases hs
    exact Nat.le_max_left ..

theorem foldl_sooner (ds : List (Due Agent)) (best : Option (Due Agent)) :
    (ds.foldl sooner best = none → best = none ∧ ds = []) ∧
      ∀ d, ds.foldl sooner best = some d →
        (best = some d ∨ d ∈ ds) ∧ (∀ d' ∈ best, d.time ≤ d'.time) ∧ ∀ d' ∈ ds, d.time ≤ d'.time := by
  induction ds generalizing best with
  | nil =>
    refine ⟨fun h => ⟨h, rfl⟩, fun d hd => ⟨.inl hd, fun d' hd' => ?_, fun _ h => by cases h⟩⟩
    cases (show best = some d from hd).symm.trans hd'
    exact Nat.le_refl _
  | cons e ds ih =>
    obtain ⟨hnone, hsome⟩ := ih (sooner best e)
    have hcases : ∃ f, sooner best e = some f ∧ (f = e ∨ best = some f) ∧ f.time ≤ e.time ∧
        ∀ d' ∈ best, f.time ≤ d'.time := by
      rcases best with _ | b
      · exact ⟨e, rfl, .inl rfl, Nat.le_refl _, fun _ h => by cases h⟩
      · by_cases hlt : e.time < b.time
        · refine ⟨e, if_pos hlt, .inl rfl, Nat.le_refl _, fun d' hd' => ?_⟩
          cases hd'
          exact Nat.le_of_lt hlt
        · refine ⟨b, if_neg hlt, .inr rfl, Nat.le_of_not_lt hlt, fun d' hd' => ?_⟩
          cases hd'
          exact Nat.le_refl _
    obtain ⟨f, hf, horigin, hle, hbest⟩ := hcases
    rw [List.foldl_cons]
    rw [hf] at hnone hsome ⊢
    refine ⟨fun h => (nomatch (hnone h).1), fun d hd => ?_⟩
    obtain ⟨hfrom, hfirst, hrest⟩ := hsome d hd
    have hdf : d.time ≤ f.time := hfirst f rfl
    refine ⟨?_, fun d' hd' => Nat.le_trans hdf (hbest d' hd'), fun d' hd' => ?_⟩
    · rcases hfrom with heq | hmem
      · cases heq
        rcases horigin with rfl | hbest
        · exact .inr List.mem_cons_self
        · exact .inl hbest
      · exact .inr (List.mem_cons_of_mem _ hmem)
    · rcases List.mem_cons.mp hd' with rfl | hmem
      · exact Nat.le_trans hdf hle
      · exact hrest d' hmem

@[simp] theorem notice_agent (s : Seat Agent) : (c.notice sys s).agent = s.agent := by
  unfold notice
  split
  · split <;> rfl
  · rfl

variable [DecidableEq Agent]

/-- Since when an agent has been ready or waiting; one without a seat is ready from now on. -/
def since (c : Course State Agent) (a : Agent) : Nat :=
  ((c.seats.find? (·.agent = a)).map (·.since)).getD c.now

/-! ## What comes next -/

/-- One of the things that come next. -/
inductive Ensues (sys : System State Agent) (outside : State → State → Prop)
    (c : Course State Agent) : Course State Agent → Prop
  | goes {d : Due Agent} (hd : d ∈ (c.seated sys).dues sys)
      (hfirst : ∀ d' ∈ (c.seated sys).dues sys, d.time ≤ d'.time) :
    Ensues sys outside c ((c.seated sys).perform sys d)
  | passes {time : Nat} (hle : c.now ≤ time)
      (hfirst : ∀ d ∈ (c.seated sys).dues sys, time ≤ d.time) :
    Ensues sys outside c { c.seated sys with now := time }
  | meets {state : State} (h : outside c.state state) : Ensues sys outside c { c with state }

/-- All that can come of a course. -/
inductive Reaches (sys : System State Agent) (outside : State → State → Prop)
    (c₀ : Course State Agent) : Course State Agent → Prop
  | here : Reaches sys outside c₀ c₀
  | step {c c' : Course State Agent} (hc : Reaches sys outside c₀ c)
      (he : Ensues sys outside c c') : Reaches sys outside c₀ c'

theorem Reaches.trans (h : Reaches sys outside c₀ c) (h' : Reaches sys outside c c') :
    Reaches sys outside c₀ c' := by
  induction h' with
  | here => exact h
  | step _ he ih => exact .step ih he

/-- Whatever is reached, and however long it takes, the course has gone one of the possible
ways. -/
theorem reaches_proceed (reached : State → Bool) (deadline steps : Nat) (c : Course State Agent) :
    Reaches sys outside c (c.proceed sys reached deadline steps) := by
  induction steps generalizing c with
  | zero => exact .here
  | succ steps ih =>
    unfold proceed
    split
    · exact .here
    · obtain ⟨hnone, hsome⟩ := foldl_sooner ((c.seated sys).dues sys) none
      have hwait : (∀ d ∈ (c.seated sys).dues sys, deadline ≤ d.time) →
          Reaches sys outside c { c.seated sys with now := max c.now deadline } := fun hlate =>
        .step .here (.passes (Nat.le_max_left ..) fun d hd =>
          Nat.max_le.mpr ⟨now_le_of_mem_dues (c := c.seated sys) hd, hlate d hd⟩)
      simp only
      split
      · next d hd =>
        obtain ⟨hmem, -, hfirst⟩ := hsome d hd
        split
        · exact Reaches.trans (.step .here (.goes (hmem.resolve_left nofun) hfirst)) (ih _)
        · next hlate =>
          exact hwait fun d' hd' => Nat.le_of_lt (Nat.lt_of_lt_of_le (Nat.not_le.mp hlate)
            (hfirst d' hd'))
      · next hd =>
        refine hwait fun d' hd' => ?_
        rw [(hnone hd).2] at hd'
        cases hd'

/-! ## Seats -/

/-- The seat an agent has before it notices anything. -/
def seat (c : Course State Agent) (a : Agent) : Seat Agent :=
  (c.seats.find? (·.agent = a)).getD ⟨a, c.now, false⟩

theorem seat_agent (c : Course State Agent) (a : Agent) : (c.seat a).agent = a := by
  unfold seat
  cases hs : c.seats.find? (·.agent = a) with
  | none => rfl
  | some s => simpa using List.find?_some hs

theorem seat_since (c : Course State Agent) (a : Agent) : (c.seat a).since = c.since a := by
  unfold seat since
  cases c.seats.find? (·.agent = a) <;> rfl

theorem find?_map_agent {f : Agent → Seat Agent} (hf : ∀ b, (f b).agent = b) (as : List Agent) :
    (as.map f).find? (·.agent = a) = if a ∈ as then some (f a) else none := by
  induction as with
  | nil => rfl
  | cons b as ih =>
    rw [List.map_cons, List.find?_cons, hf]
    by_cases hba : b = a
    · subst hba
      simp
    · rw [ih]
      simp [hba, Ne.symm hba]

/-- The seat of an agent of the state. -/
theorem find?_seated (a : Agent) : (c.seated sys).seats.find? (·.agent = a) =
    if a ∈ sys.agents c.state then some (c.notice sys (c.seat a)) else none :=
  find?_map_agent (fun b => (notice_agent _).trans (c.seat_agent b)) _

/-- Since when an agent has been ready or waiting, once it has noticed how things are. -/
theorem since_seated (a : Agent) : (c.seated sys).since a =
    if a ∈ sys.agents c.state then (c.notice sys (c.seat a)).since else c.now := by
  unfold since
  rw [find?_seated]
  split <;> rfl

theorem mem_dues_seated : d ∈ (c.seated sys).dues sys ↔
    ∃ a ∈ sys.agents c.state, (c.seated sys).due? sys (c.notice sys (c.seat a)) = some d := by
  unfold dues
  rw [List.mem_filterMap]
  constructor
  · rintro ⟨s, hs, hd⟩
    obtain ⟨a, ha, rfl⟩ := List.mem_map.mp hs
    exact ⟨a, ha, hd⟩
  · rintro ⟨a, ha, hd⟩
    exact ⟨_, List.mem_map_of_mem ha, hd⟩

/-! ## The instant pace -/

/-- Only waits take time. -/
structure IsInstant (c : Course State Agent) : Prop where
  pace : c.pace = .instant
  past : ∀ s ∈ c.seats, s.since ≤ c.now

theorem IsInstant.since_le (hc : c.IsInstant) (a : Agent) : c.since a ≤ c.now := by
  unfold since
  cases hs : c.seats.find? (·.agent = a) with
  | none => exact Nat.le_refl _
  | some s => exact hc.past s (List.mem_of_find?_eq_some hs)

/-- An agent that can go on is due now, one that cannot when the limit of its wait is over. -/
theorem IsInstant.notice_cases (hc : c.IsInstant) (sys : System State Agent) (a : Agent) :
    (sys.step? c.state a .plain).isSome = true ∧ (c.notice sys (c.seat a)).waits = false ∧
        c.since a ≤ (c.notice sys (c.seat a)).since ∧ (c.notice sys (c.seat a)).since ≤ c.now ∨
      sys.step? c.state a .plain = none ∧ (c.notice sys (c.seat a)).waits = true ∧
        (c.notice sys (c.seat a)).since = c.since a := by
  unfold notice
  rw [seat_agent]
  by_cases hstep : (sys.step? c.state a .plain).isSome = true
  · left
    rw [if_pos hstep]
    refine ⟨hstep, ?_⟩
    by_cases hwaits : (c.seat a).waits = true
    · rw [if_pos hwaits, hc.pace]
      exact ⟨rfl, hc.since_le a, Nat.le_refl _⟩
    · rw [if_neg hwaits, seat_since]
      exact ⟨by simpa using hwaits, Nat.le_refl _, hc.since_le a⟩
  · right
    rw [if_neg hstep]
    exact ⟨by simpa using hstep, rfl, c.seat_since a⟩

theorem IsInstant.seated (hc : c.IsInstant) : (c.seated sys).IsInstant where
  pace := hc.pace
  past s hs := by
    obtain ⟨a, -, rfl⟩ := List.mem_map.mp hs
    rcases hc.notice_cases sys a with ⟨-, -, -, hle⟩ | ⟨-, -, heq⟩
    · exact hle
    · exact Nat.le_trans (Nat.le_of_eq heq) (hc.since_le a)

/-- What is due: an agent that can go on, at once, or one whose wait is over, at its end. -/
theorem IsInstant.due_cases (hc : c.IsInstant) (hd : d ∈ (c.seated sys).dues sys) :
    d.agent ∈ sys.agents c.state ∧
      ((sys.step? c.state d.agent .plain).isSome = true ∧ d.chance = .plain ∧ d.time = c.now ∨
        sys.step? c.state d.agent .plain = none ∧ d.chance = .expire ∧
          ∃ limit, sys.limit? c.state d.agent = some limit ∧
            d.time = max c.now (c.since d.agent + limit * 1000)) := by
  obtain ⟨a, ha, hdue⟩ := mem_dues_seated.mp hd
  have hagent : (c.notice sys (c.seat a)).agent = a := (notice_agent _).trans (c.seat_agent a)
  unfold due? at hdue
  rw [hagent] at hdue
  rcases hc.notice_cases sys a with ⟨hstep, hwaits, -, hle⟩ | ⟨hstep, hwaits, hsince⟩
  · rw [hwaits] at hdue
    cases hdue
    exact ⟨ha, .inl ⟨hstep, rfl, Nat.max_eq_left hle⟩⟩
  · rw [if_pos hwaits] at hdue
    obtain ⟨limit, hlimit, rfl⟩ := Option.map_eq_some_iff.mp hdue
    exact ⟨ha, .inr ⟨hstep, rfl, limit, hlimit, by rw [hsince]; rfl⟩⟩

/-- An agent that can go on is due now. -/
theorem IsInstant.ready_due (hc : c.IsInstant) (ha : a ∈ sys.agents c.state)
    (hstep : (sys.step? c.state a .plain).isSome = true) :
    ⟨c.now, a, .plain⟩ ∈ (c.seated sys).dues sys := by
  refine mem_dues_seated.mpr ⟨a, ha, ?_⟩
  have hagent : (c.notice sys (c.seat a)).agent = a := (notice_agent _).trans (c.seat_agent a)
  rcases hc.notice_cases sys a with ⟨-, hwaits, -, hle⟩ | ⟨hnone, -⟩
  · unfold due?
    rw [if_neg (by simp [hwaits]), hagent]
    exact congrArg (fun time => some (⟨time, a, .plain⟩ : Due Agent)) (Nat.max_eq_left hle)
  · rw [hnone] at hstep
    cases hstep

/-- An agent that waits is due when the limit of its wait is over. -/
theorem IsInstant.waiting_due (hc : c.IsInstant) (ha : a ∈ sys.agents c.state)
    (hstep : sys.step? c.state a .plain = none) {limit : Nat}
    (hlimit : sys.limit? c.state a = some limit) :
    ⟨max c.now (c.since a + limit * 1000), a, .expire⟩ ∈ (c.seated sys).dues sys := by
  refine mem_dues_seated.mpr ⟨a, ha, ?_⟩
  have hagent : (c.notice sys (c.seat a)).agent = a := (notice_agent _).trans (c.seat_agent a)
  rcases hc.notice_cases sys a with ⟨hsome, -⟩ | ⟨-, hwaits, hsince⟩
  · rw [hstep] at hsome
    cases hsome
  · unfold due?
    rw [if_pos hwaits, hagent, hsince]
    show (sys.limit? c.state a).map _ = _
    rw [hlimit]
    rfl

/-! ## How time goes on -/

/-- Time goes on: it passes only while nobody can go on, and no further than to the end of the
first wait. The agent that made a step, if one did, has been ready since then, and nobody else who
waits has stopped waiting. -/
structure Onward (sys : System State Agent) (c : Course State Agent) (mover : Option Agent)
    (c' : Course State Agent) : Prop where
  instant : c'.IsInstant
  le : c.now ≤ c'.now
  quiet : c.now < c'.now → ∀ a ∈ sys.agents c.state, sys.step? c.state a .plain = none
  limit : c.now < c'.now → ∀ a ∈ sys.agents c.state, ∀ limit, sys.limit? c.state a = some limit →
    c'.now ≤ c.since a + limit * 1000
  moved : ∀ a, mover = some a → c'.since a = c'.now
  since : ∀ a ∈ sys.agents c.state, c.since a ≤ c'.since a
  waits : ∀ a ∈ sys.agents c.state, sys.step? c.state a .plain = none → mover ≠ some a →
    c'.since a = c.since a

/-- An agent makes a step: at once if it can go on, else when its wait is over. -/
structure Moves (sys : System State Agent) (c : Course State Agent) (a : Agent)
    (chance : Chance) (c' : Course State Agent) : Prop where
  onward : Onward sys c (some a) c'
  agent : a ∈ sys.agents c.state
  step : sys.step? c.state a chance = some c'.state
  chance : chance = .plain ∨ chance = .expire ∧ sys.step? c.state a .plain = none ∧
    ∃ limit, sys.limit? c.state a = some limit ∧ c.since a + limit * 1000 ≤ c'.now

theorem IsInstant.since_seated_le (hc : c.IsInstant) (ha : a ∈ sys.agents c.state) :
    c.since a ≤ (c.seated sys).since a ∧
      (sys.step? c.state a .plain = none → (c.seated sys).since a = c.since a) := by
  rw [since_seated, if_pos ha]
  rcases hc.notice_cases sys a with ⟨hstep, -, hle, -⟩ | ⟨-, -, heq⟩
  · exact ⟨hle, fun hnone => by rw [hnone] at hstep; cases hstep⟩
  · exact ⟨Nat.le_of_eq heq.symm, fun _ => heq⟩

/-- Whoever has a seat keeps its time while the clock goes on. -/
theorem since_of_seats (h : c'.seats = (c.seated sys).seats) (ha : a ∈ sys.agents c.state) :
    c'.since a = (c.seated sys).since a := by
  unfold since
  rw [h, find?_seated, if_pos ha]
  rfl

/-- Until the first thing is due, time may pass. -/
theorem IsInstant.idle (hc : c.IsInstant)
    (hfirst : ∀ d ∈ (c.seated sys).dues sys, time ≤ d.time) :
    (c.now < time → ∀ a ∈ sys.agents c.state, sys.step? c.state a .plain = none) ∧
      (c.now < time → ∀ a ∈ sys.agents c.state, ∀ limit, sys.limit? c.state a = some limit →
        time ≤ c.since a + limit * 1000) := by
  have hquiet : c.now < time → ∀ a ∈ sys.agents c.state, sys.step? c.state a .plain = none := by
    intro hlt a ha
    rcases hstep : sys.step? c.state a .plain with _ | s
    · rfl
    · have hdue := hfirst _ (hc.ready_due ha (by rw [hstep]; rfl))
      exact absurd hdue (Nat.not_le.mpr hlt)
  refine ⟨hquiet, fun hlt a ha limit hlimit => ?_⟩
  have hdue : time ≤ max c.now (c.since a + limit * 1000) :=
    hfirst _ (hc.waiting_due ha (hquiet hlt a ha) hlimit)
  omega

theorem since_perform (d : Due Agent) (hc : c.IsInstant) (a : Agent)
    (ha : a ∈ sys.agents c.state) : ((c.seated sys).perform sys d).since a =
      if a = d.agent then d.time else (c.seated sys).since a := by
  have hpace : (c.seated sys).pace.step = 0 := by
    rw [show (c.seated sys).pace = c.pace from rfl, hc.pace]
    rfl
  have hfind : ∀ (f : Seat Agent → Seat Agent), (∀ s, (f s).agent = s.agent) →
      ((c.seated sys).seats.map f).find? (·.agent = a) = some (f (c.notice sys (c.seat a))) := by
    intro f hf
    have hcomp : (fun s => decide ((f s).agent = a)) = fun s : Seat Agent => decide (s.agent = a) :=
      funext fun s => by rw [hf]
    rw [List.find?_map]
    show Option.map f ((c.seated sys).seats.find? fun s => decide ((f s).agent = a)) = _
    rw [hcomp, find?_seated, if_pos ha]
    rfl
  have hagent : (c.notice sys (c.seat a)).agent = a := (notice_agent _).trans (c.seat_agent a)
  rw [since_seated, if_pos ha]
  unfold since perform
  dsimp only
  rw [hfind _ fun s => by split <;> rfl, hpace, Nat.zero_mul, Nat.add_zero]
  show (if _ then _ else _ : Seat Agent).since = _
  rw [hagent]
  split <;> rfl

/-- What comes from outside takes no time. -/
theorem IsInstant.meets (hc : c.IsInstant) (hnow : c'.now = c.now) (hseats : c'.seats = c.seats)
    (hpace : c'.pace = c.pace) : Onward sys c none c' := by
  have hsince : ∀ a, c'.since a = c.since a := by
    intro a
    unfold since
    rw [hseats, hnow]
  have hlt : ¬ c.now < c'.now := by omega
  refine ⟨⟨hpace.trans hc.pace, fun s hs => ?_⟩, Nat.le_of_eq hnow.symm, fun h => absurd h hlt,
    fun h => absurd h hlt, nofun, fun a _ => Nat.le_of_eq (hsince a).symm, fun a _ _ _ => hsince a⟩
  rw [hnow]
  exact hc.past s (hseats ▸ hs)

theorem perform_state {state : State} (d : Due Agent)
    (hs : sys.step? c.state d.agent d.chance = some state) :
    ((c.seated sys).perform sys d).state = state := by
  unfold perform
  rw [show (c.seated sys).state = c.state from rfl, hs]

/-- Time goes on until somebody makes a step. -/
theorem IsInstant.goes (hc : c.IsInstant) (hd : d ∈ (c.seated sys).dues sys)
    (hfirst : ∀ d' ∈ (c.seated sys).dues sys, d.time ≤ d'.time) :
    Onward sys c (some d.agent) ((c.seated sys).perform sys d) := by
  have hnow : c.now ≤ d.time := now_le_of_mem_dues (c := c.seated sys) hd
  have hpace : (c.seated sys).pace.step = 0 := by
    rw [show (c.seated sys).pace = c.pace from rfl, hc.pace]
    rfl
  obtain ⟨hquiet, hlimit⟩ := hc.idle hfirst
  refine ⟨⟨hc.pace, fun s hs => ?_⟩, hnow, hquiet, hlimit, fun a heq => ?_, fun a ha => ?_,
    fun a ha hnone hne => ?_⟩
  · obtain ⟨s₀, hs₀, rfl⟩ := List.mem_map.mp hs
    split
    · show d.time + (c.seated sys).pace.step * _ ≤ d.time
      rw [hpace, Nat.zero_mul]
      exact Nat.le_refl _
    · exact Nat.le_trans (hc.seated.past s₀ hs₀) hnow
  · cases heq
    rw [since_perform d hc _ (hc.due_cases hd).1, if_pos rfl]
    rfl
  · rw [since_perform d hc a ha]
    split
    · exact Nat.le_trans (hc.since_le a) hnow
    · exact (hc.since_seated_le ha).1
  · rw [since_perform d hc a ha, if_neg fun heq => hne (by rw [heq])]
    exact (hc.since_seated_le ha).2 hnone

/-- Time goes on and nothing happens. -/
theorem IsInstant.passes (hc : c.IsInstant) (hle : c.now ≤ time)
    (hfirst : ∀ d ∈ (c.seated sys).dues sys, time ≤ d.time) :
    Onward sys c none { c.seated sys with now := time } := by
  obtain ⟨hquiet, hlimit⟩ := hc.idle hfirst
  have hkept : ∀ a ∈ sys.agents c.state,
      ({ c.seated sys with now := time } : Course State Agent).since a = (c.seated sys).since a :=
    fun a ha => since_of_seats rfl ha
  refine ⟨⟨hc.pace, fun s hs => Nat.le_trans (hc.seated.past s hs) hle⟩, hle, hquiet, hlimit, nofun,
    fun a ha => ?_, fun a ha hnone _ => ?_⟩
  · rw [hkept a ha]
    exact (hc.since_seated_le ha).1
  · rw [hkept a ha]
    exact (hc.since_seated_le ha).2 hnone

/-- Everything that can come next at the instant pace. -/
theorem Ensues.cases (hc : c.IsInstant) (he : Ensues sys outside c c') :
    Onward sys c none c' ∧ c'.state = c.state ∨ (∃ a chance, c.Moves sys a chance c') ∨
      (∃ a ∈ sys.agents c.state, sys.step? c.state a .plain = none ∧
        (sys.limit? c.state a).isSome = true ∧ sys.step? c.state a .expire = none) ∨
      outside c.state c'.state ∧ c'.now = c.now ∧ c'.seats = c.seats ∧ c'.pace = c.pace := by
  rcases he with ⟨hd, hfirst⟩ | ⟨hle, hfirst⟩ | h
  case meets => exact .inr (.inr (.inr ⟨h, rfl, rfl, rfl⟩))
  case passes time => exact .inl ⟨hc.passes hle hfirst, rfl⟩
  case goes d =>
    have honward := hc.goes hd hfirst
    obtain ⟨ha, hcases⟩ := hc.due_cases hd
    rcases hcases with ⟨hsome, hchance, htime⟩ | ⟨hnone, hchance, limit, hl, htime⟩
    · obtain ⟨s, hs⟩ := Option.isSome_iff_exists.mp hsome
      have hs : sys.step? c.state d.agent d.chance = some s := by rw [hchance]; exact hs
      exact .inr (.inl ⟨d.agent, d.chance, honward, ha, hs.trans (by rw [perform_state d hs]),
        .inl hchance⟩)
    · rcases hs : sys.step? c.state d.agent .expire with _ | s
      · exact .inr (.inr (.inl ⟨d.agent, ha, hnone, by rw [hl]; rfl, hs⟩))
      · have hs : sys.step? c.state d.agent d.chance = some s := by rw [hchance]; exact hs
        refine .inr (.inl ⟨d.agent, d.chance, honward, ha, hs.trans (by rw [perform_state d hs]),
          .inr ⟨hchance, hnone, limit, hl, ?_⟩⟩)
        show c.since d.agent + limit * 1000 ≤ d.time
        rw [htime]
        exact Nat.le_max_right ..

/-- Whoever can go on may go on next, and no time passes. -/
theorem IsInstant.ensues_plain {state : State} (hc : c.IsInstant) (ha : a ∈ sys.agents c.state)
    (hs : sys.step? c.state a .plain = some state) :
    ∃ c', Ensues sys outside c c' ∧ c'.IsInstant ∧ c'.state = state ∧ c'.now = c.now := by
  have hd := hc.ready_due ha (by rw [hs]; rfl)
  have hfirst : ∀ d' ∈ (c.seated sys).dues sys, c.now ≤ d'.time :=
    fun d' hd' => now_le_of_mem_dues (c := c.seated sys) hd'
  exact ⟨_, .goes hd hfirst, (hc.goes hd hfirst).instant, perform_state _ hs, rfl⟩

/-- Whoever waits may be the next whose wait is over, if nothing is due before. -/
theorem IsInstant.ensues_expire {state : State} {limit : Nat} (hc : c.IsInstant)
    (ha : a ∈ sys.agents c.state) (hwaits : sys.step? c.state a .plain = none)
    (hlimit : sys.limit? c.state a = some limit) (hs : sys.step? c.state a .expire = some state)
    (hfirst : ∀ d ∈ (c.seated sys).dues sys, max c.now (c.since a + limit * 1000) ≤ d.time) :
    ∃ c', Ensues sys outside c c' ∧ c'.IsInstant ∧ c'.state = state := by
  have hd := hc.waiting_due ha hwaits hlimit
  exact ⟨_, .goes hd hfirst, (hc.goes hd hfirst).instant, perform_state _ hs⟩

end Course

end LoopbackLock
