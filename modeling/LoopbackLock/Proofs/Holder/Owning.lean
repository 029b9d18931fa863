import LoopbackLock.Proofs.Holder.Step
import LoopbackLock.Proofs.Network.Ends

/-!
# What a holder owns

An attendant owns the called end of its connection once or twice, a registry entry owns it once.
Whatever an attendant does, the handles of a connection and what the holder owns of it change alike
(`Attended.owns`), and an attendant that has filed its connection or given it up does nothing to it
any more (`Attended.pens`).
-/

namespace LoopbackLock

/-- How often an attendant owns its connection. -/
def Attendance.handles : Attendance → Nat
  | preparing => 1
  | parting handles => handles
  | gone => 0
  | _ => 2

/-- The attendant may still write to its connection or file it. -/
def Attendance.isActive : Attendance → Bool
  | parting _ | gone => false
  | _ => true

theorem Attendance.handles_turn (t : Turn) : (Attendance.turn t).handles = 2 := by
  unfold Attendance.turn
  split <;> rfl

theorem Attendance.handles_written (rest : Bytes) (r : Reply) :
    (Attendance.written rest r).handles = 2 := by
  unfold Attendance.written
  split
  · split
    · rfl
    · split <;> rfl
  · split <;> rfl
  · rfl

namespace Attendant

/-- How often an attendant owns a connection. -/
def owns (x : LinkId) (a : Attendant) : Nat := if a.link = x then a.stage.handles else 0

/-- The attendant has accepted the connection. -/
def came (x : LinkId) (a : Attendant) : Nat := if a.link = x then 1 else 0

/-- The attendant may still write to the connection or file it. -/
def pens (x : LinkId) (a : Attendant) : Nat := if a.link = x ∧ a.stage.isActive then 1 else 0

variable {x : LinkId} {a : Attendant}

theorem owns_self : a.owns a.link = a.stage.handles := if_pos rfl

theorem owns_of_ne (h : a.link ≠ x) : a.owns x = 0 := if_neg h

theorem came_self : a.came a.link = 1 := if_pos rfl

theorem came_of_ne (h : a.link ≠ x) : a.came x = 0 := if_neg h

theorem pens_of_active (h : a.stage.isActive = true) : a.pens a.link = 1 := if_pos ⟨rfl, h⟩

theorem pens_of_idle (h : a.stage.isActive = false) : a.pens x = 0 := if_neg (by simp [h])

theorem pens_of_ne (h : a.link ≠ x) : a.pens x = 0 := if_neg fun hh => h hh.1

end Attendant

/-- Entries of a registry either pass a test or fail it. -/
theorem Registry.count_filter (r : Registry) (p : UInt16 × LinkId → Bool) (x : LinkId) :
    (links (r.filter p)).count x + (links (r.filter fun e => !p e)).count x =
      (links r).count x := by
  unfold links
  induction r with
  | nil => rfl
  | cons e r ih =>
    rcases he : p e with _ | _
    · simp only [List.filter_cons, he, Bool.not_false, if_true, Bool.false_eq_true, if_false,
        List.map_cons, List.count_cons]
      omega
    · simp only [List.filter_cons, he, Bool.not_true, if_true, Bool.false_eq_true, if_false,
        List.map_cons, List.count_cons]
      omega

namespace Holder

variable {h h' : Holder} {n n' : Network} {k : Nat} {a : Attendant} {chance : Chance} {x : LinkId}

/-- How often the holder owns a connection. -/
def owns (x : LinkId) (h : Holder) : Nat :=
  total (Attendant.owns x) h.attendants + h.registry.links.count x

/-- How often the holder has accepted a connection. -/
def came (x : LinkId) (h : Holder) : Nat := total (Attendant.came x) h.attendants

/-- How many of the holder's attendants and entries may still write to a connection. -/
def pens (x : LinkId) (h : Holder) : Nat :=
  total (Attendant.pens x) h.attendants + h.registry.links.count x

/-! ## Moving an attendant -/

theorem owns_move (hk : h.attendants[k]? = some a) (stage : Attendance) (x : LinkId) :
    (h.move k stage).owns x + a.owns x = h.owns x + Attendant.owns x { a with stage } := by
  have htotal := total_modify (f := Attendant.owns x) (g := fun a => { a with stage }) hk
  unfold owns move
  simp only
  omega

theorem owns_move_self (hk : h.attendants[k]? = some a) (stage : Attendance) :
    (h.move k stage).owns a.link + a.stage.handles = h.owns a.link + stage.handles := by
  have hmove := owns_move hk stage a.link
  rwa [Attendant.owns_self, Attendant.owns_self (a := { a with stage := stage })] at hmove

theorem owns_move_ne (hk : h.attendants[k]? = some a) (hx : a.link ≠ x) (stage : Attendance) :
    (h.move k stage).owns x = h.owns x := by
  have hmove := owns_move hk stage x
  rwa [Attendant.owns_of_ne hx, Attendant.owns_of_ne (a := { a with stage := stage }) hx] at hmove

theorem owns_move_same (hk : h.attendants[k]? = some a) {stage : Attendance}
    (hs : stage.handles = a.stage.handles) (x : LinkId) : (h.move k stage).owns x = h.owns x := by
  have hmove := owns_move hk stage x
  have hsame : Attendant.owns x { a with stage } = a.owns x := by
    unfold Attendant.owns; simp only [hs]
  omega

theorem came_move (hk : h.attendants[k]? = some a) (stage : Attendance) (x : LinkId) :
    (h.move k stage).came x = h.came x := by
  have htotal := total_modify (f := Attendant.came x) (g := fun a => { a with stage }) hk
  have hsame : Attendant.came x { a with stage } = a.came x := rfl
  unfold came move
  simp only
  omega

theorem pens_move (hk : h.attendants[k]? = some a) (stage : Attendance) (x : LinkId) :
    (h.move k stage).pens x + a.pens x = h.pens x + Attendant.pens x { a with stage } := by
  have htotal := total_modify (f := Attendant.pens x) (g := fun a => { a with stage }) hk
  unfold pens move
  simp only
  omega

theorem pens_move_ne (hk : h.attendants[k]? = some a) (hx : a.link ≠ x) (stage : Attendance) :
    (h.move k stage).pens x = h.pens x := by
  have hmove := pens_move hk stage x
  rwa [Attendant.pens_of_ne hx, Attendant.pens_of_ne (a := { a with stage := stage }) hx] at hmove

theorem pens_move_le (hk : h.attendants[k]? = some a) (ha : a.stage.isActive = true)
    (stage : Attendance) (x : LinkId) : (h.move k stage).pens x ≤ h.pens x := by
  have hmove := pens_move hk stage x
  have hle : Attendant.pens x { a with stage } ≤ a.pens x := by
    by_cases hx : a.link = x
    · subst hx
      rw [Attendant.pens_of_active ha]
      unfold Attendant.pens
      split <;> omega
    · rw [Attendant.pens_of_ne (a := { a with stage := stage }) hx]; omega
  omega

/-! ## Giving up what is left -/

theorem owns_settle (h : Holder) (n : Network) (x : LinkId) (hle : h.owns x ≤ n.handles x) :
    (h.settle n).2.handles x + h.owns x = n.handles x + (h.settle n).1.owns x := by
  unfold Holder.settle
  split
  · rw [Network.handles_releaseAll]
    unfold owns at hle ⊢
    simp only [Registry.links, List.map_nil, List.count_nil] at hle ⊢
    omega
  · rfl

theorem settle_ends (h : Holder) (n : Network) :
    (h.settle n).2.said = n.said ∧ (h.settle n).2.isShut = n.isShut ∧
      (h.settle n).2.waiting = n.waiting ∧ (h.settle n).2.links.length = n.links.length := by
  unfold Holder.settle
  split
  · exact ⟨Network.said_releaseAll .., Network.isShut_releaseAll .., Network.waiting_releaseAll ..,
      Network.length_releaseAll ..⟩
  · exact ⟨rfl, rfl, rfl, rfl⟩

@[simp] theorem settle_attendants (h : Holder) (n : Network) :
    (h.settle n).1.attendants = h.attendants := by
  obtain ⟨_, he⟩ := h.settle_eq n; rw [he]

theorem came_settle (h : Holder) (n : Network) (x : LinkId) :
    (h.settle n).1.came x = h.came x := by
  unfold came; rw [settle_attendants]

theorem pens_settle (h : Holder) (n : Network) (x : LinkId) :
    (h.settle n).1.pens x ≤ h.pens x := by
  unfold Holder.settle
  split
  · unfold pens; simp [Registry.links]
  · exact Nat.le_refl _

/-! ## Accepting a connection -/

theorem owns_attach (h : Holder) (n : Network) (x y : LinkId) :
    (h.attach n x).owns y = h.owns y + if y = x then 1 else 0 := by
  unfold owns attach
  rw [total_append]
  simp only [total_cons, total_nil, Attendant.owns, Attendance.handles]
  by_cases hyx : y = x
  · subst hyx; simp; omega
  · simp [hyx, Ne.symm hyx]

theorem came_attach (h : Holder) (n : Network) (x y : LinkId) :
    (h.attach n x).came y = h.came y + if y = x then 1 else 0 := by
  unfold came attach
  rw [total_append]
  simp only [total_cons, total_nil, Attendant.came]
  by_cases hyx : y = x
  · subst hyx; simp
  · simp [hyx, Ne.symm hyx]

theorem pens_attach (h : Holder) (n : Network) (x y : LinkId) :
    (h.attach n x).pens y = h.pens y + if y = x then 1 else 0 := by
  unfold pens attach
  rw [total_append]
  simp only [total_cons, total_nil, Attendant.pens, Attendance.isActive]
  by_cases hyx : y = x
  · subst hyx; simp; omega
  · simp [hyx, Ne.symm hyx]

/-! ## Filing a connection -/

/-- Who is filed comes in, who has hung up and who is displaced goes out. -/
theorem count_enroll (h : Holder) (n : Network) (a : Attendant) (chance : Chance) (x : LinkId) :
    (h.enroll n a chance).1.registry.links.count x +
        ((h.registry.hungUp n chance).count x +
          ((h.registry.pruned n chance).displaced a.port).count x) =
      h.registry.links.count x + a.came x := by
  have hpruned := Registry.count_filter h.registry (fun e => n.findsOpen chance e.2) x
  have hdisplaced := Registry.count_filter (h.registry.pruned n chance) (fun e => e.1 = a.port) x
  have hnew : (h.enroll n a chance).1.registry.links.count x =
      (Registry.links ((h.registry.pruned n chance).filter (·.1 ≠ a.port))).count x + a.came x := by
    have hlinks : (h.enroll n a chance).1.registry.links =
        Registry.links ((h.registry.pruned n chance).filter (·.1 ≠ a.port)) ++ [a.link] := by
      simp [Holder.enroll, Registry.insert, Registry.links]
    rw [hlinks, List.count_append]
    simp [Attendant.came, List.count_cons]
  have hothers : ((h.registry.pruned n chance).filter fun e => !decide (e.1 = a.port)) =
      (h.registry.pruned n chance).filter (·.1 ≠ a.port) := by simp
  rw [hothers] at hdisplaced
  unfold Registry.hungUp Registry.displaced
  unfold Registry.pruned at hpruned hdisplaced hnew ⊢
  omega

theorem handles_enroll (h : Holder) (n : Network) (a : Attendant) (chance : Chance) (x : LinkId) :
    (h.enroll n a chance).2.handles x = n.handles x -
      ((h.registry.hungUp n chance).count x +
        ((h.registry.pruned n chance).displaced a.port).count x) := by
  unfold Holder.enroll
  simp only
  rw [Network.handles_releaseAll, Network.handles_releaseAll]
  omega

/-! ## A step of an attendant -/

theorem stage_le_owns (hk : h.attendants[k]? = some a) : a.stage.handles ≤ h.owns a.link := by
  have hown := le_total (f := Attendant.owns a.link) hk
  rw [Attendant.owns_self] at hown
  unfold owns
  omega

/-- What an attendant does to the handles of a connection, it does to what its holder owns of it. -/
theorem Attended.owns (ha : h.Attended n k a chance h' n') (hk : h.attendants[k]? = some a)
    (hle : ∀ x, h.owns x ≤ n.handles x) (x : LinkId) :
    n'.handles x + h.owns x = n.handles x + h'.owns x := by
  have hrest : ∀ {s : Attendance} {h₁ : Holder}, s.handles = a.stage.handles →
      h₁.attendants = h.attendants → h₁.registry = h.registry →
      (h₁.move k s).owns x = h.owns x := by
    intro s h₁ hs hatt hreg
    rw [owns_move_same (hatt ▸ hk) hs]
    unfold Holder.owns
    rw [hatt, hreg]
  have hmine : a.stage.handles ≤ n.handles a.link := Nat.le_trans (stage_le_owns hk) (hle a.link)
  rcases ha with hs | hs | ⟨hs, hh⟩ | ⟨hs, hh⟩ | ⟨hs, hw⟩ | ⟨hs, hr⟩ | ⟨hs, hstop⟩ | ⟨hs, hstop⟩ |
    hs | hs
  case refused => rw [hrest (by rw [hs]; rfl) rfl rfl]
  case prepared =>
    have hlt : a.link < n.links.length := by
      rcases hl : n.links[a.link]? with _ | l
      · rw [hs] at hmine
        unfold Network.handles at hmine
        rw [Network.view_none hl] at hmine
        simp [Attendance.handles] at hmine
      · exact (List.getElem?_eq_some_iff.mp hl).1
    rw [Network.handles_share hlt]
    by_cases hx : a.link = x
    · subst hx
      have hmove := owns_move_self hk (.reading {} false)
      rw [hs] at hmove
      rw [if_pos rfl]
      simp only [Attendance.handles] at hmove
      omega
    · rw [owns_move_ne hk hx, if_neg (Ne.symm hx)]
      omega
  case heard =>
    rw [(Network.like_hear? hh).handles,
      hrest (by rw [hs, Attendance.handles_turn]; rfl) rfl rfl]
  case missed =>
    rw [(Network.like_hear? hh).handles,
      hrest (by rw [hs, Attendance.handles_turn]; rfl) rfl rfl]
  case answered =>
    rw [hrest (by rw [hs, Attendance.handles_written]; rfl) rfl rfl]
    rcases Network.say_cases hw with ⟨_, -, rfl⟩ | ⟨_, -, hw⟩
    · rfl
    · rw [(Network.write_callee hw).1]
  case queued =>
    have hsame := @hrest .deciding { h with registrar := some k }
      (by rw [hs]; rfl) rfl rfl
    rw [hsame]
  case dismissed =>
    have hsame := @hrest (.parting 2) { h with registrar := none }
      (by rw [hs]; rfl) rfl rfl
    rw [hsame]
  case welcomed => rw [hrest (by rw [hs]; rfl) rfl rfl]
  case admitted =>
    have hatt : (h.enroll n a chance).1.attendants[k]? = some a := hk
    have hcount := count_enroll h n a chance x
    have hle' := hle x
    have hfiled : (h.enroll n a chance).1.owns x =
      total (Attendant.owns x) h.attendants + (h.enroll n a chance).1.registry.links.count x := rfl
    have hold : h.owns x = total (Attendant.owns x) h.attendants + h.registry.links.count x := rfl
    rw [handles_enroll]
    by_cases hx : a.link = x
    · subst hx
      have hmove := owns_move_self hatt (.parting 1)
      rw [hs] at hmove
      rw [Attendant.came_self] at hcount
      simp only [Attendance.handles] at hmove
      omega
    · rw [owns_move_ne hatt hx]
      rw [Attendant.came_of_ne hx] at hcount
      omega
  case parted handles =>
    have hle' := hle x
    have hreleased := Network.handles_releaseAll n (List.replicate handles a.link) x
    rw [List.count_replicate] at hreleased
    by_cases hx : a.link = x
    · subst hx
      have hmove := owns_move_self hk .gone
      rw [hs] at hmove hmine
      simp only [beq_self_eq_true, if_true] at hreleased
      simp only [Attendance.handles] at hmove hmine
      have hsettle := owns_settle (h.move k .gone)
        (n.releaseAll (List.replicate handles a.link)) a.link (by omega)
      omega
    · have hmove := owns_move_ne hk hx .gone
      simp only [beq_iff_eq, hx, if_false] at hreleased
      have hsettle := owns_settle (h.move k .gone)
        (n.releaseAll (List.replicate handles a.link)) x (by omega)
      omega

theorem Attended.ends (ha : h.Attended n k a chance h' n') :
    n'.waiting = n.waiting ∧ n'.links.length = n.links.length := by
  rcases ha with hs | hs | ⟨hs, hh⟩ | ⟨hs, hh⟩ | ⟨hs, hw⟩ | ⟨hs, hr⟩ | ⟨hs, hstop⟩ | ⟨hs, hstop⟩ |
    hs | hs
  case prepared => exact ⟨rfl, Network.length_modifyLink _⟩
  case heard => exact ⟨(Network.like_hear? hh).waiting, (Network.like_hear? hh).length⟩
  case missed => exact ⟨(Network.like_hear? hh).waiting, (Network.like_hear? hh).length⟩
  case answered =>
    rcases Network.say_cases hw with ⟨_, -, rfl⟩ | ⟨_, -, hw⟩
    · exact ⟨rfl, rfl⟩
    · exact (Network.write_callee hw).2.2
  case admitted =>
    exact ⟨(Network.waiting_releaseAll ..).trans (Network.waiting_releaseAll ..),
      (Network.length_releaseAll ..).trans (Network.length_releaseAll ..)⟩
  case parted handles =>
    obtain ⟨-, -, hwaiting, hlength⟩ := (h.move k .gone).settle_ends
      (n.releaseAll (List.replicate handles a.link))
    exact ⟨hwaiting.trans (Network.waiting_releaseAll ..),
      hlength.trans (Network.length_releaseAll ..)⟩
  all_goals exact ⟨rfl, rfl⟩

theorem Attended.came (ha : h.Attended n k a chance h' n') (hk : h.attendants[k]? = some a)
    (x : LinkId) : h'.came x = h.came x := by
  cases ha
  case queued => exact came_move (h := { h with registrar := some k }) hk _ x
  case dismissed => exact came_move (h := { h with registrar := none }) hk _ x
  case admitted => exact came_move (h := (h.enroll n a chance).1) hk _ x
  case parted => exact (came_settle ..).trans (came_move hk _ x)
  all_goals exact came_move hk _ x

/-- An attendant passes its pen on to the registry, or drops it. -/
theorem Attended.pens (ha : h.Attended n k a chance h' n') (hk : h.attendants[k]? = some a)
    (x : LinkId) : h'.pens x ≤ h.pens x := by
  rcases ha with hs | hs | ⟨hs, hh⟩ | ⟨hs, hh⟩ | ⟨hs, hw⟩ | ⟨hs, hr⟩ | ⟨hs, hstop⟩ | ⟨hs, hstop⟩ |
    hs | hs
  case queued =>
    exact pens_move_le (h := { h with registrar := some k }) hk (by rw [hs]; rfl) _ x
  case dismissed =>
    exact pens_move_le (h := { h with registrar := none }) hk (by rw [hs]; rfl) _ x
  case admitted =>
    have hatt : (h.enroll n a chance).1.attendants[k]? = some a := hk
    have hcount := count_enroll h n a chance x
    have hfiled : (h.enroll n a chance).1.pens x =
      total (Attendant.pens x) h.attendants + (h.enroll n a chance).1.registry.links.count x := rfl
    have hold : h.pens x = total (Attendant.pens x) h.attendants + h.registry.links.count x := rfl
    by_cases hx : a.link = x
    · subst hx
      have hmove := pens_move hatt (.parting 1) a.link
      rw [Attendant.pens_of_active (by rw [hs]; rfl),
        Attendant.pens_of_idle (a := { a with stage := .parting 1 }) rfl] at hmove
      rw [Attendant.came_self] at hcount
      omega
    · rw [pens_move_ne hatt hx]
      rw [Attendant.came_of_ne hx] at hcount
      omega
  case parted =>
    refine Nat.le_trans (pens_settle ..) ?_
    have hmove := pens_move hk .gone x
    rw [Attendant.pens_of_idle (a := { a with stage := .gone }) rfl] at hmove
    omega
  all_goals exact pens_move_le hk (by rw [hs]; rfl) _ x

end Holder

end LoopbackLock
