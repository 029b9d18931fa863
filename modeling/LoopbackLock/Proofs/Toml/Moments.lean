import LoopbackLock.Proofs.Toml.Numbers

/-!
# Dates and times

Numbers of a fixed width with hyphens between them are a date, and with colons between them a time,
which may have a fraction of a second; a date and a time together may have a distance from universal
time behind them. Each is read where a value may end.
-/

namespace LoopbackLock.Toml.Cursor

open Text

/-! ## The texts -/

/-- A number of so many digits between two bounds. -/
structure IsField (width low high : Nat) (ds : List Char) : Prop where
  length : ds.length = width
  digits : ∀ c ∈ ds, Text.isDigit c = true
  least : low ≤ decimalValue ds
  most : decimalValue ds ≤ high

/-- A day that the calendar has. -/
def IsDate (cs : List Char) : Prop :=
  ∃ y m d, cs = y ++ '-' :: (m ++ '-' :: d) ∧ IsField 4 0 9999 y ∧ IsField 2 1 12 m ∧
    IsField 2 1 (daysOf (decimalValue y) (decimalValue m)) d

/-- A time of day, with a fraction of a second or without one. -/
def IsTime (cs : List Char) : Prop :=
  ∃ h m s f, cs = h ++ ':' :: (m ++ ':' :: (s ++ f)) ∧ IsField 2 0 23 h ∧ IsField 2 0 59 m ∧
    IsField 2 0 60 s ∧ (f = [] ∨ ∃ ds, f = '.' :: ds ∧ IsPlaces ds)

/-- A distance from universal time. -/
def IsZone (cs : List Char) : Prop :=
  cs = ['Z'] ∨ cs = ['z'] ∨ ∃ sg h m, cs = sg :: (h ++ ':' :: m) ∧ (sg = '+' ∨ sg = '-') ∧
    IsField 2 0 23 h ∧ IsField 2 0 59 m

/-- A date, a time, or both with or without a distance from universal time. -/
inductive IsMoment : List Char → Prop
  | date {cs : List Char} : IsDate cs → IsMoment cs
  | time {cs : List Char} : IsTime cs → IsMoment cs
  | both {day time : List Char} {mark : Char} : IsDate day → mark = 'T' ∨ mark = 't' ∨ mark = ' ' →
      IsTime time → IsMoment (day ++ mark :: time)
  | zoned {day time zone : List Char} {mark : Char} : IsDate day →
      mark = 'T' ∨ mark = 't' ∨ mark = ' ' → IsTime time → IsZone zone →
      IsMoment (day ++ mark :: (time ++ zone))

/-! ## Their readings -/

theorem takeExactly_mk {p : Char → Bool} {ds : List Char} (hds : ∀ c ∈ ds, p c = true)
    (rest : List Char) (off : Nat) :
    ∃ off', (Cursor.mk off (ds ++ rest)).takeExactly p ds.length = some (ds, ⟨off', rest⟩) := by
  induction ds generalizing off with
  | nil => exact ⟨off, rfl⟩
  | cons c ds ih =>
    obtain ⟨off', hmore⟩ := ih (fun d hd => hds d (List.mem_cons_of_mem c hd)) (off + c.utf8Size)
    exact ⟨off', by simp [Cursor.takeExactly, Cursor.take, hds c (by simp), hmore]⟩

/-- Too few characters of a class are not taken. -/
theorem takeExactly_short {p : Char → Bool} {ds : List Char} (hds : ∀ c ∈ ds, p c = true)
    (rest : List Char) (hrest : ∀ c ∈ rest.head?, p c = false) {n : Nat} (hlen : ds.length < n)
    (off : Nat) :
    (Cursor.mk off (ds ++ rest)).takeExactly p n = none := by
  induction ds generalizing n off with
  | nil =>
    obtain ⟨n, rfl⟩ := Nat.exists_eq_add_of_lt hlen
    cases rest with
    | nil => simp [Cursor.takeExactly, Cursor.take]
    | cons c rest => simp [Cursor.takeExactly, Cursor.take, hrest c (by simp)]
  | cons c ds ih =>
    obtain ⟨n, rfl⟩ := Nat.exists_eq_succ_of_ne_zero (Nat.ne_zero_of_lt hlen)
    have hmore := ih (fun d hd => hds d (List.mem_cons_of_mem c hd))
      (Nat.lt_of_succ_lt_succ hlen) (off + c.utf8Size)
    simp [Cursor.takeExactly, Cursor.take, hds c (by simp), hmore]

variable {cs rest tail : List Char}

theorem bounded_mk {width low high : Nat} {ds : List Char} (h : IsField width low high ds)
    (rest : List Char) (off : Nat) :
    ∃ off', (Cursor.mk off (ds ++ rest)).bounded width low high =
      some (decimalValue ds, ⟨off', rest⟩) := by
  obtain ⟨off', htake⟩ := takeExactly_mk h.digits rest off
  rw [h.length] at htake
  exact ⟨off', by simp [Cursor.bounded, htake, h.least, h.most]⟩

theorem date_mk (h : IsDate cs) (rest : List Char) (off : Nat) :
    ∃ off', (Cursor.mk off (cs ++ rest)).date = some ⟨off', rest⟩ := by
  obtain ⟨y, m, d, rfl, hy, hm, hd⟩ := h
  obtain ⟨off₁, hyear⟩ := bounded_mk hy ('-' :: (m ++ '-' :: (d ++ rest))) off
  obtain ⟨off₂, hmonth⟩ := bounded_mk hm ('-' :: (d ++ rest)) (off₁ + '-'.utf8Size)
  obtain ⟨off₃, hday⟩ := bounded_mk hd rest (off₂ + '-'.utf8Size)
  exact ⟨off₃, by simp [date, hyear, hmonth, hday]⟩

theorem time_mk (h : IsTime cs) (hrest : ∀ c ∈ rest.head?, Text.isDigit c = false ∧ c ≠ '.')
    (off : Nat) : ∃ off', (Cursor.mk off (cs ++ rest)).time = some ⟨off', rest⟩ := by
  obtain ⟨h, m, s, f, rfl, hh, hm, hs, hf⟩ := h
  obtain ⟨off₁, hhour⟩ := bounded_mk hh (':' :: (m ++ ':' :: (s ++ (f ++ rest)))) off
  obtain ⟨off₂, hminute⟩ := bounded_mk hm (':' :: (s ++ (f ++ rest))) (off₁ + ':'.utf8Size)
  obtain ⟨off₃, hsecond⟩ := bounded_mk hs (f ++ rest) (off₂ + ':'.utf8Size)
  obtain rfl | ⟨ds, rfl, hne, hds⟩ := hf
  · have hpoint : (Cursor.mk off₃ rest).expect '.' = none := by
      cases rest with
      | nil => rfl
      | cons c rest => exact expect_mk_of_ne (hrest c (by simp)).2.symm _ _
    simp only [List.nil_append] at hhour hminute hsecond
    exact ⟨off₃, by simp [time, hhour, hminute, hsecond, hpoint]⟩
  · have htake := takeWhile_mk ds rest hds (fun c hc => (hrest c hc).1) (off₃ + '.'.utf8Size)
    simp only [List.cons_append] at hhour hminute hsecond
    exact ⟨off₃ + '.'.utf8Size + sizeOf ds, by simp [time, hhour, hminute, hsecond, htake, hne]⟩

theorem zone_mk (h : IsZone cs) (rest : List Char) (off : Nat) :
    ∃ off', (Cursor.mk off (cs ++ rest)).zone = some ⟨off', rest⟩ := by
  obtain rfl | rfl | ⟨sg, h, m, rfl, hsg, hh, hm⟩ := h
  · exact ⟨off + 'Z'.utf8Size, by simp [zone, Cursor.take]⟩
  · exact ⟨off + 'z'.utf8Size, by simp [zone, Cursor.take]⟩
  · obtain ⟨off₁, hhour⟩ := bounded_mk hh (':' :: (m ++ rest)) (off + sg.utf8Size)
    obtain ⟨off₂, hminute⟩ := bounded_mk hm rest (off₁ + ':'.utf8Size)
    refine ⟨off₂, ?_⟩
    obtain rfl | rfl := hsg <;> simp [zone, Cursor.take, hhour, hminute]

/-- A time is no date: its hour has two digits only. -/
theorem date_of_isTime (h : IsTime cs) (rest : List Char) (off : Nat) :
    (Cursor.mk off (cs ++ rest)).date = none := by
  obtain ⟨h, m, s, f, rfl, hh, -⟩ := h
  have htake := takeExactly_short hh.digits (':' :: (m ++ ':' :: (s ++ (f ++ rest))))
    (by simp [Text.isDigit]) (show h.length < 4 by simp [hh.length]) off
  simp [date, Cursor.bounded, htake]

theorem MayEnd.not_isDigit (h : MayEnd tail) :
    ∀ c ∈ tail.head?, Text.isDigit c = false ∧ c ≠ '.' := by
  intro c hc
  have hpause := h.isPause c hc
  constructor
  · refine Bool.eq_false_iff.mpr fun hdigit => ?_
    simp [not_isPause_of_isDigit hdigit] at hpause
  · rintro rfl
    exact absurd (h.isBound _ hc) (by decide)

/-- Where a value may end behind a date no time stands. -/
theorem time_behind_eq_none (h : MayEnd tail) (off : Nat) :
    ((Cursor.mk off tail).take fun c => c == 'T' || c == 't' || c == ' ').bind (time ·.2) =
      none := by
  cases h with
  | nil => rfl
  | stop hc =>
    simp only [isStop, Bool.or_eq_true, beq_iff_eq] at hc
    obtain ((((rfl | rfl) | rfl) | rfl) | rfl) | rfl := hc <;> simp [Cursor.take]
  | @blank c cs hc hmore =>
    have htime (off : Nat) : (Cursor.mk off cs).time = none := by
      simp [time, bounded_of_not_isDigit (s := ⟨off, cs⟩) fun c hc => (hmore.not_isDigit c hc).1]
    obtain rfl | rfl : c = ' ' ∨ c = '\t' := by simpa [isSpace] using hc
    · simp [Cursor.take, htime]
    · simp [Cursor.take]

theorem zone_eq_none (h : MayEnd tail) (off : Nat) : (Cursor.mk off tail).zone = none := by
  have htake : (Cursor.mk off tail).take (fun c => c == 'Z' || c == 'z' || c == '+' || c == '-') =
      none := by
    apply h.take
    intro c hc
    obtain ((rfl | rfl) | rfl) | rfl : ((c = 'Z' ∨ c = 'z') ∨ c = '+') ∨ c = '-' := by
      simpa using hc
    all_goals decide
  simp [zone, htake]

theorem IsZone.not_isDigit (h : IsZone cs) (rest : List Char) :
    ∀ c ∈ (cs ++ rest).head?, Text.isDigit c = false ∧ c ≠ '.' := by
  obtain rfl | rfl | ⟨sg, h, m, rfl, rfl | rfl, -⟩ := h <;> simp [Text.isDigit]

theorem take_mark {mark : Char} (h : mark = 'T' ∨ mark = 't' ∨ mark = ' ') (off : Nat)
    (cs : List Char) :
    (Cursor.mk off (mark :: cs)).take (fun c => c == 'T' || c == 't' || c == ' ') =
      some (mark, ⟨off + mark.utf8Size, cs⟩) := by
  obtain rfl | rfl | rfl := h <;> simp [Cursor.take]

theorem moment_mk (h : IsMoment cs) (htail : MayEnd tail) (off : Nat) :
    ∃ off', (Cursor.mk off (cs ++ tail)).moment = some ⟨off', tail⟩ := by
  cases h with
  | date h =>
    obtain ⟨off', hdate⟩ := date_mk h tail off
    exact ⟨off', by simp [Cursor.moment, hdate, time_behind_eq_none htail]⟩
  | time h =>
    obtain ⟨off', htime⟩ := time_mk h htail.not_isDigit off
    exact ⟨off', by simp [Cursor.moment, date_of_isTime h, htime]⟩
  | @both day time mark hday hmark htime =>
    obtain ⟨mid, hdate⟩ := date_mk hday (mark :: (time ++ tail)) off
    obtain ⟨off', htime⟩ := time_mk htime htail.not_isDigit (mid + mark.utf8Size)
    exact ⟨off', by
      simp [Cursor.moment, hdate, take_mark hmark, htime, zone_eq_none htail]⟩
  | @zoned day time zone mark hday hmark htime hzone =>
    obtain ⟨mid, hdate⟩ := date_mk hday (mark :: (time ++ (zone ++ tail))) off
    obtain ⟨mid', htime⟩ := time_mk htime (hzone.not_isDigit tail) (mid + mark.utf8Size)
    obtain ⟨off', hzone⟩ := zone_mk hzone tail mid'
    exact ⟨off', by simp [Cursor.moment, hdate, take_mark hmark, htime, hzone]⟩

/-- A moment begins with a digit. -/
theorem IsMoment.head (h : IsMoment cs) :
    ∃ c ds, cs = c :: ds ∧ (Text.isDigit c = true ∨ c = '+' ∨ c = '-') := by
  have hfield {width low high : Nat} {ds : List Char} (h : IsField (width + 1) low high ds)
      (rest : List Char) :
      ∃ c cs, ds ++ rest = c :: cs ∧ (Text.isDigit c = true ∨ c = '+' ∨ c = '-') := by
    obtain ⟨c, ds, rfl⟩ := List.exists_cons_of_length_eq_add_one h.length
    exact ⟨c, ds ++ rest, rfl, .inl (h.digits c (by simp))⟩
  cases h with
  | date h =>
    obtain ⟨y, m, d, rfl, hy, -⟩ := h
    exact hfield hy _
  | time h =>
    obtain ⟨h, m, s, f, rfl, hh, -⟩ := h
    exact hfield hh _
  | both h _ _ =>
    obtain ⟨y, m, d, rfl, hy, -⟩ := h
    rw [List.append_assoc]
    exact hfield hy _
  | zoned h _ _ _ =>
    obtain ⟨y, m, d, rfl, hy, -⟩ := h
    rw [List.append_assoc]
    exact hfield hy _

theorem value_moment (h : IsMoment cs) (htail : MayEnd tail) (room off : Nat) :
    ∃ off', (Cursor.mk off (cs ++ tail)).value room =
      some (.scalar .datetime ⟨off, off'⟩, ⟨off', tail⟩) := by
  obtain ⟨off', hmoment⟩ := moment_mk h htail off
  obtain ⟨c, ds, hcs, hc⟩ := h.head
  exact ⟨off', value_numeric ⟨c, ds ++ tail, by simp [hcs], hc⟩ (by simp [numeric, hmoment]) room⟩

end LoopbackLock.Toml.Cursor
