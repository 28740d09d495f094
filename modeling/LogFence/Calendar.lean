import Mathlib.Algebra.Order.Ring.Nat

/-!
# The Gregorian calendar, counted in days

`Date.number` counts the days from 1970-01-01 on, year by year and month by month. It grows from one date to
the next (`Date.number_lt`), so a date is determined by it. `Date.number_march` gives it in closed form, for
years that begin on 1 March: then the leap day is the last of its year, and the months before it follow one
arithmetic rule.
-/

namespace Calendar

def isLeap (y : Nat) : Bool := y % 4 == 0 && (y % 100 != 0 || y % 400 == 0)

theorem isLeap_eq_true {y : Nat} : isLeap y = true ↔ y % 4 = 0 ∧ (y % 100 ≠ 0 ∨ y % 400 = 0) := by
  simp [isLeap]

def yearLength (y : Nat) : Nat := if isLeap y then 366 else 365

/-- Days of month `m`, in a leap year or another. -/
def monthDays (leap : Bool) (m : Nat) : Nat :=
  if m = 2 then (if leap then 29 else 28)
  else if m = 4 ∨ m = 6 ∨ m = 9 ∨ m = 11 then 30
  else 31

def monthLength (y m : Nat) : Nat := monthDays (isLeap y) m

theorem monthLength_le (y m : Nat) : monthLength y m ≤ 31 := by
  unfold monthLength monthDays
  split
  · split <;> omega
  · split <;> omega

/-- From the start of 1970 to the start of year `y`. -/
def daysBeforeYear (y : Nat) : Nat := ((List.range' 1970 (y - 1970)).map yearLength).sum

/-- From the start of year `y` to the start of its month `m`. -/
def daysBeforeMonth (y m : Nat) : Nat := ((List.range' 1 (m - 1)).map (monthLength y)).sum

/-- A day from 1970 on. -/
structure Date where
  year : Nat
  month : Nat
  day : Nat
  year_ge : 1970 ≤ year
  month_pos : 1 ≤ month
  month_le : month ≤ 12
  day_pos : 1 ≤ day
  day_le : day ≤ monthLength year month

/-- The days from 1970-01-01 to this one. -/
def Date.number (d : Date) : Nat := daysBeforeYear d.year + daysBeforeMonth d.year d.month + (d.day - 1)

/-! ## Order -/

theorem daysBeforeYear_succ {y : Nat} (h : 1970 ≤ y) : daysBeforeYear (y + 1) = daysBeforeYear y + yearLength y := by
  have hlen : y + 1 - 1970 = y - 1970 + 1 := by omega
  have hlast : 1970 + (y - 1970) = y := by omega
  rw [daysBeforeYear, hlen, List.range'_1_concat, List.map_append, List.sum_append, hlast]
  simp [daysBeforeYear]

theorem daysBeforeMonth_succ {y m : Nat} (h : 1 ≤ m) :
    daysBeforeMonth y (m + 1) = daysBeforeMonth y m + monthLength y m := by
  have hlen : m + 1 - 1 = m - 1 + 1 := by omega
  have hlast : 1 + (m - 1) = m := by omega
  rw [daysBeforeMonth, hlen, List.range'_1_concat, List.map_append, List.sum_append, hlast]
  simp [daysBeforeMonth]

theorem daysBeforeYear_le {y y' : Nat} (h : 1970 ≤ y) (hle : y ≤ y') : daysBeforeYear y ≤ daysBeforeYear y' := by
  induction y', hle using Nat.le_induction with
  | base => exact Nat.le_refl _
  | succ k hk ih =>
    rw [daysBeforeYear_succ (h.trans hk)]
    exact Nat.le_add_right_of_le ih

theorem daysBeforeMonth_le {y m m' : Nat} (h : 1 ≤ m) (hle : m ≤ m') : daysBeforeMonth y m ≤ daysBeforeMonth y m' := by
  induction m', hle using Nat.le_induction with
  | base => exact Nat.le_refl _
  | succ k hk ih =>
    rw [daysBeforeMonth_succ (h.trans hk)]
    exact Nat.le_add_right_of_le ih

/-- Twelve months are a year. -/
theorem daysBeforeMonth_thirteen (y : Nat) : daysBeforeMonth y 13 = yearLength y := by
  have htable : ∀ leap : Bool, ((List.range' 1 12).map (monthDays leap)).sum = if leap then 366 else 365 := by decide
  exact htable (isLeap y)

namespace Date

/-- A date comes before the end of its month. -/
theorem day_lt (d : Date) : daysBeforeMonth d.year d.month + (d.day - 1) < daysBeforeMonth d.year (d.month + 1) := by
  have hday := d.day_le
  have hpos := d.day_pos
  rw [daysBeforeMonth_succ d.month_pos]
  omega

/-- And before the end of its year. -/
theorem number_lt_next (d : Date) : d.number < daysBeforeYear (d.year + 1) := by
  have hmonth := d.day_lt
  have hyear : daysBeforeMonth d.year (d.month + 1) ≤ yearLength d.year := by
    rw [← daysBeforeMonth_thirteen]
    exact daysBeforeMonth_le (by omega) (Nat.succ_le_succ d.month_le)
  rw [daysBeforeYear_succ d.year_ge, number]
  omega

theorem year_le_number (d : Date) : daysBeforeYear d.year ≤ d.number := by
  unfold number
  omega

/-- The order of the calendar. -/
def Before (d d' : Date) : Prop :=
  d.year < d'.year ∨ d.year = d'.year ∧ (d.month < d'.month ∨ d.month = d'.month ∧ d.day < d'.day)

/-- **The day number grows with the date.** -/
theorem number_lt {d d' : Date} (h : d.Before d') : d.number < d'.number := by
  rcases h with hyear | ⟨hyear, hmonth | ⟨hmonth, hday⟩⟩
  · calc d.number < daysBeforeYear (d.year + 1) := d.number_lt_next
      _ ≤ daysBeforeYear d'.year := daysBeforeYear_le (Nat.le_succ_of_le d.year_ge) hyear
      _ ≤ d'.number := d'.year_le_number
  · have hnext := d.day_lt
    have hle : daysBeforeMonth d.year (d.month + 1) ≤ daysBeforeMonth d'.year d'.month := by
      rw [hyear]
      exact daysBeforeMonth_le (by omega) hmonth
    unfold number
    rw [hyear] at hnext hle ⊢
    omega
  · have hpos := d.day_pos
    unfold number
    rw [hyear, hmonth]
    omega

theorem trichotomy (d d' : Date) :
    d.Before d' ∨ (d.year = d'.year ∧ d.month = d'.month ∧ d.day = d'.day) ∨ d'.Before d := by
  unfold Before
  omega

/-- So the order of the dates is that of their numbers. -/
theorem before_or_eq {d d' : Date} (h : d.number ≤ d'.number) :
    d.Before d' ∨ d.year = d'.year ∧ d.month = d'.month ∧ d.day = d'.day := by
  rcases trichotomy d d' with hlt | heq | hgt
  · exact .inl hlt
  · exact .inr heq
  · exact absurd (number_lt hgt) (Nat.not_lt.2 h)

end Date

/-! ## Years from March -/

/-- The days of the years 1 to `y`; or from 1 March of year 0 to 1 March of year `y`. -/
def elapsed (y : Nat) : Nat := 365 * y + y / 4 - y / 100 + y / 400

theorem elapsed_succ (y : Nat) : elapsed (y + 1) = elapsed y + yearLength (y + 1) := by
  have hle : y / 100 ≤ y / 4 := by omega
  have hdiv : ∀ k, (y + 1) / k = y / k + if (y + 1) % k = 0 then 1 else 0 := by
    intro k
    simp only [Nat.succ_div, Nat.dvd_iff_mod_eq_zero]
  -- a multiple of 400 is one of 100, and a multiple of 100 one of 4
  have h400' : (y + 1) % 400 = 0 → (y + 1) % 100 = 0 := by omega
  have h100' : (y + 1) % 100 = 0 → (y + 1) % 4 = 0 := by omega
  have hlength : yearLength (y + 1) =
      if (y + 1) % 4 = 0 ∧ ((y + 1) % 100 ≠ 0 ∨ (y + 1) % 400 = 0) then 366 else 365 := by
    unfold yearLength
    simp only [isLeap_eq_true]
  rw [elapsed, elapsed, hlength, hdiv 4, hdiv 100, hdiv 400]
  generalize y / 4 = a, y / 100 = b, y / 400 = c at hle ⊢
  by_cases hq : (y + 1) % 4 = 0
  · by_cases hc : (y + 1) % 100 = 0
    · by_cases he : (y + 1) % 400 = 0 <;> simp only [hq, hc, he, ↓reduceIte, ne_eq, not_true_eq_false, or_true, or_false,
        and_self, and_false] <;> omega
    · have he : ¬ (y + 1) % 400 = 0 := fun h => hc (h400' h)
      simp only [hq, hc, he, ↓reduceIte, ne_eq, not_false_eq_true, true_or, and_self]
      omega
  · have hc : ¬ (y + 1) % 100 = 0 := fun h => hq (h100' h)
    have he : ¬ (y + 1) % 400 = 0 := fun h => hc (h400' h)
    simp only [hq, hc, he, ↓reduceIte, false_and]
    omega

theorem elapsed_eq {y : Nat} (h : 1969 ≤ y) : elapsed y = daysBeforeYear (y + 1) + 719162 := by
  induction y, h using Nat.le_induction with
  | base => decide
  | succ k hk ih =>
    rw [elapsed_succ, ih, daysBeforeYear_succ (by omega : 1970 ≤ k + 1)]
    omega

/-- The dates up to the end of year `y`, by their numbers. -/
theorem Date.year_le_iff {d : Date} {y : Nat} (h : 1969 ≤ y) : d.year ≤ y ↔ d.number + 719162 < elapsed y := by
  rw [elapsed_eq h, Nat.add_lt_add_iff_right]
  constructor
  · intro hle
    exact Nat.lt_of_lt_of_le d.number_lt_next (daysBeforeYear_le (Nat.le_succ_of_le d.year_ge) (Nat.succ_le_succ hle))
  · intro hlt
    by_contra hgt
    have hle : daysBeforeYear (y + 1) ≤ d.number := (daysBeforeYear_le (by omega) (by omega)).trans d.year_le_number
    omega

/-- The month that begins `mp` months after March. -/
def monthAfterMarch (mp : Nat) : Nat := if mp < 10 then mp + 3 else mp - 9

/-- The days from 1 March to the start of that month. -/
def daysAfterMarch (mp : Nat) : Nat := (153 * mp + 2) / 5

theorem daysBeforeMonth_spring {y mp : Nat} (h : mp < 10) :
    daysBeforeMonth y (mp + 3) + 306 = yearLength y + daysAfterMarch mp := by
  have htable : ∀ leap : Bool, ∀ mp < 10, ((List.range' 1 (mp + 3 - 1)).map (monthDays leap)).sum + 306 =
      (if leap then 366 else 365) + daysAfterMarch mp := by decide
  exact htable (isLeap y) mp h

theorem daysBeforeMonth_winter {y mp : Nat} (h10 : 10 ≤ mp) (h : mp < 12) :
    daysBeforeMonth y (mp - 9) + 306 = daysAfterMarch mp := by
  have htable : ∀ leap : Bool, ∀ mp < 12, 10 ≤ mp →
      ((List.range' 1 (mp - 9 - 1)).map (monthDays leap)).sum + 306 = daysAfterMarch mp := by decide
  exact htable (isLeap y) mp h h10

/-- **The day number**, in years and months from March: `d` is in the month `mp` of the year that begins in
    March of year `y`. -/
theorem Date.number_march {d : Date} {y mp : Nat} (hmp : mp < 12) (hmonth : d.month = monthAfterMarch mp)
    (hyear : d.year = if mp < 10 then y else y + 1) :
    d.number + 719468 = elapsed y + daysAfterMarch mp + (d.day - 1) := by
  have hge := d.year_ge
  unfold number
  by_cases h10 : mp < 10
  · rw [if_pos h10] at hyear
    rw [monthAfterMarch, if_pos h10] at hmonth
    have hyears : elapsed y = daysBeforeYear y + yearLength y + 719162 := by
      rw [elapsed_eq (by omega), daysBeforeYear_succ (by omega)]
    have hmonths := daysBeforeMonth_spring (y := y) h10
    rw [hyear, hmonth]
    omega
  · rw [if_neg h10] at hyear
    rw [monthAfterMarch, if_neg h10] at hmonth
    have hyears := elapsed_eq (y := y) (by omega)
    have hmonths := daysBeforeMonth_winter (y := y + 1) (by omega) hmp
    rw [hyear, hmonth]
    omega

/-- All months after March but the last have the days the rule gives them. -/
theorem daysAfterMarch_succ (leap : Bool) {mp : Nat} (h : mp < 11) :
    daysAfterMarch (mp + 1) = daysAfterMarch mp + monthDays leap (monthAfterMarch mp) := by
  have htable : ∀ leap : Bool, ∀ mp < 11,
      daysAfterMarch (mp + 1) = daysAfterMarch mp + monthDays leap (monthAfterMarch mp) := by decide
  exact htable leap mp h

/-- **The date `doy` days after 1 March of year `y`**: its month is found by inverting the rule. -/
theorem exists_date {y doy mp : Nat} (hmp : mp = (5 * doy + 2) / 153) (hdoy : doy ≤ 365)
    (hleap : doy = 365 → isLeap (y + 1) = true) (hepoch : 719468 ≤ elapsed y + doy) :
    mp < 12 ∧ daysAfterMarch mp ≤ doy ∧ ∃ d : Date, d.year = (if mp < 10 then y else y + 1) ∧
      d.month = monthAfterMarch mp ∧ d.day = doy - daysAfterMarch mp + 1 ∧ d.number + 719468 = elapsed y + doy := by
  have hlt : mp < 12 := by omega
  have hle : daysAfterMarch mp ≤ doy := by unfold daysAfterMarch; omega
  have hnext : doy < daysAfterMarch (mp + 1) := by unfold daysAfterMarch; omega
  have hyear : 1970 ≤ if mp < 10 then y else y + 1 := by
    unfold elapsed at hepoch
    split <;> omega
  have hmonth : 1 ≤ monthAfterMarch mp ∧ monthAfterMarch mp ≤ 12 := by
    unfold monthAfterMarch
    split <;> omega
  have hday : doy - daysAfterMarch mp + 1 ≤ monthLength (if mp < 10 then y else y + 1) (monthAfterMarch mp) := by
    by_cases hfeb : mp < 11
    · rw [daysAfterMarch_succ (isLeap (if mp < 10 then y else y + 1)) hfeb] at hnext
      unfold monthLength
      omega
    · -- February: the leap day is there if the year has one
      obtain rfl : mp = 11 := by omega
      have hstart : daysAfterMarch 11 = 337 := rfl
      have hlength : monthLength (y + 1) 2 = if isLeap (y + 1) then 29 else 28 := rfl
      rw [hstart, if_neg (by decide)]
      show doy - 337 + 1 ≤ monthLength (y + 1) 2
      rw [hlength]
      by_cases hlast : doy = 365
      · rw [if_pos (hleap hlast)]
        omega
      · split <;> omega
  refine ⟨hlt, hle, ⟨_, _, _, hyear, hmonth.1, hmonth.2, by omega, hday⟩, rfl, rfl, rfl, ?_⟩
  rw [Date.number_march hlt rfl rfl, Nat.add_sub_cancel]
  omega

end Calendar
