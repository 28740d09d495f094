import LogFence.Calendar
import LogFence.Rust.Int
import LogFence.Proto.Header

/-!
# Client timestamps (`logfence-client/src/builder.rs:204-254`)

| here | there |
| --- | --- |
| `civilFromDays`     | `civil_from_days` (`builder.rs:241`); `splitEra`, `yearOfEra`, `dayOfYear`, `marchMonth`, `dayOfMonth`, `monthFromMarch`, `yearFromMarch` are its lines in turn |
| `epochSecsToRfc3339` | `epoch_secs_to_rfc3339` (`:219`) |

`InEra` writes a day of a 400-year era as centuries, four-year cycles, years and days from 1 March; on such a
day each division of `civil_from_days` is exact, and `civilFromDays_eq` says for every day count of a `u64`
clock which date comes out, up to the last cast of the year. `exactCivilFromDays` is the same code with its
casts checked, and `civilFromDays_casts_iff` says how far the checks pass. `epochSecsToRfc3339_correct` is about
the text.
-/

namespace LogFence

open Rust Outcome Calendar

variable {ε : Type}

/-! ## The code -/

/-- `era` and `doe`. -/
def splitEra (days : Nat) : Outcome ε (Int × Nat) := do
  let z ← i64Add (u64AsI64 days) 719468
  let n ← if z ≥ 0 then pure z else i64Sub z 146096
  let era := n.tdiv 146097
  let start ← i64Mul era 146097
  let doe ← i64Sub z start
  pure (era, i64AsU64 doe)

def yearOfEra (doe : Nat) : Outcome ε Nat := do
  let a ← u64Sub doe (doe / 1460)
  let b ← u64Add a (doe / 36524)
  let c ← u64Sub b (doe / 146096)
  pure (c / 365)

def dayOfYear (doe yoe : Nat) : Outcome ε Nat := do
  let a ← u64Mul 365 yoe
  let b ← u64Add a (yoe / 4)
  let c ← u64Sub b (yoe / 100)
  u64Sub doe c

def marchMonth (doy : Nat) : Outcome ε Nat := do
  let a ← u64Mul 5 doy
  let b ← u64Add a 2
  pure (b / 153)

def dayOfMonth (doy mp : Nat) : Outcome ε Nat := do
  let a ← u64Mul 153 mp
  let b ← u64Add a 2
  let c ← u64Sub doy (b / 5)
  u64Add c 1

def monthFromMarch (mp : Nat) : Outcome ε Nat := if mp < 10 then u64Add mp 3 else u64Sub mp 9

def yearFromMarch (y : Int) (m : Nat) : Outcome ε Int := if m ≤ 2 then i64Add y 1 else pure y

def civilFromDays (days : Nat) : Outcome ε (Int × Nat × Nat) := do
  let (era, doe) ← splitEra days
  let yoe ← yearOfEra doe
  let y ← i64Mul era 400 >>= i64Add (u64AsI64 yoe)
  let doy ← dayOfYear doe yoe
  let mp ← marchMonth doy
  let d ← dayOfMonth doy mp
  let m ← monthFromMarch mp
  let y ← yearFromMarch y m
  pure (i64AsI32 y, u64AsU32 m, u64AsU32 d)

/-- `format!("{x:0w}")` of a signed integer: the sign counts for the width. -/
def paddedInt (w : Nat) (x : Int) : Str := if x < 0 then '-' :: padded (w - 1) x.natAbs else padded w x.natAbs

def epochSecsToRfc3339 (secs : Nat) : Outcome ε Str := do
  let days := secs / 86400
  let rem := secs % 86400
  let h := rem / 3600
  let m := (rem % 3600) / 60
  let s := rem % 60
  let (year, month, day) ← civilFromDays days
  pure (paddedInt 4 year ++ '-' :: padded 2 month ++ '-' :: padded 2 day ++ 'T' :: padded 2 h ++ ':' :: padded 2 m ++
    ':' :: padded 2 s ++ ['Z'])

/-! ## The casts checked -/

/-- `splitEra`, with a panic where a cast changes the value. -/
def exactSplitEra (days : Nat) : Outcome ε (Int × Nat) := do
  let days ← u64ToI64 days
  let z ← i64Add days 719468
  let n ← (if z ≥ 0 then pure z else i64Sub z 146096)
  let era := n.tdiv 146097
  let start ← i64Mul era 146097
  let doe ← i64Sub z start
  let doe ← i64ToU64 doe
  pure (era, doe)

/-- `civilFromDays` up to the cast of the year, with a panic where one of the others changes the value. -/
def exactDate (days : Nat) : Outcome ε (Int × Nat × Nat) := do
  let (era, doe) ← exactSplitEra days
  let yoe ← yearOfEra doe
  let yoeI64 ← u64ToI64 yoe
  let y ← i64Mul era 400 >>= i64Add yoeI64
  let doy ← dayOfYear doe yoe
  let mp ← marchMonth doy
  let d ← dayOfMonth doy mp
  let m ← monthFromMarch mp
  let y ← yearFromMarch y m
  let m ← u64ToU32 m
  let d ← u64ToU32 d
  pure (y, m, d)

/-- `civilFromDays`, with a panic where any cast changes the value. -/
def exactCivilFromDays (days : Nat) : Outcome ε (Int × Nat × Nat) := do
  let (y, m, d) ← exactDate days
  let y ← i64ToI32 y
  pure (y, m, d)

theorem splitEra_of_exact {days : Nat} {r : Int × Nat} (h : (exactSplitEra days : Outcome ε (Int × Nat)) = .ok r) :
    (splitEra days : Outcome ε (Int × Nat)) = .ok r := by
  obtain ⟨i, hi, h⟩ := bind_eq_ok.1 h
  obtain ⟨z, hz, h⟩ := bind_eq_ok.1 h
  obtain ⟨n, hn, h⟩ := bind_eq_ok.1 h
  obtain ⟨start, hstart, h⟩ := bind_eq_ok.1 h
  obtain ⟨x, hx, h⟩ := bind_eq_ok.1 h
  obtain ⟨doe, hdoe, h⟩ := bind_eq_ok.1 h
  rw [splitEra, kept_eq_ok hi, hz, ok_bind]
  dsimp only
  by_cases hpos : z ≥ 0
  · rw [if_pos hpos] at hn ⊢
    rw [hn, ok_bind, hstart, ok_bind, hx, ok_bind, kept_eq_ok hdoe]
    exact h
  · rw [if_neg hpos] at hn ⊢
    rw [hn, ok_bind, hstart, ok_bind, hx, ok_bind, kept_eq_ok hdoe]
    exact h

/-- Where the checks pass, `civil_from_days` does the same, and then cuts the year to an `i32`. -/
theorem civilFromDays_of_exactDate {days : Nat} {y : Int} {m d : Nat}
    (h : (exactDate days : Outcome ε (Int × Nat × Nat)) = .ok (y, m, d)) :
    (civilFromDays days : Outcome ε (Int × Nat × Nat)) = .ok (i64AsI32 y, m, d) := by
  obtain ⟨⟨era, doe⟩, hsplit, h⟩ := bind_eq_ok.1 h
  obtain ⟨yoe, hyoe, h⟩ := bind_eq_ok.1 h
  obtain ⟨i, hi, h⟩ := bind_eq_ok.1 h
  obtain ⟨y₀, hy₀, h⟩ := bind_eq_ok.1 h
  obtain ⟨doy, hdoy, h⟩ := bind_eq_ok.1 h
  obtain ⟨mp, hmp, h⟩ := bind_eq_ok.1 h
  obtain ⟨d₀, hd₀, h⟩ := bind_eq_ok.1 h
  obtain ⟨m₀, hm₀, h⟩ := bind_eq_ok.1 h
  obtain ⟨y₁, hy₁, h⟩ := bind_eq_ok.1 h
  obtain ⟨m₁, hm₁, h⟩ := bind_eq_ok.1 h
  obtain ⟨d₁, hd₁, h⟩ := bind_eq_ok.1 h
  obtain ⟨rfl, rfl, rfl⟩ : y₁ = y ∧ m₁ = m ∧ d₁ = d := by simpa using h
  rw [civilFromDays, splitEra_of_exact hsplit, ok_bind]
  dsimp only
  rw [hyoe, ok_bind, kept_eq_ok hi, hy₀, ok_bind, hdoy, ok_bind, hmp, ok_bind, hd₀, ok_bind, hm₀, ok_bind, hy₁, ok_bind,
    kept_eq_ok hm₁, kept_eq_ok hd₁]
  rfl

/-! ## One era -/

/-- `doy` days after 1 March in year `t` of four-year cycle `q` of century `c` of an era. A cycle ends with a leap
    day, but the last one of a century only in the last century. -/
structure InEra (c q t doy : Nat) : Prop where
  century : c ≤ 3
  cycle : q ≤ 24
  year : t ≤ 3
  day : doy ≤ 365
  leapDay : doy = 365 → t = 3 ∧ (q = 24 → c = 3)

theorem exists_inEra {doe : Nat} (h : doe < 146097) :
    ∃ c q t doy, InEra c q t doy ∧ doe = 36524 * c + 1461 * q + 365 * t + doy := by
  obtain ⟨c, hc, r, hr, hlast⟩ : ∃ c ≤ 3, ∃ r, doe = 36524 * c + r ∧ (r < 36524 ∨ r = 36524 ∧ c = 3) := by
    by_cases hc : doe / 36524 ≤ 3
    · exact ⟨doe / 36524, hc, doe % 36524, by omega, by omega⟩
    · exact ⟨3, by omega, doe - 36524 * 3, by omega, by omega⟩
  obtain ⟨q, hq, f, hf, hlt⟩ : ∃ q ≤ 24, ∃ f, r = 1461 * q + f ∧ f < 1461 :=
    ⟨r / 1461, by omega, r % 1461, by omega, by omega⟩
  obtain ⟨t, ht, doy, hdoy, hend⟩ : ∃ t ≤ 3, ∃ doy, f = 365 * t + doy ∧ (doy < 365 ∨ doy = 365 ∧ t = 3) := by
    by_cases ht : f / 365 ≤ 3
    · exact ⟨f / 365, ht, f % 365, by omega, by omega⟩
    · exact ⟨3, by omega, f - 365 * 3, by omega, by omega⟩
  exact ⟨c, q, t, doy, ⟨hc, hq, ht, by omega, by omega⟩, by omega⟩

section
variable {c q t doy : Nat}

theorem InEra.lt (h : InEra c q t doy) :
    1461 * q + 365 * t + doy < 36524 ∨ 36524 * c + 1461 * q + 365 * t + doy = 146096 := by
  obtain ⟨-, hq, ht, hd, hleap⟩ := h
  by_cases hlast : doy = 365 ∧ q = 24
  · obtain ⟨rfl, hc⟩ := hleap hlast.1
    have := hc hlast.2
    omega
  · omega

/-- Centuries, counted in days; the leap day that ends an era is taken back. -/
theorem InEra.centuries (h : InEra c q t doy) :
    (36524 * c + 1461 * q + 365 * t + doy) / 36524 = c + (36524 * c + 1461 * q + 365 * t + doy) / 146096 := by
  have hc := h.century
  rcases h.lt with hlt | hlast
  · have hcentury : (36524 * c + (1461 * q + 365 * t + doy)) / 36524 = c := by
      rw [Nat.mul_add_div (by decide), Nat.div_eq_of_lt hlt, Nat.add_zero]
    have hera : (36524 * c + (1461 * q + 365 * t + doy)) / 146096 = 0 := Nat.div_eq_of_lt (by omega)
    simp only [Nat.add_assoc] at hcentury hera ⊢
    rw [hcentury, hera, Nat.add_zero]
  · have hthree : c = 3 := by
      obtain ⟨-, hq, ht, hd, -⟩ := h
      omega
    rw [hlast, hthree]

/-- Four-year cycles, counted in days short by their leap day. -/
theorem cycles_eq (c q t doy : Nat) :
    (36524 * c + 1461 * q + 365 * t + doy) / 1460 = 25 * c + q + (24 * c + q + 365 * t + doy) / 1460 := by
  have hsplit : 36524 * c + 1461 * q + 365 * t + doy = 1460 * (25 * c + q) + (24 * c + q + 365 * t + doy) := by omega
  rw [hsplit, Nat.mul_add_div (by decide)]

/-- The cycles that count of days finds too many: one on a leap day, and otherwise at most one. -/
theorem InEra.extra (h : InEra c q t doy) :
    (24 * c + q + 365 * t + doy) / 1460 ≤ doy ∧ doy < 365 + (24 * c + q + 365 * t + doy) / 1460 := by
  obtain ⟨hc, hq, ht, hd, hleap⟩ := h
  constructor
  · omega
  · by_cases hlast : doy = 365
    · have hyear := (hleap hlast).1
      omega
    · omega

/-- The corrections take out the leap days. -/
theorem InEra.yearOfEra (h : InEra c q t doy) :
    (yearOfEra (36524 * c + 1461 * q + 365 * t + doy) : Outcome ε Nat) = .ok (100 * c + 4 * q + t) := by
  obtain ⟨hone, hlt⟩ := h.extra
  rw [LogFence.yearOfEra, h.centuries, cycles_eq]
  obtain ⟨hc, hq, ht, hd, -⟩ := h
  generalize (24 * c + q + 365 * t + doy) / 1460 = extra at hone hlt ⊢
  have hera : (36524 * c + 1461 * q + 365 * t + doy) / 146096 ≤ 1 := by omega
  generalize (36524 * c + 1461 * q + 365 * t + doy) / 146096 = last at hera ⊢
  rw [u64Sub_ok (by omega), ok_bind, u64Add_ok (by omega), ok_bind, u64Sub_ok (by omega), ok_bind]
  congr 1
  omega

theorem InEra.dayOfYear (h : InEra c q t doy) :
    (dayOfYear (36524 * c + 1461 * q + 365 * t + doy) (100 * c + 4 * q + t) : Outcome ε Nat) = .ok doy := by
  obtain ⟨hc, hq, ht, hd, -⟩ := h
  have hcycles : (100 * c + 4 * q + t) / 4 = 25 * c + q := by omega
  have hcenturies : (100 * c + 4 * q + t) / 100 = c := by omega
  rw [LogFence.dayOfYear, u64Mul_ok (by omega), ok_bind, hcycles, u64Add_ok (by omega), ok_bind, hcenturies,
    u64Sub_ok (by omega), ok_bind, u64Sub_ok (by omega)]
  congr 1
  omega

/-- The days up to 1 March of that year, in any era. -/
theorem InEra.elapsed (h : InEra c q t doy) (era : Nat) :
    elapsed (400 * era + (100 * c + 4 * q + t)) = 146097 * era + (36524 * c + 1461 * q + 365 * t) := by
  obtain ⟨hc, hq, ht, -, -⟩ := h
  have h4 : (400 * era + (100 * c + 4 * q + t)) / 4 = 100 * era + (25 * c + q) := by omega
  have h100 : (400 * era + (100 * c + 4 * q + t)) / 100 = 4 * era + c := by omega
  have h400 : (400 * era + (100 * c + 4 * q + t)) / 400 = era := by omega
  rw [Calendar.elapsed, h4, h100, h400]
  omega

/-- The leap day is one. -/
theorem InEra.isLeap (h : InEra c q t doy) (era : Nat) (hlast : doy = 365) :
    isLeap (400 * era + (100 * c + 4 * q + t) + 1) = true := by
  obtain ⟨ht, hq⟩ := h.leapDay hlast
  have hcycle := h.cycle
  rw [isLeap_eq_true]
  by_cases hend : q = 24
  · have hc := hq hend
    omega
  · omega

end

/-! ## Every day -/

/-- The last day of a `u64` clock. -/
def lastDay : Nat := 213503982334601

theorem exactSplitEra_eq {days era doe : Nat} (hdays : days ≤ lastDay) (hera : days + 719468 = 146097 * era + doe)
    (hdoe : doe < 146097) : (exactSplitEra days : Outcome ε (Int × Nat)) = .ok ((era : Int), doe) := by
  unfold lastDay at hdays
  have hz : (days : Int) + 719468 = 146097 * era + doe := by omega
  have hdiv : (146097 * (era : Int) + doe).tdiv 146097 = era := by
    rw [Int.tdiv_eq_ediv_of_nonneg (by omega)]
    omega
  have hrest : 146097 * (era : Int) + doe - era * 146097 = doe := by omega
  rw [exactSplitEra, u64ToI64_ok (by omega), ok_bind, i64Add, hz, i64_ok (by omega), ok_bind, if_pos (by omega), pure_eq,
    ok_bind]
  dsimp only
  rw [hdiv, i64Mul, i64_ok (by omega), ok_bind, i64Sub, hrest, i64_ok (by omega), ok_bind, i64ToU64_natCast (by omega)]
  rfl

theorem marchMonth_eq {doy : Nat} (h : doy ≤ 365) : (marchMonth doy : Outcome ε Nat) = .ok ((5 * doy + 2) / 153) := by
  rw [marchMonth, u64Mul_ok (by omega), ok_bind, u64Add_ok (by omega), ok_bind]
  rfl

theorem dayOfMonth_eq {doy mp : Nat} (hdoy : doy ≤ 365) (hmp : mp < 12) (hle : daysAfterMarch mp ≤ doy) :
    (dayOfMonth doy mp : Outcome ε Nat) = .ok (doy - daysAfterMarch mp + 1) := by
  unfold daysAfterMarch at hle ⊢
  rw [dayOfMonth, u64Mul_ok (by omega), ok_bind, u64Add_ok (by omega), ok_bind, u64Sub_ok hle, ok_bind, u64Add_ok (by omega)]

theorem monthFromMarch_eq {mp : Nat} (h : mp < 12) : (monthFromMarch mp : Outcome ε Nat) = .ok (monthAfterMarch mp) := by
  unfold monthFromMarch monthAfterMarch
  split
  · exact u64Add_ok (by omega)
  · exact u64Sub_ok (by omega)

/-- A year from March is the year before that of its last two months. -/
theorem yearFromMarch_eq {y mp : Nat} (hy : y < 9223372036854775807) (h : mp < 12) :
    (yearFromMarch y (monthAfterMarch mp) : Outcome ε Int) = .ok ((if mp < 10 then y else y + 1 : Nat) : Int) := by
  unfold yearFromMarch monthAfterMarch
  by_cases hmp : mp < 10
  · rw [if_pos hmp, if_pos hmp, if_neg (by omega)]
    rfl
  · rw [if_neg hmp, if_neg hmp, if_pos (by omega)]
    exact i64_ok (by omega)

/-- **The date is found, without an overflow or a lossy cast**, for every day of a `u64` clock. -/
theorem exactDate_eq {days : Nat} (hdays : days ≤ lastDay) :
    ∃ d : Date, (exactDate days : Outcome ε (Int × Nat × Nat)) = .ok ((d.year : Int), d.month, d.day) ∧ d.number = days := by
  obtain ⟨era, doe, hera, hdoe⟩ : ∃ era doe, days + 719468 = 146097 * era + doe ∧ doe < 146097 :=
    ⟨(days + 719468) / 146097, (days + 719468) % 146097, by omega, by omega⟩
  obtain ⟨c, q, t, doy, hin, rfl⟩ := exists_inEra hdoe
  have helapsed := hin.elapsed era
  have hleap := hin.isLeap era
  have hyoe : 100 * c + 4 * q + t < 400 := by
    obtain ⟨hc, hq, ht, -, -⟩ := hin
    omega
  have hbound : era < 2000000000 := by
    unfold lastDay at hdays
    omega
  obtain ⟨hmp, hle, d, hyear, hmonth, hday, hnumber⟩ := exists_date rfl hin.day hleap (by omega)
  refine ⟨d, ?_, by omega⟩
  have hmarch : (i64Mul (era : Int) 400 >>= i64Add ((100 * c + 4 * q + t : Nat) : Int) : Outcome ε Int) =
      .ok ((400 * era + (100 * c + 4 * q + t) : Nat) : Int) := by
    rw [i64Mul, i64_ok (by omega), ok_bind, i64Add, i64_ok (by omega)]
    congr 1
    omega
  have hsmall : monthAfterMarch ((5 * doy + 2) / 153) < 4294967296 ∧
      doy - daysAfterMarch ((5 * doy + 2) / 153) + 1 < 4294967296 := by
    have hm := d.month_le
    have hdoy := hin.day
    omega
  rw [hyear, hmonth, hday, exactDate, exactSplitEra_eq hdays hera hdoe, ok_bind]
  dsimp only
  rw [hin.yearOfEra, ok_bind, u64ToI64_ok (by omega), ok_bind, hmarch, ok_bind, hin.dayOfYear, ok_bind,
    marchMonth_eq hin.day, ok_bind, dayOfMonth_eq hin.day hmp hle, ok_bind, monthFromMarch_eq hmp, ok_bind,
    yearFromMarch_eq (by omega) hmp, ok_bind, u64ToU32_ok hsmall.1, ok_bind, u64ToU32_ok hsmall.2]
  rfl

/-- **`civil_from_days` finds the date**, for every day of a `u64` clock; the year it returns is cut to an `i32`. -/
theorem civilFromDays_eq {days : Nat} (hdays : days ≤ lastDay) :
    ∃ d : Date, (civilFromDays days : Outcome ε (Int × Nat × Nat)) = .ok (i64AsI32 d.year, d.month, d.day) ∧
      d.number = days := by
  obtain ⟨d, hdate, hnumber⟩ := exactDate_eq (ε := ε) hdays
  exact ⟨d, civilFromDays_of_exactDate hdate, hnumber⟩

/-! ## The year as an `i32` -/

/-- In `civil_from_days(secs / 86_400)` no operation overflows, no cast changes the value, and what comes out is
    the date. -/
def CastsKeep (ε : Type) (secs : Nat) : Prop :=
  ∃ d : Date, d.number = secs / 86400 ∧
    (exactCivilFromDays (secs / 86400) : Outcome ε (Int × Nat × Nat)) = .ok ((d.year : Int), d.month, d.day) ∧
    (civilFromDays (secs / 86400) : Outcome ε (Int × Nat × Nat)) = .ok ((d.year : Int), d.month, d.day)

/-- The first second of the year 2147483648, which is no `i32`. -/
def firstLostSecond : Nat := 67767976233532800

theorem year_le_i32_iff {d : Date} {secs : Nat} (h : d.number = secs / 86400) :
    d.year ≤ 2147483647 ↔ secs < firstLostSecond := by
  have hdays : elapsed 2147483647 = 784352295939 := by decide
  rw [Date.year_le_iff (by decide), hdays, h]
  unfold firstLostSecond
  omega

theorem exactCivilFromDays_eq_ok {days : Nat} {y : Int} {m d : Nat}
    (h : (exactDate days : Outcome ε (Int × Nat × Nat)) = .ok (y, m, d)) (r : Int × Nat × Nat) :
    (exactCivilFromDays days : Outcome ε (Int × Nat × Nat)) = .ok r ↔ r = (y, m, d) ∧ -2147483648 ≤ y ∧ y < 2147483648 := by
  rw [exactCivilFromDays, h, ok_bind]
  simp only [bind_eq_ok, i64ToI32_eq_ok, pure_eq, Outcome.ok.injEq]
  constructor
  · rintro ⟨_, ⟨rfl, hrange⟩, rfl⟩
    exact ⟨rfl, hrange⟩
  · rintro ⟨rfl, hrange⟩
    exact ⟨y, ⟨rfl, hrange⟩, rfl⟩

/-- **Which casts of `civil_from_days` are safe.** On a `u64` clock all but that of the year, and that one up to
    the end of the year 2147483647. -/
theorem civilFromDays_casts_iff (secs : UInt64) :
    (CastsKeep ε secs.toNat ↔ secs.toNat < firstLostSecond) ∧
      ∃ d : Date, d.number = secs.toNat / 86400 ∧
        (exactDate (secs.toNat / 86400) : Outcome ε (Int × Nat × Nat)) = .ok ((d.year : Int), d.month, d.day) ∧
        (civilFromDays (secs.toNat / 86400) : Outcome ε (Int × Nat × Nat)) = .ok (i64AsI32 d.year, d.month, d.day) := by
  have hdays : secs.toNat / 86400 ≤ lastDay := by
    have hlt := secs.toNat_lt
    unfold lastDay
    omega
  obtain ⟨d, hdate, hnumber⟩ := exactDate_eq (ε := ε) hdays
  have hcivil := civilFromDays_of_exactDate hdate
  refine ⟨?_, d, hnumber, hdate, hcivil⟩
  rw [← year_le_i32_iff hnumber]
  constructor
  · rintro ⟨d', -, hexact, -⟩
    obtain ⟨-, -, hlt⟩ := (exactCivilFromDays_eq_ok hdate _).1 hexact
    omega
  · intro hle
    refine ⟨d, hnumber, (exactCivilFromDays_eq_ok hdate _).2 ⟨rfl, by omega, by omega⟩, ?_⟩
    rw [hcivil, i64AsI32_eq (by omega)]

/-- The first day of the year 2147483648, in the year -2147483648. -/
theorem civilFromDays_loses_year :
    (civilFromDays (67767976233532800 / 86400) : Outcome ParseError (Int × Nat × Nat)) = .ok (-2147483648, 1, 1) ∧
      (exactDate (67767976233532800 / 86400) : Outcome ParseError (Int × Nat × Nat)) = .ok (2147483648, 1, 1) ∧
      ¬ CastsKeep ParseError (67767976233532800 : UInt64).toNat := by
  have hcivil : (civilFromDays (67767976233532800 / 86400) : Outcome ParseError (Int × Nat × Nat)) =
      .ok (-2147483648, 1, 1) := by decide
  refine ⟨hcivil, by decide, ?_⟩
  rintro ⟨d, -, -, hdate⟩
  have hsecs : (67767976233532800 : UInt64).toNat = 67767976233532800 := rfl
  rw [hsecs, hcivil] at hdate
  simp only [Outcome.ok.injEq, Prod.mk.injEq] at hdate
  omega

/-! ## The text -/

/-- `YYYY-MM-DDThh:mm:ssZ`. -/
def rfc3339 (d : Date) (h m s : Nat) : Str :=
  digits 4 d.year ++ '-' :: digits 2 d.month ++ '-' :: digits 2 d.day ++ 'T' :: digits 2 h ++ ':' :: digits 2 m ++
    ':' :: digits 2 s ++ ['Z']

/-- The text of the moment `secs` seconds after the start of 1970, in UTC. -/
def IsMoment (secs : Nat) (text : Str) : Prop :=
  ∃ (d : Date) (h m s : Nat), text = rfc3339 d h m s ∧ d.year ≤ 9999 ∧ h ≤ 23 ∧ m ≤ 59 ∧ s ≤ 59 ∧
    secs = d.number * 86400 + (h * 3600 + m * 60 + s)

/-- The last second of the year 9999. -/
def lastSecond : Nat := 253402300799

theorem year_le {d : Date} (h : d.number * 86400 ≤ lastSecond) : d.year ≤ 9999 := by
  have hdays : elapsed 9999 = 3652059 := by decide
  rw [Date.year_le_iff (by decide), hdays]
  unfold lastSecond at h
  omega

theorem isMoment_epochSecs {secs : Nat} (hsecs : secs ≤ lastSecond) :
    ∃ text, (epochSecsToRfc3339 secs : Outcome ε Str) = .ok text ∧ IsMoment secs text := by
  have hdays : secs / 86400 ≤ lastDay := by
    unfold lastSecond at hsecs
    unfold lastDay
    omega
  obtain ⟨d, hcivil, hnumber⟩ := civilFromDays_eq (ε := ε) hdays
  have hyear := year_le (d := d) (by omega)
  have hmonth := d.month_le
  have hday := d.day_le.trans (monthLength_le _ _)
  refine ⟨_, ?_, d, secs % 86400 / 3600, secs % 86400 % 3600 / 60, secs % 86400 % 60, rfl, hyear, by omega, by omega,
    by omega, by omega⟩
  have hpadded : paddedInt 4 (d.year : Int) = digits 4 d.year := by
    rw [paddedInt, if_neg (by omega), Int.natAbs_natCast, padded_eq_digits (by decide) (by omega)]
  rw [epochSecsToRfc3339, hcivil]
  simp only [ok_bind]
  rw [i64AsI32_eq (by omega), hpadded, padded_eq_digits (by decide) (by omega), padded_eq_digits (by decide) (by omega),
    padded_eq_digits (by decide) (by omega), padded_eq_digits (by decide) (by omega), padded_eq_digits (by decide) (by omega)]
  rfl

theorem IsMoment.isTimestampText {secs : Nat} {text : Str} (h : IsMoment secs text) : IsTimestampText text := by
  obtain ⟨d, hour, minute, second, rfl, hy, hh, hm, hs, -⟩ := h
  refine ⟨_, [], ['Z'], (List.append_nil _).symm ▸ rfl, ⟨d.year, d.month, d.day, hour, minute, second, rfl, hy,
    ⟨d.month_pos, d.month_le⟩, ⟨d.day_pos, d.day_le.trans (monthLength_le _ _)⟩, hh, hm, by omega⟩, .inl rfl, .inl rfl⟩

/-- Later moments have greater texts. -/
theorem IsMoment.lt {secs secs' : Nat} {text text' : Str} (h : IsMoment secs text) (h' : IsMoment secs' text')
    (hlt : secs < secs') : utf8 text < utf8 text' := by
  obtain ⟨d, hour, minute, second, rfl, hy, hh, hm, hs, rfl⟩ := h
  obtain ⟨d', hour', minute', second', rfl, hy', hh', hm', hs', rfl⟩ := h'
  have hmonth := d.month_le
  have hmonth' := d'.month_le
  have hday := d.day_le.trans (monthLength_le _ _)
  have hday' := d'.day_le.trans (monthLength_le _ _)
  have hnumber : d.number ≤ d'.number := by omega
  unfold rfc3339
  simp only [List.append_assoc, List.cons_append]
  rw [utf8_digits_append_lt (by omega) (by omega), utf8_cons_lt_cons, utf8_digits_append_lt (by omega) (by omega),
    utf8_cons_lt_cons, utf8_digits_append_lt (by omega) (by omega), utf8_cons_lt_cons,
    utf8_digits_append_lt (by omega) (by omega), utf8_cons_lt_cons, utf8_digits_append_lt (by omega) (by omega),
    utf8_cons_lt_cons, utf8_digits_append_lt (by omega) (by omega)]
  rcases Date.before_or_eq hnumber with hbefore | ⟨hye, hmo, hda⟩
  · rcases hbefore with hye | ⟨hye, hmo | ⟨hmo, hda⟩⟩
    · exact .inl hye
    · exact .inr ⟨hye, .inl hmo⟩
    · exact .inr ⟨hye, .inr ⟨hmo, .inl hda⟩⟩
  · -- one day: the time decides
    have hsame : d.number = d'.number := by rw [Date.number, Date.number, hye, hmo, hda]
    have htime : hour < hour' ∨ hour = hour' ∧ (minute < minute' ∨ minute = minute' ∧ second < second') := by omega
    refine .inr ⟨hye, .inr ⟨hmo, .inr ⟨hda, ?_⟩⟩⟩
    rcases htime with hho | ⟨hho, hmi | ⟨hmi, hse⟩⟩
    · exact .inl hho
    · exact .inr ⟨hho, .inl hmi⟩
    · exact .inr ⟨hho, .inr ⟨hmi, .inl hse⟩⟩

/-- **Client timestamps are right, and the daemon accepts them.** -/
theorem epochSecsToRfc3339_correct {secs : Nat} (hsecs : secs ≤ lastSecond) :
    ∃ text, (epochSecsToRfc3339 secs : Outcome ε Str) = .ok text ∧ IsMoment secs text ∧ validateTimestamp text = .ok () ∧
      ∀ earlier < secs, ∃ text', (epochSecsToRfc3339 earlier : Outcome ε Str) = .ok text' ∧ utf8 text' < utf8 text := by
  obtain ⟨text, htext, hmoment⟩ := isMoment_epochSecs (ε := ε) hsecs
  refine ⟨text, htext, hmoment, (validateTimestamp_spec text).2.2 (isTimestamp_iff.2 hmoment.isTimestampText), ?_⟩
  intro earlier hlt
  obtain ⟨text', htext', hmoment'⟩ := isMoment_epochSecs (ε := ε) (Nat.le_of_lt (Nat.lt_of_lt_of_le hlt hsecs))
  exact ⟨text', htext', hmoment'.lt hmoment hlt⟩

/-- A leap day of a century. -/
theorem epochSecsToRfc3339_leap_day :
    951782400 ≤ lastSecond ∧ (epochSecsToRfc3339 951782400 : Outcome ParseError Str) = .ok "2000-02-29T00:00:00Z".toList ∧
      ∃ text, (epochSecsToRfc3339 951782400 : Outcome ParseError Str) = .ok text ∧ IsMoment 951782400 text ∧
        validateTimestamp text = .ok () ∧
        ∀ earlier < 951782400, ∃ text', (epochSecsToRfc3339 earlier : Outcome ParseError Str) = .ok text' ∧
          utf8 text' < utf8 text :=
  ⟨by decide, by decide, epochSecsToRfc3339_correct (by decide)⟩

end LogFence
