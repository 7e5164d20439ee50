import Mathlib.Tactic.IntervalCases
import MongoQuery.Time.Calendar

/-!
# The calendar as an order of days

Counting days and finding the day with a count are inverse to each other, every count is that
of a day which exists, and the count grows from each day to the one after it, so days are in
the order of their years, months and days of the month.

Both functions count years from March.  `yearStart y` is the number of days before the first of
March of the year `y`, and a day is that of its year and a place in the year.
-/

namespace MongoQuery.Day

/-! ### Years from March -/

/-- The year, counted from March, in which a day lies. -/
def marchYear (d : Day) : Int :=
  if d.month ≤ 2 then d.year - 1 else d.year

/-- The number of months since March. -/
def monthFromMarch (d : Day) : Nat :=
  if 2 < d.month then d.month - 3 else d.month + 9

/-- The number of days from the first of March to the first of a month. -/
def monthStart (month : Nat) : Nat :=
  (153 * month + 2) / 5

/-- The number of days since the first of March. -/
def dayFromMarch (d : Day) : Nat :=
  monthStart d.monthFromMarch + d.day - 1

/-- The number of days from the first of March of the year zero to that of another year. -/
def yearStart (year : Int) : Int :=
  365 * year + year / 4 - year / 100 + year / 400

theorem isValid_iff (d : Day) :
  d.isValid ↔ 1 ≤ d.month ∧ d.month ≤ 12 ∧ 1 ≤ d.day ∧ d.day ≤ monthLength d.year d.month
  := by
  simp [isValid, and_assoc]

/-- A day is counted by its year and its place in the year. -/
theorem count_eq (d : Day) :
  d.count = yearStart d.marchYear + d.dayFromMarch - 719468
  := by
  have hera : ∀ (year : Int) (place : Nat), year / 400 * 146097
      + ((year % 400).toNat * 365 + (year % 400).toNat / 4 - (year % 400).toNat / 100 + place : Nat)
        = yearStart year + place := by
    intro year place
    unfold yearStart
    omega
  simp only [count, hera]
  rfl

theorem isLeapYear_iff (year : Int) :
  isLeapYear year ↔ year % 4 = 0 ∧ (year % 100 ≠ 0 ∨ year % 400 = 0)
  := by
  simp [isLeapYear]

/-- A year that ends with a leap day is longer by one. -/
theorem yearStart_add_one (year : Int) :
  yearStart (year + 1) = yearStart year + 365 + if isLeapYear (year + 1) then 1 else 0
  := by
  simp only [yearStart, isLeapYear_iff]
  split
  · omega
  · omega

theorem yearStart_mono {y z : Int} (h : y ≤ z) :
  yearStart y ≤ yearStart z
  := by
  unfold yearStart
  omega

/-- A month of a year from March goes up to the next one. -/
theorem monthStart_add_one {d : Day} (hmonth : 1 ≤ d.month) (hmonth' : d.month ≤ 12)
    (h : d.monthFromMarch < 11) :
  monthStart (d.monthFromMarch + 1) = monthStart d.monthFromMarch + monthLength d.year d.month
  := by
  obtain ⟨year, month, day⟩ := d
  simp only [monthFromMarch] at *
  interval_cases month
  case «2» => simp at h
  all_goals rfl

/-- The last month of a year from March goes up to the next year. -/
theorem yearStart_marchYear_add_one {d : Day} (hmonth : 1 ≤ d.month) (hmonth' : d.month ≤ 12)
    (h : 11 ≤ d.monthFromMarch) :
  yearStart (d.marchYear + 1)
    = yearStart d.marchYear + monthStart d.monthFromMarch + monthLength d.year d.month
  := by
  have hfebruary : d.month = 2 := by
    unfold monthFromMarch at h
    split at h <;> omega
  have hlast : monthStart d.monthFromMarch = 337 := by
    rw [monthFromMarch, hfebruary]
    rfl
  have hyear : d.marchYear + 1 = d.year := by
    rw [marchYear, hfebruary, if_pos (by decide)]
    omega
  rw [yearStart_add_one, hlast, monthLength, if_pos hfebruary, hyear]
  split <;> omega

/-- A day lies before the end of its month and of its year. -/
theorem dayFromMarch_bounds {d : Day} (hd : d.isValid) :
  monthStart d.monthFromMarch ≤ d.dayFromMarch
    ∧ (d.monthFromMarch < 11 → d.dayFromMarch < monthStart (d.monthFromMarch + 1))
    ∧ yearStart d.marchYear + d.dayFromMarch < yearStart (d.marchYear + 1)
  := by
  obtain ⟨hmonth, hmonth', hday, hday'⟩ := (isValid_iff d).mp hd
  have hplace : d.dayFromMarch = monthStart d.monthFromMarch + d.day - 1 := rfl
  refine ⟨by omega, ?_, ?_⟩
  · intro h
    rw [monthStart_add_one hmonth hmonth' h]
    omega
  · by_cases h : d.monthFromMarch < 11
    · have hnext := monthStart_add_one hmonth hmonth' h
      have hlast : monthStart (d.monthFromMarch + 1) ≤ 337 := by
        unfold monthStart
        omega
      rw [yearStart_add_one]
      split <;> omega
    · rw [yearStart_marchYear_add_one hmonth hmonth' (by omega)]
      omega

/-! ### The order of days -/

/-- A day comes before another: by the year, then the month, then the day of the month. -/
def Before (d e : Day) : Prop :=
  d.year < e.year ∨ d.year = e.year ∧ (d.month < e.month ∨ d.month = e.month ∧ d.day < e.day)

theorem Before.marchYear_lt {d e : Day} (h : d.Before e) (hd : d.isValid) (he : e.isValid) :
  d.marchYear < e.marchYear ∨ d.marchYear = e.marchYear
    ∧ (d.monthFromMarch < e.monthFromMarch
      ∨ d.monthFromMarch = e.monthFromMarch ∧ d.day < e.day)
  := by
  obtain ⟨hmonth, hmonth', -, -⟩ := (isValid_iff d).mp hd
  obtain ⟨hmonth₁, hmonth₁', -, -⟩ := (isValid_iff e).mp he
  unfold marchYear monthFromMarch
  unfold Before at h
  split <;> split <;> split <;> split <;> omega

theorem count_lt_of_before {d e : Day} (hd : d.isValid) (he : e.isValid) (h : d.Before e) :
  d.count < e.count
  := by
  obtain ⟨-, hmonth, hyear⟩ := dayFromMarch_bounds hd
  obtain ⟨hmonth', -, -⟩ := dayFromMarch_bounds he
  rw [count_eq, count_eq]
  rcases h.marchYear_lt hd he with hlt | ⟨heq, hlt | ⟨heq', hlt⟩⟩
  · have hmono := yearStart_mono (show d.marchYear + 1 ≤ e.marchYear by omega)
    omega
  · obtain ⟨-, hlast, -, -⟩ := (isValid_iff e).mp he
    have hlast' : e.monthFromMarch ≤ 11 := by
      unfold monthFromMarch
      split <;> omega
    have hmono : monthStart (d.monthFromMarch + 1) ≤ monthStart e.monthFromMarch := by
      unfold monthStart
      omega
    have hplace := hmonth (by omega)
    rw [heq]
    omega
  · obtain ⟨-, -, hday, -⟩ := (isValid_iff d).mp hd
    rw [heq, dayFromMarch, dayFromMarch, heq']
    omega

theorem le_count_of_nonneg {d : Day} (h : 0 ≤ d.year) :
  -719834 ≤ d.count
  := by
  have hyear : -1 ≤ d.marchYear := by
    unfold marchYear
    split <;> omega
  have hstart : yearStart (-1) = -366 := by decide
  have hmono := yearStart_mono hyear
  rw [count_eq]
  omega

theorem before_or_eq_or_before (d e : Day) :
  d.Before e ∨ d = e ∨ e.Before d
  := by
  obtain ⟨year, month, day⟩ := d
  obtain ⟨year', month', day'⟩ := e
  simp only [Before, mk.injEq]
  omega

/-- Days are in the order of their counts. -/
theorem count_lt_count_iff {d e : Day} (hd : d.isValid) (he : e.isValid) :
  d.count < e.count ↔ d.Before e
  := by
  constructor
  · intro h
    rcases before_or_eq_or_before d e with hbefore | rfl | hbefore
    · exact hbefore
    · omega
    · have hlt := count_lt_of_before he hd hbefore
      omega
  · exact count_lt_of_before hd he

/-- Different days have different counts. -/
theorem eq_of_count_eq {d e : Day} (hd : d.isValid) (he : e.isValid) (h : d.count = e.count) :
  d = e
  := by
  rcases before_or_eq_or_before d e with hbefore | heq | hbefore
  · have hlt := count_lt_of_before hd he hbefore
    omega
  · exact heq
  · have hlt := count_lt_of_before he hd hbefore
    omega

/-! ### The day with a count -/

/-- The year of its era in which a day of the era lies. -/
def yearOfEra (dayOfEra : Nat) : Nat :=
  (dayOfEra - dayOfEra / 1460 + dayOfEra / 36524 - dayOfEra / 146096) / 365

/-- The number of days from the beginning of an era to that of a year of it. -/
def eraYearStart (year : Nat) : Nat :=
  365 * year + year / 4 - year / 100 + year / 400

theorem yearOfEra_mono {m n : Nat} (h : m ≤ n) :
  yearOfEra m ≤ yearOfEra n
  := by
  have hleap : m - m / 1460 ≤ n - n / 1460 := by omega
  have hcentury : ∀ k : Nat, k / 146096 = k / 36524 / 4 := by
    intro k
    rw [Nat.div_div_eq_div_mul]
  have hcentury' : m / 36524 ≤ n / 36524 := Nat.div_le_div_right h
  unfold yearOfEra
  apply Nat.div_le_div_right
  rw [hcentury, hcentury]
  omega

/-- The years of an era begin where their numbers change. -/
theorem yearOfEra_eraYearStart :
  ∀ year < 401, year ≤ yearOfEra (eraYearStart year)
    ∧ (0 < year → yearOfEra (eraYearStart year - 1) < year)
  := by
  decide +kernel

/-- A day of an era lies in the year that is computed for it. -/
theorem eraYearStart_yearOfEra {day : Nat} (h : day < 146097) :
  yearOfEra day < 400 ∧ eraYearStart (yearOfEra day) ≤ day
    ∧ day < eraYearStart (yearOfEra day + 1)
  := by
  have hyear : yearOfEra day < 400 := by
    have hlast := yearOfEra_mono (show day ≤ 146096 by omega)
    have hlast' : yearOfEra 146096 = 399 := by decide
    omega
  refine ⟨hyear, ?_, ?_⟩
  · by_contra hstart
    obtain ⟨-, hbefore⟩ := yearOfEra_eraYearStart (yearOfEra day) (by omega)
    have hmono := yearOfEra_mono (show day ≤ eraYearStart (yearOfEra day) - 1 by omega)
    have hpos : 0 < yearOfEra day := by
      rcases Nat.eq_zero_or_pos (yearOfEra day) with hzero | hpos
      · rw [hzero] at hstart
        exact absurd (Nat.zero_le day) hstart
      · exact hpos
    have hlt := hbefore hpos
    omega
  · by_contra hend
    obtain ⟨hnext, -⟩ := yearOfEra_eraYearStart (yearOfEra day + 1) (by omega)
    have hmono := yearOfEra_mono (show eraYearStart (yearOfEra day + 1) ≤ day by omega)
    omega

/-- The day at a place in a year from March. -/
def ofPlace (year : Int) (place : Nat) : Day :=
  let monthFromMarch := (5 * place + 2) / 153
  let month := if monthFromMarch < 10 then monthFromMarch + 3 else monthFromMarch - 9
  { year := year + (if month ≤ 2 then 1 else 0)
    month
    day := place - monthStart monthFromMarch + 1 }

/-- A year begins in its era as in the era of the year zero. -/
theorem yearStart_add_era (year : Nat) (era : Int) :
  yearStart (year + era * 400) = eraYearStart year + era * 146097
  := by
  unfold yearStart eraYearStart
  omega

/-- The day with a count is the one at a place in a year to which the count leads. -/
theorem exists_ofCount_eq_ofPlace (n : Int) :
  ∃ year place, ofCount n = ofPlace year place ∧ yearStart year + place = n + 719468
    ∧ yearStart year + place < yearStart (year + 1)
  := by
  have hday : ((n + 719468) % 146097).toNat < 146097 := by omega
  obtain ⟨hyear, hstart, hend⟩ := eraYearStart_yearOfEra hday
  have hcount : n + 719468
      = (n + 719468) / 146097 * 146097 + ((n + 719468) % 146097).toNat := by omega
  generalize hdayOfEra : ((n + 719468) % 146097).toNat = day at *
  generalize hera : (n + 719468) / 146097 = era at *
  have hnext := yearStart_add_era (yearOfEra day + 1) era
  have hyears : ((yearOfEra day + 1 : Nat) : Int) + era * 400
      = yearOfEra day + era * 400 + 1 := by omega
  rw [hyears] at hnext
  refine ⟨yearOfEra day + era * 400, day - eraYearStart (yearOfEra day), ?_, ?_, ?_⟩
  · have hbegin : eraYearStart (yearOfEra day)
        = 365 * yearOfEra day + yearOfEra day / 4 - yearOfEra day / 100 := by
      unfold eraYearStart
      omega
    rw [hbegin]
    simp only [ofCount, hdayOfEra, hera]
    rfl
  · rw [yearStart_add_era]
    omega
  · rw [hnext, yearStart_add_era]
    omega

/-- A place in a year is one in the month and on the day that are computed for it. -/
theorem ofPlace_eq {year : Int} {place : Nat} (h : place < 366) :
  (ofPlace year place).monthFromMarch = (5 * place + 2) / 153
    ∧ (ofPlace year place).marchYear = year
    ∧ 1 ≤ (ofPlace year place).month ∧ (ofPlace year place).month ≤ 12
    ∧ monthStart ((5 * place + 2) / 153) + (ofPlace year place).day = place + 1
  := by
  have hstart : monthStart ((5 * place + 2) / 153) ≤ place := by
    unfold monthStart
    omega
  simp only [ofPlace, monthFromMarch, marchYear]
  split <;> split <;> split <;> omega

/-- The day at a place in a year exists and is at that place. -/
theorem isValid_ofPlace {year : Int} {place : Nat}
    (h : yearStart year + place < yearStart (year + 1)) :
  (ofPlace year place).isValid ∧ (ofPlace year place).count = yearStart year + place - 719468
  := by
  have hplace : place < 366 := by
    rw [yearStart_add_one] at h
    split at h <;> omega
  obtain ⟨hmonth, hyear, hfirst, hlast, hday⟩ := @ofPlace_eq year place hplace
  have hstart : monthStart ((5 * place + 2) / 153) ≤ place
      ∧ place < monthStart ((5 * place + 2) / 153 + 1) := by
    unfold monthStart
    omega
  have hlength : (ofPlace year place).day
      ≤ monthLength (ofPlace year place).year (ofPlace year place).month := by
    by_cases hm : (ofPlace year place).monthFromMarch < 11
    · have hnext := monthStart_add_one hfirst hlast hm
      rw [hmonth] at hnext
      omega
    · have hnext := yearStart_marchYear_add_one hfirst hlast (by omega)
      rw [hmonth, hyear] at hnext
      omega
  constructor
  · exact (isValid_iff _).mpr ⟨hfirst, hlast, by omega, hlength⟩
  · rw [count_eq, dayFromMarch, hmonth, hyear]
    omega

/-- Every count is that of a day which exists. -/
theorem isValid_ofCount (n : Int) :
  (ofCount n).isValid
  := by
  obtain ⟨year, place, hday, -, hplace⟩ := exists_ofCount_eq_ofPlace n
  rw [hday]
  exact (isValid_ofPlace hplace).1

theorem count_ofCount (n : Int) :
  (ofCount n).count = n
  := by
  obtain ⟨year, place, hday, hcount, hplace⟩ := exists_ofCount_eq_ofPlace n
  rw [hday, (isValid_ofPlace hplace).2]
  omega

theorem ofCount_count {d : Day} (hd : d.isValid) :
  ofCount d.count = d
  := by
  apply eq_of_count_eq (isValid_ofCount _) hd (count_ofCount _)

/-- Later counts are those of later days. -/
theorem before_ofCount_iff (m n : Int) :
  (ofCount m).Before (ofCount n) ↔ m < n
  := by
  rw [← count_lt_count_iff (isValid_ofCount m) (isValid_ofCount n), count_ofCount, count_ofCount]

/-! ### One day after the other -/

/-- The day after a day: the next one of its month, or the first of the next month. -/
def next (d : Day) : Day :=
  if d.day < monthLength d.year d.month then { d with day := d.day + 1 }
  else if d.month < 12 then { d with month := d.month + 1, day := 1 }
  else { year := d.year + 1, month := 1, day := 1 }

theorem monthLength_pos (year : Int) (month : Nat) :
  0 < monthLength year month
  := by
  unfold monthLength
  split
  · split <;> decide
  · split <;> decide

theorem isValid_next {d : Day} (hd : d.isValid) :
  d.next.isValid
  := by
  obtain ⟨hmonth, hmonth', hday, -⟩ := (isValid_iff d).mp hd
  rw [isValid_iff, next]
  split
  · exact ⟨hmonth, hmonth', Nat.le_add_left 1 d.day, by assumption⟩
  · split
    · exact ⟨Nat.le_add_left 1 d.month, by assumption, Nat.le_refl 1, monthLength_pos _ _⟩
    · exact ⟨Nat.le_refl 1, Nat.le_add_left 1 11, Nat.le_refl 1, monthLength_pos _ _⟩

theorem count_next {d : Day} (hd : d.isValid) :
  d.next.count = d.count + 1
  := by
  obtain ⟨hmonth, hmonth', hday, hlength⟩ := (isValid_iff d).mp hd
  rw [count_eq, count_eq]
  unfold next
  split
  · -- Only the day of the month grows.
    simp only [marchYear, dayFromMarch, monthFromMarch]
    omega
  · next hlast =>
      have hday' : d.day = monthLength d.year d.month := by omega
      split
      · by_cases hm : d.monthFromMarch < 11
        · have hfebruary : d.month ≠ 2 := by
            intro h
            simp [monthFromMarch, h] at hm
          have hmonth'' : (mk d.year (d.month + 1) 1).monthFromMarch = d.monthFromMarch + 1 := by
            unfold monthFromMarch
            dsimp only
            split <;> split <;> omega
          have hyear : (mk d.year (d.month + 1) 1).marchYear = d.marchYear := by
            unfold marchYear
            dsimp only
            split <;> split <;> omega
          rw [hyear, dayFromMarch, dayFromMarch, hmonth'', monthStart_add_one hmonth hmonth' hm]
          dsimp only
          omega
        · -- February is the last month of the year from March.
          have hfebruary : d.month = 2 := by
            unfold monthFromMarch at hm
            split at hm <;> omega
          have hnext := yearStart_marchYear_add_one hmonth hmonth' (by omega)
          have hyear : (mk d.year (d.month + 1) 1).marchYear = d.marchYear + 1 := by
            simp [marchYear, hfebruary]
          have hplace : (mk d.year (d.month + 1) 1).dayFromMarch = 0 := by
            simp [dayFromMarch, monthFromMarch, hfebruary, monthStart]
          rw [hyear, hplace, hnext, dayFromMarch]
          omega
      · have hdecember : d.month = 12 := by omega
        have hyear : (mk (d.year + 1) 1 1).marchYear = d.marchYear := by
          simp [marchYear, hdecember]
        have hlength' : d.day = 31 := by
          rw [hday', hdecember]
          rfl
        have hplace : d.dayFromMarch = 305 := by
          rw [dayFromMarch, monthFromMarch, hdecember, hlength']
          rfl
        have hplace' : (mk (d.year + 1) 1 1).dayFromMarch = 306 := by
          simp [dayFromMarch, monthFromMarch, monthStart]
        rw [hyear, hplace, hplace']
        omega

/-- Counting goes through the calendar day by day, from the first of January 1970. -/
theorem ofCount_zero_and_add_one :
  ofCount 0 = ⟨1970, 1, 1⟩ ∧ ∀ n, ofCount (n + 1) = (ofCount n).next
  := by
  constructor
  · decide
  · intro n
    have hvalid := isValid_ofCount n
    apply eq_of_count_eq (isValid_ofCount _) (isValid_next hvalid)
    rw [count_ofCount, count_next hvalid, count_ofCount]

end MongoQuery.Day
