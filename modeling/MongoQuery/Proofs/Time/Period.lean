import Mathlib.Data.String.Basic
import MongoQuery.Proofs.Number.Decimal
import MongoQuery.Proofs.Time.Civil
import MongoQuery.Query.Aggregation

/-!
# Periods of the calendar and the texts that stand for them

Two instants lie in the same period of an interval when they have the same fields down to that
of the interval.  Every period begins with a first instant, whose lower fields are the least
ones, and the format of an interval writes these in the place of the lower fields.  As all
fields are written in texts of a fixed width, the texts are in the order of the fields and so in
that of the instants.

Main statement: the text that the format of an interval gives an instant is the one that the
format of milliseconds gives the first instant of its period, so it is the same for two instants
exactly when they lie in the same period, and the texts are in the order of the periods.
-/

namespace MongoQuery

/-- The number of fields, from the year on, that make a period of an interval. -/
def DateInterval.fieldCount : DateInterval → Nat
  | .year => 1
  | .month => 2
  | .day => 3
  | .hour => 4
  | .minutes => 5
  | .seconds => 6
  | .milliseconds => 7

namespace Instant

/-! ### Formats -/

namespace CivilTime

/-- The text of the field that a letter stands for in formats. -/
def fieldText? (c : CivilTime) : Char → Option (List Char)
  | 'Y' => some (Digit.padded 4 c.day.year.toNat)
  | 'm' => some (Digit.padded 2 c.day.month)
  | 'd' => some (Digit.padded 2 c.day.day)
  | 'H' => some (Digit.padded 2 c.hour)
  | 'M' => some (Digit.padded 2 c.minute)
  | 'S' => some (Digit.padded 2 c.second)
  | 'L' => some (Digit.padded 3 c.millisecond)
  | _ => none

/-- The text of a format, with a field for each letter behind a percent sign. -/
def formatChars (c : CivilTime) : List Char → List Char
  | '%' :: letter :: rest => ((c.fieldText? letter).getD ['%', letter]) ++ formatChars c rest
  | other :: rest => other :: formatChars c rest
  | [] => []

/-- The text of a civil time in the format of milliseconds. -/
def stamp (c : CivilTime) : List Char :=
  c.formatChars DateInterval.milliseconds.format.toList

theorem stamp_eq (c : CivilTime) :
  c.stamp = Digit.padded 4 c.day.year.toNat ++ ('-' :: (Digit.padded 2 c.day.month
    ++ '-' :: (Digit.padded 2 c.day.day ++ 'T' :: (Digit.padded 2 c.hour
    ++ ':' :: (Digit.padded 2 c.minute ++ ':' :: (Digit.padded 2 c.second
    ++ '.' :: (Digit.padded 3 c.millisecond ++ [])))))))
  := by
  rfl

/-- The civil time at the beginning of the period of an interval. -/
def truncate (interval : DateInterval) (c : CivilTime) : CivilTime :=
  match interval with
  | .year => ⟨⟨c.day.year, 1, 1⟩, 0, 0, 0, 0⟩
  | .month => ⟨⟨c.day.year, c.day.month, 1⟩, 0, 0, 0, 0⟩
  | .day => ⟨c.day, 0, 0, 0, 0⟩
  | .hour => ⟨c.day, c.hour, 0, 0, 0⟩
  | .minutes => ⟨c.day, c.hour, c.minute, 0, 0⟩
  | .seconds => ⟨c.day, c.hour, c.minute, c.second, 0⟩
  | .milliseconds => c

theorem padded_least :
  Digit.padded 2 1 = ['0', '1'] ∧ Digit.padded 2 0 = ['0', '0']
    ∧ Digit.padded 3 0 = ['0', '0', '0']
  := by
  have hzero : Digit.padded 1 0 = ['0'] := Digit.padded_one 0
  have hone : Digit.padded 2 1 = ['0', '1'] := by
    apply (Digit.padded_add_one (by decide) 0 1).trans
    rw [hzero]
    rfl
  have hzeros : Digit.padded 2 0 = ['0', '0'] := by
    apply (Digit.padded_add_one (by decide) 0 0).trans
    rw [hzero]
    rfl
  use hone, hzeros
  apply (Digit.padded_add_one (by decide) 0 0).trans
  rw [hzeros]
  rfl

/-- The format of an interval writes the beginning of the period. -/
theorem formatChars_format (interval : DateInterval) (c : CivilTime) :
  c.formatChars interval.format.toList = (c.truncate interval).stamp
  := by
  obtain ⟨hone, hzero, hzeros⟩ := padded_least
  rw [stamp_eq]
  cases interval <;> simp only [truncate, hone, hzero, hzeros] <;> rfl

/-- The year is written with four digits. -/
def HasFourDigitYear (c : CivilTime) : Prop :=
  0 ≤ c.day.year ∧ c.day.year ≤ 9999

variable {c d : CivilTime}

/-- The fields from the month on fit the widths of their texts. -/
theorem IsValid.digits (hc : c.IsValid) :
  c.day.month < 10 ^ 2 ∧ c.day.day < 10 ^ 2 ∧ c.hour < 10 ^ 2 ∧ c.minute < 10 ^ 2
    ∧ c.second < 10 ^ 2 ∧ c.millisecond < 10 ^ 3
  := by
  obtain ⟨hday, hhour, hminute, hsecond, hmillisecond⟩ := hc
  obtain ⟨-, hmonth, -, hlength⟩ := (Day.isValid_iff _).mp hday
  have hlength' : Day.monthLength c.day.year c.day.month ≤ 31 := by
    unfold Day.monthLength
    split
    · split <;> decide
    · split <;> decide
  omega

/-- Texts of civil times are in the order of the fields. -/
theorem stamp_lt_stamp_iff (hc : c.IsValid) (hd : d.IsValid) (hyear : c.HasFourDigitYear)
    (hyear' : d.HasFourDigitYear) :
  c.stamp < d.stamp ↔ c.fields < d.fields
  := by
  obtain ⟨hmonth, hday, hhour, hminute, hsecond, hmillisecond⟩ := hc.digits
  obtain ⟨hmonth', hday', hhour', hminute', hsecond', hmillisecond'⟩ := hd.digits
  obtain ⟨hfirst, hlast⟩ := hyear
  obtain ⟨hfirst', hlast'⟩ := hyear'
  have hyears := Digit.padded_append_lt_iff (show 0 < 4 by decide)
    (show c.day.year.toNat < 10 ^ 4 by omega) (show d.day.year.toNat < 10 ^ 4 by omega)
  have hpairs : ∀ {m n : Nat}, m < 10 ^ 2 → n < 10 ^ 2 → ∀ cs ds : List Char,
      Digit.padded 2 m ++ cs < Digit.padded 2 n ++ ds ↔ m < n ∨ m = n ∧ cs < ds :=
    Digit.padded_append_lt_iff (by decide)
  have hmillis := Digit.padded_append_lt_iff (by decide) hmillisecond hmillisecond'
  have hsame : ∀ (a : Char) (cs ds : List Char), a :: cs < a :: ds ↔ cs < ds := by simp
  rw [stamp_eq, stamp_eq]
  simp only [hyears, hpairs hmonth hmonth', hpairs hday hday', hpairs hhour hhour',
    hpairs hminute hminute', hpairs hsecond hsecond', hmillis, hsame]
  simp only [fields, List.cons_lt_cons_iff, List.lt_irrefl, and_false, or_false]
  omega

/-! ### The beginning of a period -/

theorem isValid_truncate (interval : DateInterval) (hc : c.IsValid) :
  (c.truncate interval).IsValid
  := by
  have hday := (Day.isValid_iff _).mp hc.day
  have hfirst : ∀ month, 1 ≤ month → month ≤ 12 →
      (Day.mk c.day.year month 1).isValid := by
    intro month hmonth hmonth'
    exact (Day.isValid_iff _).mpr ⟨hmonth, hmonth', Nat.le_refl 1, Day.monthLength_pos _ _⟩
  have hleast : ∀ n, 0 < n + 1 := Nat.succ_pos
  cases interval with
  | year =>
      have hjanuary := hfirst 1 (by decide) (by decide)
      exact ⟨hjanuary, hleast _, hleast _, hleast _, hleast _⟩
  | month => exact ⟨hfirst _ hday.1 hday.2.1, hleast _, hleast _, hleast _, hleast _⟩
  | day => exact ⟨hc.day, hleast _, hleast _, hleast _, hleast _⟩
  | hour => exact ⟨hc.day, hc.hour, hleast _, hleast _, hleast _⟩
  | minutes => exact ⟨hc.day, hc.hour, hc.minute, hleast _, hleast _⟩
  | seconds => exact ⟨hc.day, hc.hour, hc.minute, hc.second, hleast _⟩
  | milliseconds => exact hc

theorem hasFourDigitYear_truncate (interval : DateInterval) (hc : c.HasFourDigitYear) :
  (c.truncate interval).HasFourDigitYear
  := by
  cases interval <;> exact hc

/-- The beginning of a period has the fields that make the period. -/
theorem take_fields_truncate (interval : DateInterval) (c : CivilTime) :
  (c.truncate interval).fields.take interval.fieldCount = c.fields.take interval.fieldCount
  := by
  cases interval <;> rfl

/-- The beginning of a period is made of the fields that make the period. -/
theorem truncate_eq_of_take_fields_eq {interval : DateInterval}
    (h : c.fields.take interval.fieldCount = d.fields.take interval.fieldCount) :
  c.truncate interval = d.truncate interval
  := by
  obtain ⟨⟨year, month, day⟩, hour, minute, second, millisecond⟩ := c
  obtain ⟨⟨year', month', day'⟩, hour', minute', second', millisecond'⟩ := d
  cases interval <;> simp_all [fields, DateInterval.fieldCount, truncate]

/-- Nothing in a period is before its beginning. -/
theorem not_lt_truncate (interval : DateInterval) (hc : c.IsValid) :
  ¬ c.fields < (c.truncate interval).fields
  := by
  obtain ⟨hmonth, -, hday, -⟩ := (Day.isValid_iff _).mp hc.day
  cases interval
  case milliseconds => exact List.lt_irrefl _
  all_goals
    simp only [truncate, fields, List.cons_lt_cons_iff, List.lt_irrefl, and_false, or_false]
    omega

end CivilTime

theorem lt_of_take_lt_take {xs ys : List Int} {n : Nat} (h : xs.take n < ys.take n) :
  xs < ys
  := by
  induction n generalizing xs ys with
  | zero =>
      rw [List.take_zero, List.take_zero] at h
      exact absurd h (List.lt_irrefl [])
  | succ n ih =>
      cases ys with
      | nil =>
          rw [List.take_nil] at h
          exact absurd h (List.not_lt_nil _)
      | cons y ys =>
          cases xs with
          | nil => apply List.nil_lt_cons
          | cons x xs =>
              rw [List.take_succ_cons, List.take_succ_cons, List.cons_lt_cons_iff] at h
              rw [List.cons_lt_cons_iff]
              exact h.imp_right fun ⟨heq, hlt⟩ => ⟨heq, ih hlt⟩

/-- The beginnings of two periods are in the order of the fields that make the periods. -/
theorem truncate_lt_truncate_iff (interval : DateInterval) (c d : CivilTime) :
  (c.truncate interval).fields < (d.truncate interval).fields
    ↔ c.fields.take interval.fieldCount < d.fields.take interval.fieldCount
  := by
  have hlt : ∀ {c d : CivilTime},
      c.fields.take interval.fieldCount < d.fields.take interval.fieldCount →
        (c.truncate interval).fields < (d.truncate interval).fields := by
    intro c d h
    apply lt_of_take_lt_take
    rw [CivilTime.take_fields_truncate, CivilTime.take_fields_truncate]
    exact h
  constructor
  · intro h
    rcases lt_trichotomy (c.fields.take interval.fieldCount)
      (d.fields.take interval.fieldCount) with hbefore | heq | hbefore
    · exact hbefore
    · rw [CivilTime.truncate_eq_of_take_fields_eq heq] at h
      exact absurd h (lt_irrefl _)
    · exact absurd h (lt_asymm (hlt hbefore))
  · exact hlt

/-! ### Periods -/

/-- Two instants lie in the same period of an interval: they have the same fields down to that
of the interval. -/
def SamePeriod (interval : DateInterval) (t u : Instant) : Prop :=
  t.civil.fields.take interval.fieldCount = u.civil.fields.take interval.fieldCount

/-- An instant is the first one of the period of an interval in which another one lies. -/
structure IsFirstOf (interval : DateInterval) (s t : Instant) : Prop where
  samePeriod : SamePeriod interval s t
  least : ∀ u, SamePeriod interval u t → s.millis ≤ u.millis

/-- The text that a format gives an instant. -/
def format (format : String) (t : Instant) : String :=
  String.ofList (t.civil.formatChars format.toList)

variable {interval : DateInterval} {t u : Instant}

/-- Every period begins with an instant. -/
theorem exists_civil_eq_truncate (interval : DateInterval) (hyear : 0 ≤ t.civil.day.year) :
  ∃ s : Instant, s.civil = t.civil.truncate interval
  := by
  have hvalid := CivilTime.isValid_truncate interval t.isValid_civil
  have hupper : (t.civil.truncate interval).count ≤ t.millis.toInt := by
    have hle := CivilTime.not_lt_truncate interval t.isValid_civil
    rw [← CivilTime.count_lt_count_iff t.isValid_civil hvalid, count_civil] at hle
    omega
  have hday : -719834 ≤ (t.civil.truncate interval).day.count := by
    apply Day.le_count_of_nonneg
    cases interval <;> exact hyear
  have hlower : -(2 : Int) ^ 63 ≤ (t.civil.truncate interval).count := by
    rw [CivilTime.count, millisPerDay]
    omega
  have hlast : t.millis.toInt < (2 : Int) ^ 63 := Int64.toInt_lt t.millis
  use ⟨Int64.ofInt (t.civil.truncate interval).count⟩
  rw [civil_eq_iff _ hvalid]
  apply Int64.toInt_ofInt_of_le hlower (by omega)

/-- The beginning of a period is the first instant of it. -/
theorem isFirstOf_of_civil_eq {s : Instant} (h : s.civil = t.civil.truncate interval) :
  IsFirstOf interval s t
  := by
  constructor
  · rw [SamePeriod, h, CivilTime.take_fields_truncate]
  · intro u hu
    have hle : ¬ u.civil.fields < s.civil.fields := by
      rw [h, ← CivilTime.truncate_eq_of_take_fields_eq hu]
      apply CivilTime.not_lt_truncate interval u.isValid_civil
    rw [← lt_iff_fields_lt] at hle
    exact Int64.not_lt.mp hle

/-- The format of an interval writes the beginning of the period. -/
theorem format_eq (interval : DateInterval) (t : Instant) :
  t.format interval.format = String.ofList (t.civil.truncate interval).stamp
  := by
  rw [format, CivilTime.formatChars_format]

theorem format_lt_format_iff (ht : t.civil.HasFourDigitYear) (hu : u.civil.HasFourDigitYear) :
  t.format interval.format < u.format interval.format
    ↔ t.civil.fields.take interval.fieldCount < u.civil.fields.take interval.fieldCount
  := by
  rw [format_eq, format_eq, String.lt_iff_toList_lt, String.toList_ofList, String.toList_ofList,
    CivilTime.stamp_lt_stamp_iff (CivilTime.isValid_truncate interval t.isValid_civil)
      (CivilTime.isValid_truncate interval u.isValid_civil)
      (CivilTime.hasFourDigitYear_truncate interval ht)
      (CivilTime.hasFourDigitYear_truncate interval hu), truncate_lt_truncate_iff]

/-- Texts are the same for the instants of a period only. -/
theorem format_eq_format_iff (ht : t.civil.HasFourDigitYear) (hu : u.civil.HasFourDigitYear) :
  t.format interval.format = u.format interval.format ↔ SamePeriod interval t u
  := by
  constructor
  · intro h
    rcases lt_trichotomy (t.civil.fields.take interval.fieldCount)
      (u.civil.fields.take interval.fieldCount) with hlt | heq | hlt
    · rw [← format_lt_format_iff ht hu, h] at hlt
      exact absurd hlt (String.lt_irrefl _)
    · exact heq
    · rw [← format_lt_format_iff hu ht, h] at hlt
      exact absurd hlt (String.lt_irrefl _)
  · intro h
    rw [format_eq, format_eq, CivilTime.truncate_eq_of_take_fields_eq h]

/-- A period lies in one period of every longer interval. -/
theorem SamePeriod.of_le {longer : DateInterval} (h : SamePeriod interval t u)
    (hle : longer.fieldCount ≤ interval.fieldCount) :
  SamePeriod longer t u
  := by
  have htake := congrArg (List.take longer.fieldCount) h
  rw [List.take_take, List.take_take, Nat.min_eq_left hle] at htake
  exact htake

/-- Texts are in the order of the periods. -/
theorem format_lt_format_iff_forall (ht : t.civil.HasFourDigitYear)
    (hu : u.civil.HasFourDigitYear) :
  t.format interval.format < u.format interval.format
    ↔ ∀ t' u', SamePeriod interval t' t → SamePeriod interval u' u → t'.millis < u'.millis
  := by
  rw [format_lt_format_iff ht hu]
  constructor
  · intro h t' u' ht' hu'
    rw [lt_iff_fields_lt]
    apply lt_of_take_lt_take
    rw [ht', hu']
    exact h
  · intro h
    rcases lt_trichotomy (t.civil.fields.take interval.fieldCount)
      (u.civil.fields.take interval.fieldCount) with hlt | heq | hlt
    · exact hlt
    · exact absurd (h t t rfl heq) Int64.lt_irrefl
    · have hlt' := lt_of_take_lt_take hlt
      rw [← lt_iff_fields_lt] at hlt'
      exact absurd (h t u rfl rfl) (Int64.lt_asymm hlt')

/-- The text that the format of an interval gives an instant of the years 0 to 9999 is the one
that the format of milliseconds gives the first instant of its period.  So two instants have
the same text exactly when they lie in the same period, those that have the same text for an
interval have the same text for every longer one, and the texts are in the order of the
periods. -/
theorem formats_tell_periods (interval : DateInterval) (t u : Instant)
    (ht : 0 ≤ t.civil.day.year ∧ t.civil.day.year ≤ 9999)
    (hu : 0 ≤ u.civil.day.year ∧ u.civil.day.year ≤ 9999) :
  (∃ s, IsFirstOf interval s t
    ∧ t.format interval.format = s.format DateInterval.milliseconds.format)
  ∧ (t.format interval.format = u.format interval.format ↔ SamePeriod interval t u)
  ∧ (∀ longer : DateInterval, longer.fieldCount ≤ interval.fieldCount →
    t.format interval.format = u.format interval.format →
      t.format longer.format = u.format longer.format)
  ∧ (t.format interval.format < u.format interval.format
    ↔ ∀ t' u', SamePeriod interval t' t → SamePeriod interval u' u → t'.millis < u'.millis)
  := by
  refine ⟨?_, format_eq_format_iff ht hu, ?_, format_lt_format_iff_forall ht hu⟩
  · obtain ⟨s, hs⟩ := exists_civil_eq_truncate interval ht.1
    use s, isFirstOf_of_civil_eq hs
    rw [format_eq, ← hs]
    rfl
  · intro longer hle h
    rw [format_eq_format_iff ht hu] at h ⊢
    exact h.of_le hle

/-- The last millisecond of a leap day. -/
def leapNight : Instant := ⟨1709251199999⟩

/-- The last millisecond before 1970. -/
def newYearsEve : Instant := ⟨-1⟩

theorem formats_tell_periods_leapNight :
  leapNight.civil.day = ⟨2024, 2, 29⟩ ∧ newYearsEve.civil.day = ⟨1969, 12, 31⟩
    ∧ (∃ s, IsFirstOf .month s leapNight
      ∧ leapNight.format DateInterval.month.format = s.format DateInterval.milliseconds.format)
    ∧ leapNight.format DateInterval.month.format ≠ newYearsEve.format DateInterval.month.format
  := by
  have hyears : (0 ≤ leapNight.civil.day.year ∧ leapNight.civil.day.year ≤ 9999)
      ∧ 0 ≤ newYearsEve.civil.day.year ∧ newYearsEve.civil.day.year ≤ 9999 := by
    decide
  have hperiods : ¬ SamePeriod .month leapNight newYearsEve := by
    unfold SamePeriod
    decide
  obtain ⟨hfirst, hsame, -, -⟩ :=
    formats_tell_periods .month leapNight newYearsEve hyears.1 hyears.2
  exact ⟨by decide, by decide, hfirst, fun h => hperiods (hsame.mp h)⟩

end Instant

end MongoQuery
