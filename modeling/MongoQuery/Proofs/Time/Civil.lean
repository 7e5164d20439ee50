import Mathlib.Data.List.Lex
import MongoQuery.Proofs.Time.Calendar
import MongoQuery.Time.Instant

/-!
# Civil times as an order of instants

The fields of the civil time of an instant, from the year down to the millisecond, are those of
an existing day and time of day, and instants are in the lexicographic order of these fields.
-/

namespace MongoQuery.Instant

namespace CivilTime

/-- The calendar has the day and the clock shows the time of day. -/
structure IsValid (c : CivilTime) : Prop where
  day : c.day.isValid
  hour : c.hour < 24
  minute : c.minute < 60
  second : c.second < 60
  millisecond : c.millisecond < 1000

/-- The number of milliseconds from the beginning of the day. -/
def millisOfDay (c : CivilTime) : Nat :=
  c.hour * 3600000 + c.minute * 60000 + c.second * 1000 + c.millisecond

/-- The number of milliseconds from the beginning of 1970. -/
def count (c : CivilTime) : Int :=
  c.day.count * millisPerDay + c.millisOfDay

/-- The fields, from the year to the millisecond. -/
def fields (c : CivilTime) : List Int :=
  [c.day.year, c.day.month, c.day.day, c.hour, c.minute, c.second, c.millisecond]

variable {c d : CivilTime}

theorem IsValid.millisOfDay_lt (hc : c.IsValid) :
  c.millisOfDay < 86400000
  := by
  have hhour := hc.hour
  have hminute := hc.minute
  have hsecond := hc.second
  have hmillisecond := hc.millisecond
  unfold millisOfDay
  omega

/-- Times of the same day are in the order of their fields. -/
theorem millisOfDay_lt_iff (hc : c.IsValid) (hd : d.IsValid) :
  c.millisOfDay < d.millisOfDay
    ↔ ([c.hour, c.minute, c.second, c.millisecond] : List Int)
      < [(d.hour : Int), d.minute, d.second, d.millisecond]
  := by
  have hminute := hc.minute
  have hsecond := hc.second
  have hmillisecond := hc.millisecond
  have hminute' := hd.minute
  have hsecond' := hd.second
  have hmillisecond' := hd.millisecond
  simp only [List.cons_lt_cons_iff, List.lt_irrefl, and_false, or_false, millisOfDay]
  omega

/-- Civil times are counted in the order of their fields. -/
theorem count_lt_count_iff (hc : c.IsValid) (hd : d.IsValid) :
  c.count < d.count ↔ c.fields < d.fields
  := by
  have hlt := hc.millisOfDay_lt
  have hlt' := hd.millisOfDay_lt
  have htime := millisOfDay_lt_iff hc hd
  have hday := Day.count_lt_count_iff hc.day hd.day
  have heq : c.day.count = d.day.count ↔ c.day = d.day :=
    ⟨Day.eq_of_count_eq hc.day hd.day, congrArg Day.count⟩
  have hfields : c.fields < d.fields
      ↔ c.day.Before d.day ∨ c.day = d.day ∧ c.millisOfDay < d.millisOfDay := by
    have hday' : c.day = d.day
        ↔ c.day.year = d.day.year ∧ c.day.month = d.day.month ∧ c.day.day = d.day.day := by
      cases c.day
      cases d.day
      simp
    rw [htime, hday', Day.Before]
    simp only [fields, List.cons_lt_cons_iff, List.lt_irrefl, and_false, or_false]
    omega
  rw [hfields, ← hday, ← heq, count, count, millisPerDay]
  omega

theorem fields_injective (h : c.fields = d.fields) :
  c = d
  := by
  obtain ⟨⟨year, month, day⟩, hour, minute, second, millisecond⟩ := c
  obtain ⟨⟨year', month', day'⟩, hour', minute', second', millisecond'⟩ := d
  simp only [fields, List.cons.injEq, Int.natCast_inj] at h
  simp [h]

/-- Different civil times have different counts. -/
theorem eq_of_count_eq (hc : c.IsValid) (hd : d.IsValid) (h : c.count = d.count) :
  c = d
  := by
  apply fields_injective
  rcases lt_trichotomy c.fields d.fields with hlt | heq | hlt
  · rw [← count_lt_count_iff hc hd] at hlt
    omega
  · exact heq
  · rw [← count_lt_count_iff hd hc] at hlt
    omega

end CivilTime

/-! ### Instants -/

theorem isValid_civil (t : Instant) :
  t.civil.IsValid
  := by
  have hrest : (t.millis.toInt % millisPerDay).toNat < 86400000 := by
    rw [millisPerDay]
    omega
  constructor
  · apply Day.isValid_ofCount
  · dsimp only [civil]
    omega
  · dsimp only [civil]
    omega
  · dsimp only [civil]
    omega
  · dsimp only [civil]
    omega

theorem count_civil (t : Instant) :
  t.civil.count = t.millis.toInt
  := by
  simp only [CivilTime.count, CivilTime.millisOfDay, civil, Day.count_ofCount, millisPerDay]
  omega

/-- An instant has the civil time that its milliseconds count. -/
theorem civil_eq_iff (t : Instant) {c : CivilTime} (hc : c.IsValid) :
  t.civil = c ↔ t.millis.toInt = c.count
  := by
  constructor
  · rintro rfl
    rw [count_civil]
  · intro h
    apply CivilTime.eq_of_count_eq t.isValid_civil hc
    rw [count_civil, h]

/-- Instants are in the order of the fields of their civil times. -/
theorem lt_iff_fields_lt (t u : Instant) :
  t.millis < u.millis ↔ t.civil.fields < u.civil.fields
  := by
  rw [← CivilTime.count_lt_count_iff t.isValid_civil u.isValid_civil, count_civil, count_civil,
    Int64.lt_iff_toInt_lt]

end MongoQuery.Instant
