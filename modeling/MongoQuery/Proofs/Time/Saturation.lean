import Mathlib.Tactic.Use
import MongoQuery.Query.Comparison

/-!
# Instants of past days

Going back by days saturates twice, when the days are turned into milliseconds and when these
are subtracted from the instant.  Both times the integer of the nearest word is taken, which
keeps the order of integers and the sign of a distance, so going back further never comes
later, and neither does going back from an earlier instant.

Main statement: the instant of a relative bound is the difference, clamped, as long as the
milliseconds of the days are those of a word; and everywhere it lies on the right side of the
instant from which it is counted and keeps the order of instants and of days.
-/

namespace MongoQuery

/-! ### Clamping -/

namespace Integer

/-- An integer is that of a signed word of 64 bits. -/
def Fits (n : Int) : Prop :=
  Int64.minValue.toInt ≤ n ∧ n ≤ Int64.maxValue.toInt

/-- The integer of a signed word of 64 bits that is nearest to a given one. -/
def clamp (n : Int) : Int :=
  max Int64.minValue.toInt (min n Int64.maxValue.toInt)

instance (n : Int) : Decidable (Fits n) :=
  inferInstanceAs (Decidable (_ ∧ _))

theorem fits_toInt (w : Int64) :
  Fits w.toInt
  := by
  use w.minValue_le_toInt, w.toInt_le

theorem clamp_of_fits {n : Int} (h : Fits n) :
  clamp n = n
  := by
  obtain ⟨hmin, hmax⟩ := h
  rw [clamp]
  omega

theorem clamp_mono {m n : Int} (h : m ≤ n) :
  clamp m ≤ clamp n
  := by
  rw [clamp, clamp]
  omega

/-- The word in which an integer is put has the nearest integer. -/
theorem toInt_ofIntClamp (n : Int) :
  (Int64.ofIntClamp n).toInt = clamp n
  := by
  have hrange : Int64.minValue.toInt ≤ Int64.maxValue.toInt := by decide
  by_cases hmin : Int64.minValue.toInt ≤ n
  · by_cases hmax : n ≤ Int64.maxValue.toInt
    · rw [Int64.toInt_ofIntClamp hmin hmax, clamp_of_fits ⟨hmin, hmax⟩]
    · rw [Int64.ofIntClamp, dif_pos hmin, dif_neg hmax, clamp]
      omega
  · rw [Int64.ofIntClamp, dif_neg hmin, clamp]
    omega

end Integer

/-! ### Going back by days -/

namespace Instant

open Integer (Fits clamp clamp_of_fits clamp_mono toInt_ofIntClamp fits_toInt)

/-- The milliseconds by which days go back, saturated. -/
def distance (days : Int64) : Int :=
  clamp (days.toInt * millisPerDay)

theorem toInt_daysBefore (now : Instant) (days : Int64) :
  (now.daysBefore days).millis.toInt = clamp (now.millis.toInt - distance days)
  := by
  rw [daysBefore, toInt_ofIntClamp, toInt_ofIntClamp, distance]

theorem distance_mono {days more : Int64} (h : days.toInt ≤ more.toInt) :
  distance days ≤ distance more
  := by
  apply clamp_mono
  rw [millisPerDay]
  omega

theorem distance_zero :
  distance 0 = 0
  := by
  decide

/-- As long as the milliseconds of the days are those of a word, only the difference is
clamped. -/
theorem toInt_daysBefore_of_fits (now : Instant) {days : Int64}
    (h : Fits (days.toInt * millisPerDay)) :
  (now.daysBefore days).millis.toInt = clamp (now.millis.toInt - days.toInt * millisPerDay)
  := by
  rw [toInt_daysBefore, distance, clamp_of_fits h]

/-- Going back further never comes later. -/
theorem daysBefore_antitone (now : Instant) {days more : Int64} (h : days.toInt ≤ more.toInt) :
  (now.daysBefore more).millis.toInt ≤ (now.daysBefore days).millis.toInt
  := by
  rw [toInt_daysBefore, toInt_daysBefore]
  apply clamp_mono
  have hdistance := distance_mono h
  omega

/-- Going back from a later instant never comes earlier. -/
theorem daysBefore_mono {now later : Instant} (h : now.millis.toInt ≤ later.millis.toInt)
    (days : Int64) :
  (now.daysBefore days).millis.toInt ≤ (later.daysBefore days).millis.toInt
  := by
  rw [toInt_daysBefore, toInt_daysBefore]
  apply clamp_mono
  omega

theorem toInt_daysBefore_zero (now : Instant) :
  (now.daysBefore 0).millis.toInt = now.millis.toInt
  := by
  rw [toInt_daysBefore, distance_zero, Int.sub_zero, clamp_of_fits (fits_toInt _)]

/-- Days back lead to no later instant, since no days at all stay where they are. -/
theorem daysBefore_le (now : Instant) {days : Int64} (h : 0 ≤ days.toInt) :
  (now.daysBefore days).millis.toInt ≤ now.millis.toInt
  := by
  rw [← Int64.toInt_zero] at h
  rw [← toInt_daysBefore_zero now]
  apply daysBefore_antitone now h

/-- Days forward lead to no earlier instant. -/
theorem le_daysBefore (now : Instant) {days : Int64} (h : days.toInt ≤ 0) :
  now.millis.toInt ≤ (now.daysBefore days).millis.toInt
  := by
  rw [← Int64.toInt_zero] at h
  rw [← toInt_daysBefore_zero now]
  apply daysBefore_antitone now h

end Instant

/-! ### The main statement -/

open Integer in
/-- A relative bound is a date within the range of words.  It is the instant less the
milliseconds of the days, clamped, where these fit a word, and the exact difference where this
fits as well.  It is no later than the instant for days back and no earlier for days forward;
more days never give a later date, and a later instant never an earlier one. -/
theorem Bound.resolve_daysAgo_saturates (now : Instant) (days : Int64) :
  ∃ t : Instant, (Bound.daysAgo days).resolve now = .date t
    ∧ Fits t.millis.toInt
    ∧ (Fits (days.toInt * 86400000) →
      t.millis.toInt = clamp (now.millis.toInt - days.toInt * 86400000))
    ∧ (Fits (days.toInt * 86400000) → Fits (now.millis.toInt - days.toInt * 86400000) →
      t.millis.toInt = now.millis.toInt - days.toInt * 86400000)
    ∧ (0 ≤ days.toInt → t.millis.toInt ≤ now.millis.toInt)
    ∧ (days.toInt ≤ 0 → now.millis.toInt ≤ t.millis.toInt)
    ∧ (∀ (more : Int64) (u : Instant), days.toInt ≤ more.toInt →
      (Bound.daysAgo more).resolve now = .date u → u.millis.toInt ≤ t.millis.toInt)
    ∧ ∀ later u : Instant, now.millis.toInt ≤ later.millis.toInt →
      (Bound.daysAgo days).resolve later = .date u → t.millis.toInt ≤ u.millis.toInt
  := by
  use now.daysBefore days, rfl, fits_toInt _
  constructor
  · intro hproduct
    apply now.toInt_daysBefore_of_fits hproduct
  constructor
  · intro hproduct hdifference
    rw [now.toInt_daysBefore_of_fits hproduct]
    apply clamp_of_fits hdifference
  constructor
  · apply now.daysBefore_le
  constructor
  · apply now.le_daysBefore
  constructor
  · intro more u hmore hu
    obtain rfl := Value.date.inj hu
    apply now.daysBefore_antitone hmore
  · intro later u hlater hu
    obtain rfl := Value.date.inj hu
    apply Instant.daysBefore_mono hlater

/-- One day after the first instant that there is. -/
def Instant.dawn : Instant :=
  ⟨Int64.minValue + 86400000⟩

open Integer in
/-- Three days before there is the first instant itself, and so many days that their
milliseconds fit no word do not lead past it; three days on is the exact sum. -/
theorem Bound.resolve_daysAgo_saturates_dawn :
  Fits ((3 : Int64).toInt * 86400000) ∧ ¬ Fits ((200000000000 : Int64).toInt * 86400000)
    ∧ ∃ first last forward : Instant,
      (Bound.daysAgo 3).resolve .dawn = .date first ∧ first.millis = Int64.minValue
      ∧ (Bound.daysAgo 200000000000).resolve .dawn = .date last
      ∧ last.millis.toInt ≤ first.millis.toInt
      ∧ (Bound.daysAgo (-3)).resolve .dawn = .date forward
      ∧ forward.millis.toInt = Instant.dawn.millis.toInt + 259200000
  := by
  have hfits : Fits ((3 : Int64).toInt * 86400000) := by decide
  obtain ⟨first, hfirst, -, hclamped, -, -, -, hmore, -⟩ :=
    resolve_daysAgo_saturates .dawn 3
  obtain ⟨last, hlast, -⟩ := resolve_daysAgo_saturates .dawn 200000000000
  obtain ⟨forward, hforward, -, -, hexact, -⟩ := resolve_daysAgo_saturates .dawn (-3)
  use hfits, by decide, first, last, forward, hfirst
  constructor
  · apply Int64.toInt_inj.mp
    rw [hclamped hfits]
    decide
  use hlast, hmore _ last (by decide) hlast, hforward
  rw [hexact (by decide) (by decide)]
  decide

end MongoQuery
