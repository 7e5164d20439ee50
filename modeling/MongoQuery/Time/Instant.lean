import MongoQuery.Number.Integer
import MongoQuery.Time.Calendar

/-!
# Instants

An instant is a count of milliseconds from the beginning of 1970 in a signed word of 64
bits.  Going back by days saturates at the ends of the word twice, once when the days are
turned into milliseconds and once when these are subtracted.  The text of an instant
gives its calendar day and time of day where the year has at most four digits, and the
bare count elsewhere.
-/

namespace MongoQuery

/-- A point in time, in milliseconds from the beginning of 1970. -/
structure Instant where
  millis : Int64
deriving DecidableEq, Repr, Inhabited

namespace Instant

/-- The milliseconds of a day. -/
def millisPerDay : Int := 24 * 60 * 60 * 1000

/-- The instant a number of whole days before this one; a negative number goes forward. -/
def daysBefore (now : Instant) (days : Int64) : Instant :=
  let distance := Int64.ofIntClamp (days.toInt * millisPerDay)
  ⟨Int64.ofIntClamp (now.millis.toInt - distance.toInt)⟩

/-! ### Calendar fields -/

/-- A calendar day and a time of day. -/
structure CivilTime where
  day : Day
  hour : Nat
  minute : Nat
  second : Nat
  millisecond : Nat
deriving DecidableEq, Repr

/-- The calendar day and the time of day of an instant. -/
def civil (t : Instant) : CivilTime :=
  let rest := (t.millis.toInt % millisPerDay).toNat
  { day := Day.ofCount (t.millis.toInt / millisPerDay)
    hour := rest / 3600000
    minute := rest / 60000 % 60
    second := rest / 1000 % 60
    millisecond := rest % 1000 }

/-! ### Text -/

private def yearText (year : Int) : List Char :=
  (if year < 0 then ['-'] else []) ++ Digit.padded 4 year.natAbs

private def fractionText (millisecond : Nat) : List Char :=
  match ((Digit.padded 3 millisecond).reverse.dropWhile (· = '0')).reverse with
  | [] => ['0']
  | digits => digits

/-- The text of an instant in messages: day, time and offset, the fraction of the second
without zeros at its end, or the bare count where the year has more than four digits. -/
def describe (t : Instant) : String :=
  let f := t.civil
  if -9999 ≤ f.day.year ∧ f.day.year ≤ 9999 then
    String.ofList (yearText f.day.year ++ '-' :: Digit.padded 2 f.day.month
      ++ '-' :: Digit.padded 2 f.day.day ++ ' ' :: Digit.ofNatText f.hour
      ++ ':' :: Digit.padded 2 f.minute ++ ':' :: Digit.padded 2 f.second
      ++ '.' :: fractionText f.millisecond) ++ " +00:00:00"
  else Integer.text t.millis.toInt

end Instant

end MongoQuery
