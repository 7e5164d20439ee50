import MongoQuery.Time.Instant

/-!
# Internet timestamps

The reader of RFC 3339 timestamps: a calendar day, one character, a time of day with an
optional fraction of the second, and an offset from universal time.  A sixtieth second is
read only where a leap second can stand, at the end of a month in universal time, and then
counts as the end of the second before it.  What is finer than a millisecond is cut off
toward the beginning of 1970.
-/

namespace MongoQuery.Rfc3339

/-- A number of exactly two digits. -/
def pair? : List Char → Option (Nat × List Char)
  | a :: b :: rest => do
    let a ← Digit.ofChar? a
    let b ← Digit.ofChar? b
    some (10 * a.val + b.val, rest)
  | _ => none

/-- A given character. -/
def skip? (c : Char) : List Char → Option (List Char)
  | first :: rest => if first = c then some rest else none
  | [] => none

private def day? (cs : List Char) : Option (Day × List Char) := do
  let (century, cs) ← pair? cs
  let (year, cs) ← pair? cs
  let cs ← skip? '-' cs
  let (month, cs) ← pair? cs
  let cs ← skip? '-' cs
  let (day, cs) ← pair? cs
  let d : Day := ⟨100 * century + year, month, day⟩
  if d.isValid then some (d, cs) else none

private def separator? : List Char → Option (List Char)
  | c :: rest => if c.toNat < 128 then some rest else none
  | [] => none

/-- The nanoseconds after a point, of which only the first nine digits count. -/
private def fraction? : List Char → Option (Nat × List Char)
  | '.' :: rest =>
    match Digit.scan rest with
    | ([], _) => none
    | (digits, rest) =>
      let kept := digits.take 9
      some (Digit.value kept * tenTo (9 - kept.length), rest)
  | rest => some (0, rest)

/-- The offset from universal time in seconds, at the end of the text. -/
private def offset? : List Char → Option Int
  | ['Z'] => some 0
  | ['z'] => some 0
  | sign :: cs => do
    let (hours, cs) ← pair? cs
    let cs ← skip? ':' cs
    let (minutes, cs) ← pair? cs
    let seconds : Int := (hours * 60 + minutes) * 60
    if 23 < hours ∨ 59 < minutes ∨ cs ≠ [] then none
    else if sign = '+' then some seconds
    else if sign = '-' then some (-seconds)
    else none
  | [] => none

/-- Whether a second, counted from the beginning of 1970, is the last of its month. -/
private def endsMonth (second : Int) : Bool :=
  second % 86400 = 86399 && (Day.ofCount (second / 86400 + 1)).day = 1

/-- The instant that a timestamp names. -/
def ofText? (text : String) : Option Instant := do
  let (day, cs) ← day? text.toList
  let cs ← separator? cs
  let (hour, cs) ← pair? cs
  let cs ← skip? ':' cs
  let (minute, cs) ← pair? cs
  let cs ← skip? ':' cs
  let (second, cs) ← pair? cs
  let (nanos, cs) ← fraction? cs
  let offset ← offset? cs
  if 23 < hour ∨ 59 < minute ∨ 60 < second then none
  else
    let leap := second = 60
    let start := day.count * 86400 + (hour * 3600 + minute * 60 + min second 59 : Nat) - offset
    if leap ∧ endsMonth start = false then none
    else
      let nanos := if leap then 999999999 else nanos
      some ⟨Int64.ofIntClamp ((start * 1000000000 + nanos).tdiv 1000000)⟩

end MongoQuery.Rfc3339
