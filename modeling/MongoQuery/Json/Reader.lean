import MongoQuery.Json.Basic
import MongoQuery.Text.Hex

/-!
# Reading JSON

`Json.ofText?` reads the strict grammar of JSON: no comments, no trailing commas, no
characters after the value, and no control characters or unpaired surrogates in strings.
`Json.ofTextKeeping?` reads of an object only the members with given names.  The others are
read for their form: they follow the grammar, but their strings are not put together, so an
unpaired surrogate in them does no harm.

Values are read to any depth.  The fuel of a value bounds both how deep it is nested and how
many items it has at each level; it stays above the number of characters that are left, of
which every level and every item takes one.
-/

namespace MongoQuery.Json

/-! ### White space -/

/-- White space between the tokens of JSON. -/
def isSpace (c : Char) : Bool :=
  c = ' ' || c = '\t' || c = '\n' || c = '\r'

/-- The text without the white space at its front. -/
def skipSpace (cs : List Char) : List Char :=
  cs.dropWhile isSpace

/-! ### Strings -/

/-- A written part of a string: a character, or a code unit given by its number. -/
inductive Piece where
  | char (c : Char)
  | unit (n : Nat)

/-- The character that a letter after a backslash stands for. -/
def escaped? (c : Char) : Option Char :=
  match c with
  | '"' => some '"'
  | '\\' => some '\\'
  | '/' => some '/'
  | 'b' => some (Char.ofNat 8)
  | 'f' => some (Char.ofNat 12)
  | 'n' => some '\n'
  | 'r' => some '\r'
  | 't' => some '\t'
  | _ => none

private def unit? (a b c d : Char) : Option Nat := do
  let a ← Hex.value? a
  let b ← Hex.value? b
  let c ← Hex.value? c
  let d ← Hex.value? d
  some (((a * 16 + b) * 16 + c) * 16 + d)

/-- The parts of a string up to its closing quote, and the text after that quote. -/
def pieces? : List Char → Option (List Piece × List Char)
  | [] => none
  | '"' :: rest => some ([], rest)
  | '\\' :: 'u' :: a :: b :: c :: d :: rest => do
    let n ← unit? a b c d
    let (pieces, rest) ← pieces? rest
    some (.unit n :: pieces, rest)
  | '\\' :: c :: rest => do
    let c ← escaped? c
    let (pieces, rest) ← pieces? rest
    some (.char c :: pieces, rest)
  | c :: rest =>
    if c.toNat < 32 ∨ c = '\\' then none
    else do
      let (pieces, rest) ← pieces? rest
      some (.char c :: pieces, rest)

private def isHigh (n : Nat) : Bool := 0xd800 ≤ n && n < 0xdc00
private def isLow (n : Nat) : Bool := 0xdc00 ≤ n && n < 0xe000

/-- The characters of a string, a high and a low surrogate side by side making one. -/
def assemble? : List Piece → Option (List Char)
  | [] => some []
  | .char c :: rest => (assemble? rest).map (c :: ·)
  | .unit high :: .unit low :: rest =>
    if isHigh high ∧ isLow low then
      let n := 0x10000 + (high - 0xd800) * 0x400 + (low - 0xdc00)
      (assemble? rest).map (Char.ofNat n :: ·)
    else if isHigh high ∨ isLow high then none
    else (assemble? (.unit low :: rest)).map (Char.ofNat high :: ·)
  | .unit n :: rest =>
    if isHigh n ∨ isLow n then none
    else (assemble? rest).map (Char.ofNat n :: ·)

/-- How much is read of a value. -/
inductive Reading where
  /-- All of it, so that its strings have to be texts. -/
  | content
  /-- Its form alone, with an empty text for every string. -/
  | form

/-- The text that the parts of a string are read as. -/
def Reading.text? : Reading → List Piece → Option String
  | .content, pieces => (assemble? pieces).map String.ofList
  | .form, _ => some ""

/-- A string whose opening quote has been read. -/
def string? (reading : Reading) (cs : List Char) : Option (String × List Char) := do
  let (pieces, rest) ← pieces? cs
  let text ← reading.text? pieces
  some (text, rest)

/-! ### Numbers -/

private def whole? (cs : List Char) : Option (List Digit × List Char) :=
  match Digit.scan cs with
  | ([], _) => none
  | (first :: second :: digits, rest) =>
    if first.val = 0 then none else some (first :: second :: digits, rest)
  | (digits, rest) => some (digits, rest)

private def fraction? : List Char → Option (List Digit × List Char)
  | '.' :: rest =>
    match Digit.scan rest with
    | ([], _) => none
    | (digits, rest) => some (digits, rest)
  | rest => some ([], rest)

private def power? (negative : Bool) (cs : List Char) : Option (Option Int × List Char) :=
  match Digit.scan cs with
  | ([], _) => none
  | (digits, rest) =>
    let n : Int := Digit.value digits
    some (some (if negative then -n else n), rest)

private def exponent? : List Char → Option (Option Int × List Char)
  | c :: cs =>
    if c = 'e' ∨ c = 'E' then
      match cs with
      | '-' :: cs => power? true cs
      | '+' :: cs => power? false cs
      | cs => power? false cs
    else some (none, c :: cs)
  | [] => some (none, [])

/-- A numeral: no leading zeros, and digits on both sides of a point. -/
def numeral? (cs : List Char) : Option (Numeral × List Char) := do
  let (negative, cs) :=
    match cs with
    | '-' :: cs => (true, cs)
    | cs => (false, cs)
  let (whole, cs) ← whole? cs
  let (fraction, cs) ← fraction? cs
  let (exponent, cs) ← exponent? cs
  some (⟨negative, whole, fraction, exponent⟩, cs)

/-! ### Values -/

/-- Items separated by commas up to a closing character, at least one. -/
def separated? {α : Type} (item? : List Char → Option (α × List Char)) (close : Char) :
    Nat → List Char → Option (List α × List Char)
  | 0, _ => none
  | fuel + 1, cs => do
    let (item, cs) ← item? cs
    match skipSpace cs with
    | [] => none
    | c :: cs =>
      if c = close then some ([item], cs)
      else if c = ',' then do
        let (items, cs) ← separated? item? close fuel cs
        some (item :: items, cs)
      else none

/-- Items separated by commas up to a closing character, possibly none. -/
def items? {α : Type} (item? : List Char → Option (α × List Char)) (close : Char) (fuel : Nat)
    (cs : List Char) : Option (List α × List Char) :=
  match skipSpace cs with
  | [] => none
  | c :: rest =>
    if c = close then some ([], rest) else separated? item? close fuel (c :: rest)

/-- A member of an object: its name, and its value as `value?` reads it for that name. -/
def member? (reading : Reading) (value? : String → List Char → Option (Json × List Char))
    (cs : List Char) : Option ((String × Json) × List Char) :=
  match skipSpace cs with
  | '"' :: cs => do
    let (name, cs) ← string? reading cs
    match skipSpace cs with
    | ':' :: cs => do
      let (value, cs) ← value? name cs
      some ((name, value), cs)
    | _ => none
  | _ => none

/-- A value, with the text after it. -/
def value? (reading : Reading) : Nat → List Char → Option (Json × List Char)
  | 0, _ => none
  | fuel + 1, cs =>
    match skipSpace cs with
    | '{' :: cs => do
      let (members, cs) ← items? (member? reading fun _ => value? reading fuel) '}' fuel cs
      some (.object members, cs)
    | '[' :: cs => do
      let (items, cs) ← items? (value? reading fuel) ']' fuel cs
      some (.array items, cs)
    | '"' :: cs => do
      let (s, cs) ← string? reading cs
      some (.string s, cs)
    | 'n' :: 'u' :: 'l' :: 'l' :: cs => some (.null, cs)
    | 't' :: 'r' :: 'u' :: 'e' :: cs => some (.bool true, cs)
    | 'f' :: 'a' :: 'l' :: 's' :: 'e' :: cs => some (.bool false, cs)
    | cs => do
      let (n, cs) ← numeral? cs
      some (.number n, cs)

/-- A value of which, if it is an object, the members with the given names are kept. -/
def keeping? (names : List String) (fuel : Nat) (cs : List Char) :
    Option (Json × List Char) :=
  match skipSpace cs with
  | '{' :: cs => do
    let reading (name : String) : Reading := if name ∈ names then .content else .form
    let (members, cs) ←
      items? (member? .content fun name => value? (reading name) fuel) '}' fuel cs
    some (.object (members.filter fun member => member.1 ∈ names), cs)
  | cs => value? .content fuel cs

/-- What is read of a text that holds nothing but white space afterwards. -/
def complete? {α : Type} (read? : Nat → List Char → Option (α × List Char))
    (text : String) : Option α := do
  let cs := text.toList
  let (value, rest) ← read? (cs.length + 1) cs
  if (skipSpace rest).isEmpty then some value else none

/-- The value that a text writes. -/
def ofText? (text : String) : Option Json :=
  complete? (value? .content) text

/-- The value that a text writes, of an object only the members with the given names. -/
def ofTextKeeping? (names : List String) (text : String) : Option Json :=
  complete? (keeping? names) text

end MongoQuery.Json
