import MongoQuery.Json.Basic
import MongoQuery.Text.Hex

/-!
# Writing JSON

A value is written on one line without white space, or over several lines with each item
and member on a line of its own, indented by two spaces for each level.  Both forms write
the same tokens.  In strings the quote, the backslash and the characters below the space
are escaped and nothing else is.
-/

namespace MongoQuery.Json

/-! ### Tokens -/

/-- The characters that stand for one character of a string. -/
def escape (c : Char) : List Char :=
  if c = '"' then ['\\', '"']
  else if c = '\\' then ['\\', '\\']
  else if c.toNat = 8 then ['\\', 'b']
  else if c.toNat = 12 then ['\\', 'f']
  else if c = '\n' then ['\\', 'n']
  else if c = '\r' then ['\\', 'r']
  else if c = '\t' then ['\\', 't']
  else if c.toNat < 32 then '\\' :: 'u' :: Hex.padded 4 c.toNat
  else [c]

/-- A string between its quotes. -/
def stringToken (s : String) : List Char :=
  '"' :: s.toList.flatMap escape ++ ['"']

private def boolToken : Bool → List Char
  | true => ['t', 'r', 'u', 'e']
  | false => ['f', 'a', 'l', 's', 'e']

private def nullToken : List Char := ['n', 'u', 'l', 'l']

/-! ### One line -/

mutual

/-- The characters of a value on one line. -/
def compactChars : Json → List Char
  | .null => nullToken
  | .bool b => boolToken b
  | .number n => n.text
  | .string s => stringToken s
  | .array items => '[' :: compactItems items ++ [']']
  | .object members => '{' :: compactMembers members ++ ['}']

/-- Items separated by commas. -/
def compactItems : List Json → List Char
  | [] => []
  | [item] => compactChars item
  | item :: rest => compactChars item ++ ',' :: compactItems rest

/-- Members separated by commas. -/
def compactMembers : List (String × Json) → List Char
  | [] => []
  | [(name, value)] => stringToken name ++ ':' :: compactChars value
  | (name, value) :: rest =>
    stringToken name ++ ':' :: compactChars value ++ ',' :: compactMembers rest

end

/-- The text of a value on one line. -/
def compact (value : Json) : String :=
  String.ofList (compactChars value)

/-! ### Several lines -/

/-- A line break and the indentation of a level. -/
def newline (level : Nat) : List Char :=
  '\n' :: List.replicate (2 * level) ' '

mutual

/-- The characters of a value over several lines, at a level. -/
def prettyChars (level : Nat) : Json → List Char
  | .null => nullToken
  | .bool b => boolToken b
  | .number n => n.text
  | .string s => stringToken s
  | .array [] => ['[', ']']
  | .array (item :: rest) =>
    '[' :: prettyItems (level + 1) (item :: rest) ++ newline level ++ [']']
  | .object [] => ['{', '}']
  | .object (member :: rest) =>
    '{' :: prettyMembers (level + 1) (member :: rest) ++ newline level ++ ['}']

/-- Items on lines of their own, separated by commas. -/
def prettyItems (level : Nat) : List Json → List Char
  | [] => []
  | [item] => newline level ++ prettyChars level item
  | item :: rest => newline level ++ prettyChars level item ++ ',' :: prettyItems level rest

/-- Members on lines of their own, separated by commas. -/
def prettyMembers (level : Nat) : List (String × Json) → List Char
  | [] => []
  | [(name, value)] =>
    newline level ++ stringToken name ++ ':' :: ' ' :: prettyChars level value
  | (name, value) :: rest =>
    newline level ++ stringToken name ++ ':' :: ' ' :: prettyChars level value
      ++ ',' :: prettyMembers level rest

end

/-- The text of a value over several lines. -/
def pretty (value : Json) : String :=
  String.ofList (prettyChars 0 value)

end MongoQuery.Json
