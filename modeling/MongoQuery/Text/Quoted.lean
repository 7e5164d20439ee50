import MongoQuery.Text.Extending
import MongoQuery.Text.Hex
import MongoQuery.Text.Unprinted

/-!
# Quoted text

A text is quoted for a reader of messages: it stands between double quotes, a quote and a
backslash in it follow a backslash, and a character that would not be visible on its own
is written as a backslash and a letter or as its code point in hexadecimal.
-/

namespace MongoQuery.Text

/-- The characters that stand for one character between quotes. -/
def quotedChar (c : Char) : List Char :=
  if c = '"' then ['\\', '"']
  else if c = '\\' then ['\\', '\\']
  else if c = '\n' then ['\\', 'n']
  else if c = '\r' then ['\\', 'r']
  else if c = '\t' then ['\\', 't']
  else if c.toNat = 0 then ['\\', '0']
  else if isUnprinted c || isExtending c then
    ['\\', 'u', Char.ofNat 0x7b] ++ Hex.ofNat c.toNat ++ [Char.ofNat 0x7d]
  else [c]

/-- The text between double quotes. -/
def quoted (text : String) : String :=
  String.ofList ('"' :: text.toList.flatMap quotedChar ++ ['"'])

end MongoQuery.Text
