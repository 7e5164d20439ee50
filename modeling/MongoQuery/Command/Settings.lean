import MongoQuery.Command.Arguments
import MongoQuery.Text.Parts
import MongoQuery.Text.Quoted

/-!
# Settings

What an option leaves open, the environment decides: the instant and the form of the
output have a variable each.  White space around the value of a variable does not count,
and a variable whose option is given is not looked at.
-/

namespace MongoQuery.Command

/-- The variable of the instant against which relative dates are resolved. -/
def nowVariable : String := "QUERYCRAFT_NOW"

/-- The variable of the form of the output. -/
def compactVariable : String := "QUERYCRAFT_COMPACT"

/-- A variable with a value that it cannot have. -/
structure InvalidSetting where
  name : String
  value : String
deriving DecidableEq, Repr

/-- The message about a variable. -/
def InvalidSetting.message (e : InvalidSetting) : String :=
  "invalid value for " ++ e.name ++ ": " ++ Text.quoted e.value

/-- The values of variables. -/
abbrev Environment := String → Option String

/-- The on or off that a word stands for, in any letter case. -/
def switch? (value : String) : Option Bool :=
  let word := String.ofList ((Text.trim value).toList.map Char.toLower)
  if word ∈ ["1", "true", "yes", "on"] then some true
  else if word ∈ ["", "0", "false", "no", "off"] then some false
  else none

/-- The instant that the environment gives. -/
def environmentNow (env : Environment) : Except InvalidSetting (Option Instant) :=
  match env nowVariable with
  | none => .ok none
  | some value =>
    match Integer.int64OfText? (Text.trim value) with
    | some millis => .ok (some ⟨millis⟩)
    | none => .error ⟨nowVariable, value⟩

/-- The form of the output that the environment gives. -/
def environmentCompact (env : Environment) : Except InvalidSetting Bool :=
  match env compactVariable with
  | none => .ok false
  | some value =>
    match switch? value with
    | some on => .ok on
    | none => .error ⟨compactVariable, value⟩

/-- The options, completed from the environment. -/
def Options.resolve (options : Options) (env : Environment) : Except InvalidSetting Options := do
  let now ←
    match options.now with
    | some now => pure (some now)
    | none => environmentNow env
  let compact ← if options.compact then pure true else environmentCompact env
  return { options with now, compact }

end MongoQuery.Command
