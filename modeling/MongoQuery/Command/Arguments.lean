import MongoQuery.Number.Integer
import MongoQuery.Time.Instant

/-!
# Command lines

A command line names an action and may give options before and after it; of an option that
is given on both sides the later one counts, but on one side it may be given once only.
The arguments are read from left to right.  An option that takes its value from the next
argument is checked when the next option is met or, at the end, on its own side, so that a
request for help can come before a fault on the other side.
-/

namespace MongoQuery.Command

/-- What the program does with a request. -/
inductive Action where
  /-- Makes a find command of a filter. -/
  | find
  /-- Makes a pipeline of aggregation requests. -/
  | aggregate
deriving DecidableEq, Repr

namespace Action

/-- The name of an action. -/
def name : Action → String
  | .find => "find"
  | .aggregate => "aggregate"

/-- The action with a given name. -/
def ofName? (s : String) : Option Action :=
  [find, aggregate].find? fun action => action.name = s

end Action

/-- What can be explained. -/
inductive Topic where
  /-- The whole program. -/
  | program
  /-- One of its actions. -/
  | action (a : Action)
  /-- The word that asks for help. -/
  | help
deriving DecidableEq, Repr

/-- Help on an action, or on the program where none has been named. -/
def Topic.ofAction? : Option Action → Topic
  | none => .program
  | some a => .action a

/-- What a command line asks for in place of an action. -/
inductive Stop where
  | help (topic : Topic)
  | version
  /-- Nothing: it has a fault. -/
  | usage
deriving DecidableEq, Repr

/-- Why a command line does not start an action. -/
inductive Interruption where
  | help
  | version
  | usage
deriving DecidableEq, Repr

/-- The reason that a request or a fault is. -/
def Stop.interruption : Stop → Interruption
  | .help _ => .help
  | .version => .version
  | .usage => .usage

/-- The options of a command line. -/
structure Options where
  /-- The file to read in place of the standard input. -/
  input : Option String
  /-- The instant against which relative dates are resolved. -/
  now : Option Instant
  /-- Whether the output is on one line. -/
  compact : Bool
deriving DecidableEq, Repr

namespace Options

/-- No option given. -/
def empty : Options := ⟨none, none, false⟩

/-- The options of two sides, those of the second first. -/
def orElse (first second : Options) : Options :=
  { input := second.input <|> first.input
    now := second.now <|> first.now
    compact := first.compact || second.compact }

end Options

/-- An action and the options for it. -/
structure Invocation where
  action : Action
  options : Options
deriving DecidableEq, Repr

/-! ### Options of one side -/

/-- The options that take a value. -/
inductive Setting where
  | input
  | now
deriving DecidableEq, Repr

/-- Gives an option that takes a value its value, for the first time. -/
def Options.set (given : Options) (setting : Setting) (value : String) :
    Except Stop Options :=
  match setting with
  | .input =>
    if given.input.isSome ∨ value = "" then .error .usage
    else .ok { given with input := some value }
  | .now =>
    match given.now, Integer.int64OfText? value with
    | none, some millis => .ok { given with now := some ⟨millis⟩ }
    | _, _ => .error .usage

/-- The options read so far on one side. -/
structure Progress where
  given : Options
  /-- An option that has not been checked, and its value once that has been read. -/
  pending : Option (Setting × Option String)

namespace Progress

/-- Nothing read yet. -/
def start : Progress := ⟨.empty, none⟩

/-- The option whose value is the next argument. -/
def awaited (p : Progress) : Option Setting :=
  match p.pending with
  | some (setting, none) => some setting
  | _ => none

/-- The options, once the one that has not been checked is. -/
def settle (p : Progress) : Except Stop Options :=
  match p.pending with
  | none => .ok p.given
  | some (_, none) => .error .usage
  | some (setting, some value) => p.given.set setting value

end Progress

/-- Whether an argument after a minus sign has the form of a number: digits, with a point
after the first of them and an exponent of digits behind an `e` in either case. -/
def isNumber (cs : List Char) : Bool :=
  scan false false true cs
where
  /-- Reads on, given whether a point and an exponent have been read and whether this is
  the first character. -/
  scan (point exponent first : Bool) : List Char → Bool
    | [] => true
    | c :: rest =>
      if c.isDigit then scan point exponent false rest
      else if c = '.' ∧ !point ∧ !exponent ∧ !first then scan true exponent false rest
      else if c.toLower = 'e' ∧ !exponent ∧ !first then
        !rest.isEmpty && scan point true false rest
      else false

/-- The name and the value of an option, written with an equality sign between them. -/
def splitAtEquals (cs : List Char) : String × Option String :=
  match cs.span (· ≠ '=') with
  | (name, []) => (String.ofList name, none)
  | (name, _ :: value) => (String.ofList name, some (String.ofList value))

/-- Stops the reading, unless there is a fault before. -/
def interrupt (p : Progress) (reason : Stop) : Except Stop Progress :=
  p.settle >>= fun _ => .error reason

/-- Reads an option by its long name, given the action where it has been read.  The version
can be asked for before the action only. -/
def longOption (action : Option Action) (p : Progress) (name : String) (value : Option String) :
    Except Stop Progress :=
  match name, value with
  | "input", none => p.settle.map fun given => ⟨given, some (.input, none)⟩
  | "input", some value => do
    let given ← p.settle
    let given ← given.set .input value
    return ⟨given, none⟩
  | "now", none => p.settle.map fun given => ⟨given, some (.now, none)⟩
  | "now", some value => do
    let given ← p.settle
    let given ← given.set .now value
    return ⟨given, none⟩
  | "compact", none => do
    let given ← p.settle
    if given.compact then .error .usage else return ⟨{ given with compact := true }, none⟩
  | "help", none => interrupt p (.help (.ofAction? action))
  | "version", none => if action.isNone then interrupt p .version else .error .usage
  | _, _ => .error .usage

/-- Reads an option by the letter after a minus sign; more letters do not count. -/
def shortOption (action : Option Action) (p : Progress) (letter : Char) : Except Stop Progress :=
  if letter = 'h' then interrupt p (.help (.ofAction? action))
  else if letter = 'V' ∧ action.isNone then interrupt p .version
  else .error .usage

/-- Reads an argument that does not name an action and does not end the options. -/
def step (action : Option Action) (p : Progress) (argument : String) : Except Stop Progress :=
  let value (setting : Setting) : Progress := ⟨p.given, some (setting, some argument)⟩
  match argument.toList, p.awaited with
  | '-' :: '-' :: cs, _ =>
    let (name, value) := splitAtEquals cs
    longOption action p name value
  | '-' :: letter :: cs, awaited =>
    if awaited = some .now ∧ isNumber (letter :: cs) then .ok (value .now)
    else shortOption action p letter
  | _, some setting => .ok (value setting)
  | _, none => .error .usage

/-! ### Both sides -/

/-- Reads the options after the action. -/
def afterAction (action : Action) (p : Progress) : List String → Except Stop Options
  | [] => p.settle
  | argument :: rest =>
    if argument = "--" then
      if rest.isEmpty then p.settle else .error .usage
    else step (some action) p argument >>= fun p => afterAction action p rest

/-- The answer to the word `help`, given what follows it. -/
def helpOn : List String → Stop
  | [] => .help .program
  | [topic] =>
    if topic = "help" then .help .help
    else
      match Action.ofName? topic with
      | some a => .help (.action a)
      | none => .usage
  | _ => .usage

/-- Reads the options before the action, the action and what follows it. -/
def beforeAction (p : Progress) : List String → Except Stop Invocation
  | [] => .error .usage
  | argument :: rest =>
    if argument = "--" then .error .usage
    else if p.awaited.isSome then step none p argument >>= fun p => beforeAction p rest
    else if argument = "help" then .error (helpOn rest)
    else
      match Action.ofName? argument with
      | some action => do
        let second ← afterAction action .start rest
        let first ← p.settle
        return ⟨action, first.orElse second⟩
      | none => step none p argument >>= fun p => beforeAction p rest

namespace Invocation

/-- Reads a command line. -/
def read (arguments : List String) : Except Stop Invocation :=
  beforeAction .start arguments

/-- Reads a command line, for an action or else the reason why there is none. -/
def ofArguments (arguments : List String) : Except Interruption Invocation :=
  (read arguments).mapError Stop.interruption

end Invocation

end MongoQuery.Command
