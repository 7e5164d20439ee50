import MongoQuery.Command.Answer

/-!
# Outcomes

What a run of the program leaves behind: an exit status and the texts on its two outputs.
The status is 0 for an answer, 1 for a request without one, and 2 for a command line or an
environment at fault.
-/

namespace MongoQuery.Command

/-- The end of a run. -/
structure Outcome where
  status : UInt32
  stdout : String
  stderr : String
deriving DecidableEq, Repr

private def programName : String := "querycraft"

/-- The text about the version. -/
def versionText : String := programName ++ " 0.1.0\n"

/-- What an action is for. -/
def Action.about : Action → String
  | .find => "Translate one filter spec into `\x7b filter, sort, limit \x7d`"
  | .aggregate => "Translate an array of aggregation requests into a pipeline"

namespace Topic

private def aboutHelp : String := "Print this message or the help of the given subcommand(s)"

/-- What the subject of a text of help is for. -/
def about : Topic → String
  | .program => "Translate querycraft requests into MongoDB queries"
  | .action a => a.about
  | .help => aboutHelp

/-- How a command line on a subject is written. -/
def usage : Topic → String
  | .program => programName ++ " [OPTIONS] <COMMAND>"
  | .action a => programName ++ " " ++ a.name ++ " [OPTIONS]"
  | .help => programName ++ " help [COMMAND]..."

private def commandLines : String :=
  "\nCommands:\n  find       " ++ Action.find.about ++ "\n  aggregate  " ++ Action.aggregate.about
    ++ "\n  help       " ++ aboutHelp ++ "\n"

private def optionLines : String := "
Options:
      --input <INPUT>  Read the request from this file instead of stdin
      --now <NOW>      Reference instant for `daysAgo` values, in epoch milliseconds
      --compact        Print single-line JSON
  -h, --help           Print help
"

/-- The words that may follow on a command line on a subject. -/
def parameters : Topic → String
  | .program => commandLines ++ optionLines ++ "  -V, --version        Print version\n"
  | .action _ => optionLines
  | .help => "\nArguments:\n  [COMMAND]...  Print help for the subcommand(s)\n"

/-- The text of help on a subject. -/
def helpText (topic : Topic) : String :=
  topic.about ++ "\n\nUsage: " ++ topic.usage ++ "\n" ++ topic.parameters

end Topic

/-- The end of a run that a command line stops.  What is said of a fault in it is not the
wording of the program: the status and the usage line are. -/
def Stop.outcome : Stop → Outcome
  | .help topic => ⟨0, topic.helpText, ""⟩
  | .version => ⟨0, versionText, ""⟩
  | .usage => ⟨2, "", "error: invalid command line\n\nUsage: " ++ Topic.program.usage ++ "\n"⟩

private def complaint (message : String) : String := programName ++ ": " ++ message ++ "\n"

/-- The end of a run in an environment at fault. -/
def InvalidSetting.outcome (e : InvalidSetting) : Outcome :=
  ⟨2, "", complaint e.message⟩

/-- The end of a run with an answer or without one. -/
def Outcome.ofAnswer : Except Failure String → Outcome
  | .ok text => ⟨0, text, ""⟩
  | .error e => ⟨1, "", complaint e.message⟩

/-- The run of a command line up to the reading of its input: an action with complete
options, or an end. -/
def prepare (arguments : List String) (env : Environment) : Except Outcome Invocation :=
  match Invocation.read arguments with
  | .error stop => .error stop.outcome
  | .ok invocation =>
    match invocation.options.resolve env with
    | .error e => .error e.outcome
    | .ok options => .ok { invocation with options }

/-- The input of a run, from a tree of files or else the standard input.  A directory can be
opened, but it holds no JSON. -/
def FileTree.input (tree : FileTree) (stdin : String) : Option String → Except Failure String
  | none => .ok stdin
  | some path =>
    match tree.lookup path with
    | .ok (.file text) => .ok text
    | .ok .directory => .error .invalidJson
    | .error fault => .error (.unreadable path fault)

/-- The end of a run whose input has been read, at the time `clock` says where no other
instant is given. -/
def finish (invocation : Invocation) (clock : Instant) (input : Except Failure String) : Outcome :=
  .ofAnswer (input >>= answer invocation.action (invocation.options.now.getD clock)
    invocation.options.compact)

end MongoQuery.Command
