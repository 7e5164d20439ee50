import MongoQuery.Command.Outcome
import Std.Time.DateTime.Timestamp

/-!
# The program

Reads the environment, the clock and the input, and writes the outcome of the run.
-/

namespace MongoQuery.Command

private def systemClock : IO Instant := do
  let time ← Std.Time.Timestamp.now
  return ⟨Int64.ofIntClamp time.toMillisecondsSinceUnixEpoch.val⟩

private def openFault : IO.Error → OpenFault
  | .noFileOrDirectory _ _ _ => .missing
  | .permissionDenied _ _ _ => .refused
  | .inappropriateType _ 20 _ => .notDirectory
  | .invalidArgument _ 36 _ => .tooLong
  | e => .other (toString e)

private def decodeText (bytes : ByteArray) : Except Failure String :=
  match String.fromUTF8? bytes with
  | some text => .ok text
  | none => .error .invalidJson

private def readHandle (handle : IO.FS.Handle) : IO (Except Failure String) := do
  try
    let bytes ← handle.readBinToEnd
    return decodeText bytes
  catch _ => return .error .invalidJson

/-- The input; what can be opened but not read holds no JSON. -/
private def readInput : Option String → IO (Except Failure String)
  | none => do
    let bytes ← (← IO.getStdin).readBinToEnd
    return decodeText bytes
  | some path => do
    try
      let handle ← IO.FS.Handle.mk path .read
      readHandle handle
    catch e => return .error (.unreadable path (openFault e))

private def emit (outcome : Outcome) : IO UInt32 := do
  (← IO.getStdout).putStr outcome.stdout
  (← IO.getStderr).putStr outcome.stderr
  return outcome.status

/-- Runs the program in the environment of its process. -/
def run (arguments : List String) : IO UInt32 := do
  let now ← IO.getEnv nowVariable
  let compact ← IO.getEnv compactVariable
  let env : Environment := fun name =>
    if name = nowVariable then now else if name = compactVariable then compact else none
  match prepare arguments env with
  | .error outcome => emit outcome
  | .ok invocation =>
    let clock ← systemClock
    let input ← readInput invocation.options.input
    emit (finish invocation clock input)

end MongoQuery.Command

/-- Runs the program. -/
def main (arguments : List String) : IO UInt32 :=
  MongoQuery.Command.run arguments
