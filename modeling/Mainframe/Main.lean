import Std.Time.DateTime.Timestamp
import Mainframe.Command.Run
import Mainframe.Report.Calendar

/-
  The command line.

  The name under which the program is called says which tool it is. The tool's
  arguments decide the job; what is left to do here is to read its text, to
  write its result, and to report an error on the error stream.
-/

namespace Mainframe.Command

/-- The cause that a failed access has. -/
def causeOf : IO.Error → Cause
  | .noFileOrDirectory .. => .notFound
  | .inappropriateType _ 20 _ => .notDirectory
  | .inappropriateType .. => .isDirectory
  | e => .other (toString e)

/-- The text that bytes hold. -/
def textOfBytes (bytes : ByteArray) : Except Cause String :=
  match String.fromUTF8? bytes with
  | some text => .ok text
  | none => .error .notText

/-- Everything that a stream gives. -/
partial def drain (stream : IO.FS.Stream) (before : ByteArray) : IO ByteArray := do
  let bytes ← stream.read 65536
  if bytes.isEmpty then return before else drain stream (before ++ bytes)

/-- The text at the origin. -/
def fetch (origin : Origin) : IO (Except Cause String) := do
  try
    match origin with
    | .file path => return textOfBytes (← IO.FS.readBinFile path)
    | .standardInput => return textOfBytes (← drain (← IO.getStdin) .empty)
  catch e => return .error (causeOf e)

/-- Reports the error. -/
def reportError (e : RunError) : IO UInt32 := do
  IO.eprintln e.line
  return 1

/-- Writes the text where the job wants it. -/
def deliverText (output : Option String) (text : String) : IO UInt32 := do
  match output with
  | none =>
    IO.print text
    return 0
  | some path =>
    try
      IO.FS.writeFile path text
      return 0
    catch e => reportError (.writing path (causeOf e))

/-- Does the job. -/
def perform (job : Job) : IO UInt32 := do
  match ← fetch job.origin with
  | .error cause => reportError (.reading job.origin.name cause)
  | .ok text =>
    let now ← Std.Time.Timestamp.now
    let time := Report.timeText now.toSecondsSinceUnixEpoch.val.toNat
    match job.task.apply time job.origin.name text with
    | .error cause => reportError (.task cause)
    | .ok result => deliverText job.output result

/-- Runs the tool. -/
def runTool (tool : Tool) (args : List String) : IO UInt32 := do
  match tool.job? args with
  | .error .version =>
    IO.println tool.version
    return 0
  | .error .help =>
    IO.print tool.usage
    return 0
  | .error .usage =>
    IO.eprint tool.usage
    return 2
  | .ok job => perform job

end Mainframe.Command

/-- The program: the suite, unless it is called by the name of another tool. -/
def main (args : List String) : IO UInt32 := do
  let name := (← IO.appPath).fileName.getD ""
  Mainframe.Command.runTool ((Mainframe.Command.Tool.ofProgramName? name).getD .suite) args
