import Mainframe.Command.Job
import Mainframe.Command.Workspace

/-
  Running a tool on a file system.

  A run reads one text, works on it, and only then writes. So a run that fails
  has printed nothing, and it has changed no file unless the write failed
  halfway.
-/

namespace Mainframe.Command

/-- Why a run fails. -/
inductive RunError where
  | reading (name : String) (cause : Cause)
  | task (cause : TaskError)
  | writing (path : String) (cause : Cause)
  deriving DecidableEq, Repr

/-- The error and its causes, in words. -/
def RunError.messages : RunError → List String
  | reading name cause => ["failed to read " ++ name, cause.message]
  | task cause => cause.messages
  | writing path cause => ["failed to write " ++ path, cause.message]

/-- The line that reports the error. -/
def RunError.line (e : RunError) : String := "[ERROR] " ++ ": ".intercalate e.messages

/-- What a run leaves behind. -/
structure Outcome (σ : Type) where
  code : Nat
  printed : String
  errors : List String
  workspace : σ
  deriving DecidableEq, Repr

section
variable {σ : Type} [FileSystem σ]

/-- The text at the origin. -/
def Origin.read (w : σ) : Origin → Except Cause String
  | file path => FileSystem.readText w path
  | standardInput => FileSystem.inputText w

/-- What the job makes of its text. -/
def Job.result (time : String) (j : Job) (w : σ) : Except RunError String :=
  match j.origin.read w with
  | .error cause => .error (.reading j.origin.name cause)
  | .ok text => (j.task.apply time j.origin.name text).mapError .task

/-- The outcome of a run that prints the text. -/
def Outcome.success (w : σ) (text : String) : Outcome σ := ⟨0, text, [], w⟩

/-- The outcome of a run that fails. -/
def Outcome.failure (w : σ) (e : RunError) : Outcome σ := ⟨1, "", [e.line], w⟩

/-- The outcome of a job. -/
def Job.run (time : String) (j : Job) (w : σ) : Outcome σ :=
  match j.result time w with
  | .error e => .failure w e
  | .ok text =>
    match j.output with
    | none => .success w text
    | some path =>
      match FileSystem.write w path text with
      | (.error cause, after) => .failure after (.writing path cause)
      | (.ok _, after) => ⟨0, "", [], after⟩

/-- The outcome of a run of a tool. What it says as its help may depend on its
arguments. -/
def Tool.run (time : String) (tool : Tool) (args : List String) (w : σ)
    (help : Tool → List String → String := fun tool _ => tool.usage) : Outcome σ :=
  match tool.job? args with
  | .error .version => .success w (tool.version ++ "\n")
  | .error .help => .success w (help tool args)
  | .error .usage => ⟨2, "", [], w⟩
  | .ok job => job.run time w

end

end Mainframe.Command
