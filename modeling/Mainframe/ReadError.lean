/-
  Why a source cannot be read.

  A COBOL source can always be read. A job deck can be read if something runs
  in it.
-/

namespace Mainframe

/-- Why a source cannot be read. -/
inductive ReadError where
  | noExecSteps
  | unsupportedLanguage (name : String)
  deriving DecidableEq, Repr

/-- The words of the error. -/
def ReadError.message : ReadError → String
  | noExecSteps => "No EXEC steps found in JCL"
  | unsupportedLanguage name => "Unsupported language: " ++ name

end Mainframe
