import Mainframe.Text.Blank
import Mainframe.ReadError

/-
  The two source languages and how a user names them.

  A name is taken without the blanks around it, and ASCII letters may be in
  either case.
-/

namespace Mainframe

/-- A source language. -/
inductive Language where
  | cobol
  | jcl
  deriving DecidableEq, Repr

namespace Language

/-- The languages. -/
def all : List Language := [cobol, jcl]

/-- The name of a language, in small letters. -/
def name : Language → String
  | cobol => "cobol"
  | jcl => "jcl"

/-- The name of a language, in capitals. -/
def title : Language → String
  | cobol => "COBOL"
  | jcl => "JCL"

/-- The language that has exactly this name. -/
def ofName? (s : String) : Option Language := all.find? (fun l => l.name == s)

/-- The language that a user means. -/
def ofUser (s : String) : Except ReadError Language :=
  match ofName? (String.ofList ((Text.trim s.toList).map Char.toLower)) with
  | some l => .ok l
  | none => .error (.unsupportedLanguage s)

theorem ofName?_name (l : Language) : ofName? l.name = some l := by cases l <;> decide

end Language

end Mainframe
