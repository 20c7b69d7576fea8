import Mainframe.Text.Alphanumeric

/-
  Names of nodes in a flowchart.

  A node's name keeps at most the first thirty characters, with an underscore
  for each that is neither alphanumeric nor an underscore, and an underscore in
  front of a number. A node without a name is called UNKNOWN.
-/

namespace Mainframe.Report

open Text

/-- How many characters of a name a node keeps. -/
def nodeNameLength : Nat := 30

/-- The character as it stands in a node's name. -/
def nodeChar (c : Char) : Char := if isAlphanumeric c || c == '_' then c else '_'

/-- The name with an underscore in front of a number. -/
def guardNumber : List Char → List Char
  | [] => []
  | c :: s => if isNumeric c then '_' :: c :: s else c :: s

/-- The node's name for a name. -/
def nodeName (name : String) : String :=
  match name.toList with
  | [] => "UNKNOWN"
  | c :: s => String.ofList (guardNumber (((c :: s).take nodeNameLength).map nodeChar))

end Mainframe.Report
