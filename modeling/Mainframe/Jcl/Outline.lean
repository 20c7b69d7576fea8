/-
  The outline of a job deck: its job card, its steps and what they refer to.

  Every record keeps the text of its card. A step keeps the data definitions
  that follow it, in the order of the deck.
-/

namespace Mainframe.Jcl

/-- What the card of a job says. -/
structure Job where
  name : String
  jobClass : Option String
  messageClass : Option String
  notify : Option String
  raw : String
  deriving DecidableEq, Repr

/-- What kind of data a definition stands for. -/
inductive DataKind where
  | sysout
  | dummy
  | dataset
  | inline
  | unknown
  deriving DecidableEq, Repr

namespace DataKind

/-- The kinds of data. -/
def all : List DataKind := [sysout, dummy, dataset, inline, unknown]

/-- The name of a kind, in capitals. -/
def name : DataKind → String
  | sysout => "SYSOUT"
  | dummy => "DUMMY"
  | dataset => "DATASET"
  | inline => "INLINE"
  | unknown => "UNKNOWN"

/-- The kind that has the name. -/
def ofName? (s : String) : Option DataKind := all.find? (fun k => k.name == s)

theorem ofName?_name (k : DataKind) : ofName? k.name = some k := by cases k <;> decide

end DataKind

/-- What the card of a data definition says. -/
structure DataDefinition where
  name : String
  dataset : Option String
  disposition : Option String
  kind : DataKind
  raw : String
  deriving DecidableEq, Repr

/-- What the card of a step says, and the data definitions that follow it. -/
structure Step where
  name : String
  program : Option String
  procedure : Option String
  condition : Option String
  definitions : List DataDefinition
  raw : String
  deriving DecidableEq, Repr

/-- Everything that is known about a job deck. -/
structure Outline where
  job : Option Job
  steps : List Step
  datasets : List String
  warnings : List String
  deriving DecidableEq, Repr

namespace Outline

/-- The outline that says nothing. -/
def empty : Outline := ⟨none, [], [], []⟩

/-- The warning for a deck without a job card. -/
def noJobWarning : String := "No JOB card found"

end Outline

end Mainframe.Jcl
