import Mainframe.Outline
import Mainframe.Report.Program

/-
  The report on a job deck, and the report on an outline of either kind.
-/

namespace Mainframe.Report

open Jcl

/-- The text, or a dash if it is absent. -/
def orDash (s : Option String) : String := s.getD "-"

/-- The text, or nothing if it is absent. -/
def orNothing (s : Option String) : String := s.getD ""

/-- What the job is. -/
def jobSection (time : String) (o : Jcl.Outline) : List String :=
  ["# JCL Job Summary", ""] ++
    (match o.job with
    | some job =>
      ["**Job Name:** " ++ job.name, "**Class:** " ++ orDash job.jobClass,
        "**Message Class:** " ++ orDash job.messageClass, "**Notify:** " ++ orDash job.notify]
    | none => ["_No JOB card._"]) ++ [generatedLine time] ++ rule

/-- The row of a step. -/
def stepRow (s : Step) : String :=
  "| **" ++ s.name ++ "** | " ++ orNothing s.program ++ " | " ++ orNothing s.procedure ++ " | "
    ++ orNothing s.condition ++ " | " ++ toString s.definitions.length ++ " |"

/-- The row of a data definition. -/
def definitionRow (d : DataDefinition) : String :=
  "| " ++ d.name ++ " | " ++ d.kind.name ++ " | " ++ orNothing d.dataset ++ " | "
    ++ orNothing d.disposition ++ " |"

/-- The data definitions of a step, if it has any. -/
def definitionsTable (s : Step) : List String :=
  if s.definitions.isEmpty then []
  else ["", "### " ++ s.name, "", "| DD | Type | DSN | DISP |", "|----|------|-----|------|"]
    ++ s.definitions.map definitionRow

/-- The steps and their data definitions. -/
def stepsSection (o : Jcl.Outline) : List String :=
  ["## Steps", "", "| Step | Program | Procedure | COND | DDs |",
      "|------|---------|-----------|------|-----|"]
    ++ o.steps.map stepRow ++ o.steps.flatMap definitionsTable ++ rule

/-- The datasets. -/
def datasetsSection (o : Jcl.Outline) : List String :=
  ["## Datasets", ""] ++
    (if o.datasets.isEmpty then ["_No datasets referenced._"]
    else o.datasets.map (fun d => "- `" ++ d ++ "`")) ++ rule

/-- The lines of the report on a job deck. -/
def deckLines (time : String) (o : Jcl.Outline) : List String :=
  jobSection time o ++ stepsSection o ++ datasetsSection o ++ warningsSection o.warnings

/-- The report on a job deck. -/
def deck (time : String) (o : Jcl.Outline) : String := Text.unlines (deckLines time o)

/-- The report on an outline. -/
def ofOutline (time : String) : Mainframe.Outline → String
  | .cobol p => program time p (.ofOutline p)
  | .jcl d => deck time d

end Mainframe.Report
