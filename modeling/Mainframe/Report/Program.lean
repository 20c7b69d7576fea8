import Mainframe.Text.Blank
import Mainframe.Text.Lines
import Mainframe.Summary
import Mainframe.Report.Attribution
import Mainframe.Report.NodeName

/-
  The report on a COBOL program.

  A report is a list of lines. It takes the time at which it is made as a text.
  Counts come from a summary, everything else from the outline.
-/

namespace Mainframe.Report

open Cobol

/-- The line that says when a report is made. -/
def generatedLine (time : String) : String := "**Generated:** " ++ time

/-- What stands between two sections. -/
def rule : List String := ["", "---", ""]

/-- What the program is. -/
def programSection (time : String) (s : Summary) : List String :=
  ["# COBOL Program Summary", "", "**Program ID:** " ++ s.programId, generatedLine time,
    "**Divisions:** " ++
      (if s.divisions.isEmpty then "None"
      else ", ".intercalate (s.divisions.map Division.header))] ++ rule

/-- The row of a data item. -/
def dataItemRow (v : DataItem) : String :=
  "| " ++ v.level ++ " | **" ++ v.name ++ "** | `" ++ v.picture ++ "` |"

/-- The data items. -/
def dataItemsSection (o : Cobol.Outline) : List String :=
  ["## Variables", ""] ++
    (if o.dataItems.isEmpty then ["_No PIC clauses found._"]
    else ["| Level | Name | Picture |", "|-------|------|---------|"]
      ++ o.dataItems.map dataItemRow) ++ rule

/-- The line of a statement. -/
def statementLine (s : Statement) : String :=
  "- **" ++ s.action.verb.name ++ "** (line " ++ toString s.line ++ ")"

/-- The line of a branch. -/
def branchLine (c : ControlFlow) : String :=
  "- _" ++ c.branch.verb.name ++ "_ (line " ++ toString c.line ++ ")"

/-- The statements that are listed under a paragraph. -/
def statementsUnder (o : Cobol.Outline) (p : Paragraph) : List Statement :=
  listedUnder o.paragraphs p Statement.line o.statements

/-- The branches that are listed under a paragraph. -/
def branchesUnder (o : Cobol.Outline) (p : Paragraph) : List ControlFlow :=
  listedUnder o.paragraphs p ControlFlow.line o.controlFlow

/-- What stands below the heading of a paragraph: its statements, then its
branches. -/
def paragraphBody (o : Cobol.Outline) (p : Paragraph) : List String :=
  let records := (statementsUnder o p).map statementLine ++ (branchesUnder o p).map branchLine
  if records.isEmpty then ["_No logic here_"] else records

/-- The heading of a paragraph. -/
def paragraphHeading (p : Paragraph) : String :=
  "#### Paragraph: **" ++ p.name ++ "** (line " ++ toString p.line ++ ")"

/-- The paragraphs with what they do. -/
def paragraphsSection (o : Cobol.Outline) : List String :=
  ["## Procedure Division", ""] ++
    (if o.paragraphs.isEmpty then ["_No paragraphs found._"]
    else o.paragraphs.flatMap (fun p => paragraphHeading p :: paragraphBody o p)) ++ rule

/-- The row of a name and its count. -/
def countRow (e : String × Nat) : String := "| " ++ e.1 ++ " | " ++ toString e.2 ++ " |"

/-- The counts of statements and branches. -/
def statementsSection (s : Summary) : List String :=
  ["## Statements", "", "**Total statements:** " ++ toString s.statements, ""] ++
    (if s.statementTypes.isEmpty then []
    else ["| Type | Count |", "|------|-------|"] ++ s.statementTypes.entries.map countRow) ++
    ["", "### Control Flow", "", "| IF | PERFORM | EVALUATE | GO TO |",
      "|----|---------|----------|-------|",
      "| " ++ toString s.conditionals ++ " | " ++ toString s.performStatements ++ " | "
        ++ toString s.evaluates ++ " | " ++ toString s.goTos ++ " |"] ++ rule

/-- The line of a condition, without the blanks around it. -/
def conditionLine (condition : String) : String :=
  "- `" ++ String.ofList (Text.trim condition.toList) ++ "`"

/-- The conditions, if there are any. -/
def conditionsSection (o : Cobol.Outline) : List String :=
  if o.conditions.isEmpty then []
  else ["## Conditions", ""] ++ o.conditions.map conditionLine ++ rule

/-- The line of a file verb and its count. -/
def fileLine (e : String × Nat) : String := "- **" ++ e.1 ++ "** x" ++ toString e.2

/-- The uses of files. -/
def filesSection (s : Summary) : List String :=
  ["## File Operations", ""] ++
    (if s.fileOperationTypes.isEmpty then ["_No file operations found._"]
    else s.fileOperationTypes.entries.map fileLine) ++ rule

/-- The line of an edge in the flowchart. -/
def edgeLine (e : String × String) : String := "    " ++ nodeName e.1 ++ " --> " ++ nodeName e.2

/-- The row of a call. -/
def callRow (c : Call) : String :=
  "| **" ++ c.caller ++ "** | **" ++ c.callee ++ "** | " ++ toString c.line ++ " |"

/-- Who calls whom, as a flowchart and as a table. -/
def callsSection (o : Cobol.Outline) : List String :=
  ["## Call Graph", ""] ++
    (if o.performs.isEmpty then ["_No PERFORM targets found._"]
    else ["```mermaid", "flowchart TD"] ++ (edges o).map edgeLine ++ ["```"]
      ++ ["", "| **From** | **To** | **Line** |", "|------|----|------|"]
      ++ (calls o).map callRow) ++ rule

/-- The line of an unused paragraph. -/
def unusedLine (p : Paragraph) : String :=
  "- **" ++ p.name ++ "** _(line " ++ toString p.line ++ ")_"

/-- The paragraphs that nothing calls. -/
def unusedSection (o : Cobol.Outline) : List String :=
  ["## Unused Paragraphs", ""] ++
    (if (unusedParagraphs o).isEmpty then ["_No unused paragraphs found._"]
    else ["**The following paragraphs are not the target of any PERFORM or GO TO:**", ""]
      ++ (unusedParagraphs o).map unusedLine) ++ rule

/-- The warnings, if there are any. -/
def warningsSection (warnings : List String) : List String :=
  if warnings.isEmpty then [] else ["## Warnings", ""] ++ warnings.map (fun w => "> " ++ w)

/-- The lines of the report on a program. -/
def programLines (time : String) (o : Cobol.Outline) (s : Summary) : List String :=
  programSection time s ++ dataItemsSection o ++ paragraphsSection o ++ statementsSection s
    ++ conditionsSection o ++ filesSection s ++ callsSection o ++ unusedSection o
    ++ warningsSection s.warnings

/-- The report on a program. -/
def program (time : String) (o : Cobol.Outline) (s : Summary) : String :=
  Text.unlines (programLines time o s)

end Mainframe.Report
