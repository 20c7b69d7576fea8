import Mainframe.Cobol.Source
import Mainframe.Cobol.Sentence

/-
  The outline of a source.

  The source is normalized first, and the normalized text is cut into lines
  again. Each kind of record is collected on its own: a rule is applied to every
  line, and what it finds is kept with the number of the line. A statement that
  is spread over several lines is read one line at a time.

  Paragraphs are labels on the lines after the first one that opens the
  procedure division.

  What is proved:
    1. `collect_append`: records of two runs of lines are those of the first
       followed by those of the second, numbered on from the first.
-/

namespace Mainframe.Cobol

open Mainframe.Text

/-- A line with its number. -/
abbrev NumberedLine := List Char × Nat

/-- The lines with their numbers, the first of which follows `before`. -/
def numbered (before : Nat) (lines : List (List Char)) : List NumberedLine :=
  lines.zipIdx (before + 1)

/-- What a rule finds on the lines, from top to bottom. -/
def collect {α β : Type} (rule : List Char → Option α) (record : Nat → α → β)
    (lines : List NumberedLine) : List β :=
  lines.filterMap (fun line => (rule line.1).map (record line.2))

/-- A record's id: what kind of record it is, and its line. -/
def recordId (kind : String) (line : Nat) : String := kind ++ "_" ++ toString line

/-- The lines that may name a paragraph: all of them once the procedure
division is open, and otherwise those from its header on. -/
def procedureLines (isOpen : Bool) (lines : List NumberedLine) : List NumberedLine :=
  if isOpen then lines else lines.dropWhile (fun line => !opensProcedure line.1)

/-- The paragraphs that the lines name. -/
def paragraphs (isOpen : Bool) (lines : List NumberedLine) : List Paragraph :=
  collect paragraphName?
    (fun n name => ⟨recordId "PARA" n, String.ofList name, n⟩) (procedureLines isOpen lines)

/-- The statements on the lines. -/
def statements (lines : List NumberedLine) : List Statement :=
  collect action? (fun n action => ⟨recordId "STMT" n, n, action⟩) lines

/-- The branches on the lines. -/
def controlFlow (lines : List NumberedLine) : List ControlFlow :=
  collect branch? (fun n branch => ⟨recordId "CF" n, n, branch⟩) lines

/-- The conditions of the IFs on the lines. -/
def conditions (lines : List NumberedLine) : List String :=
  lines.filterMap (fun line => (branch? line.1).bind Branch.condition?)

/-- The uses of files on the lines. -/
def fileOperations (lines : List NumberedLine) : List FileOperation :=
  collect fileVerb? (fun n verb => ⟨verb, n⟩) lines

/-- The calls of paragraphs on the lines. -/
def performs (lines : List NumberedLine) : List Perform :=
  collect performTarget?
    (fun n target => ⟨recordId "PERFORM" n, String.ofList target, n⟩) lines

/-- The outline of a normalized text, before it is given any warning. -/
def outlineOfText (text : List Char) : Outline :=
  let lines := splitLines text
  let all := numbered 0 lines
  { programId := (programId? text).map String.ofList
    divisions := .ofPresent (hasDivision text)
    dataItems := dataItems (tokens lines)
    paragraphs := paragraphs false all
    statements := statements all
    controlFlow := controlFlow all
    conditions := conditions all
    fileOperations := fileOperations all
    performs := performs all
    warnings := [] }

/-- The outline with a warning if nothing in it is executable. -/
def Outline.checked (o : Outline) : Outline :=
  if o.isDeclarative then { o with warnings := o.warnings ++ [declarativeWarning] } else o

/-- The outline of a source. -/
def outline (source : String) : Outline :=
  (outlineOfText (normalize source).toList).checked

theorem numbered_append (before : Nat) (lines lines' : List (List Char)) :
    numbered before (lines ++ lines') =
      numbered before lines ++ numbered (before + lines.length) lines' := by
  simp only [numbered, List.zipIdx_append, Nat.add_right_comm]

theorem collect_append {α β : Type} (rule : List Char → Option α) (record : Nat → α → β)
    (lines lines' : List NumberedLine) :
    collect rule record (lines ++ lines') =
      collect rule record lines ++ collect rule record lines' := by
  simp only [collect, List.filterMap_append]

end Mainframe.Cobol
