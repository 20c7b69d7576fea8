import Mainframe.Cobol.Outline

/-
  Which paragraph a line belongs to, and who calls whom.

  A caller is the last paragraph, from the top, whose label and those before it
  stand at or above the line of the call; in front of the first label it is
  MAIN. A paragraph lists what stands below its own label and above the next
  label that is further down.
-/

namespace Mainframe.Report

open Cobol

/-- The name of the caller in front of the first label. -/
def mainName : String := "MAIN"

/-- The line above which the last paragraph's records stand: 2^64 - 1. -/
def lastLine : Nat := 18446744073709551615

/-- The paragraph whose label is the last one at or above the line. -/
def paragraphAt? (ps : List Paragraph) (line : Nat) : Option Paragraph :=
  (ps.takeWhile (fun p => decide (p.line ≤ line))).getLast?

/-- The line of the first label that stands below the line. -/
def nextLabel (ps : List Paragraph) (line : Nat) : Nat :=
  ((ps.map Paragraph.line).find? (fun l => decide (line < l))).getD lastLine

/-- The records that are listed under a paragraph: those below its label and
above the next one. -/
def listedUnder {α : Type} (ps : List Paragraph) (p : Paragraph) (lineOf : α → Nat)
    (records : List α) : List α :=
  let next := nextLabel ps p.line
  records.filter (fun r => decide (p.line < lineOf r) && decide (lineOf r < next))

/-- A call: the caller, the callee and the line. -/
structure Call where
  caller : String
  callee : String
  line : Nat
  deriving DecidableEq, Repr

/-- The calls in an outline, one for each PERFORM. -/
def calls (o : Cobol.Outline) : List Call :=
  o.performs.map (fun p =>
    ⟨((paragraphAt? o.paragraphs p.line).map Paragraph.name).getD mainName, p.target,
      p.line⟩)

/-- The list without what has occurred before in it. -/
def distinct {α : Type} [BEq α] : List α → List α
  | [] => []
  | a :: as => a :: (distinct as).filter (fun b => !(b == a))

/-- Who calls whom, each pair once, in order of first occurrence. -/
def edges (o : Cobol.Outline) : List (String × String) :=
  distinct ((calls o).map (fun c => (c.caller, c.callee)))

/-- The targets of the GO TOs. -/
def goToTargets (o : Cobol.Outline) : List String :=
  o.controlFlow.filterMap (fun c =>
    match c.branch with
    | .goTo target => some target
    | _ => none)

/-- The paragraphs, the first one apart, that no PERFORM and no GO TO names.
Control enters the first paragraph without a call. -/
def unusedParagraphs (o : Cobol.Outline) : List Paragraph :=
  (o.paragraphs.drop 1).filter (fun p =>
    !((o.performs.map Perform.target).contains p.name || (goToTargets o).contains p.name))

end Mainframe.Report
