import Mainframe.Text.Search
import Mainframe.Cobol.Outline
import Mainframe.Cobol.Declaration

/-
  What one line of the procedure division says.

  Each rule looks at one line and finds at most one thing there. The rules for
  statements are tried in a fixed order and the first that fits wins; so are
  the rules for branches. A verb counts only where no word character stands
  before it.
-/

namespace Mainframe.Cobol

open Mainframe.Text

/-- A paragraph label: a name that starts with a letter, in front of a full
stop, with nothing but blanks before it. -/
def label? (line : List Char) : Option (List Char) :=
  match name? isNameChar (trimStart line) with
  | some (c :: name, rest) => if c.isUpper && rest.head? == some '.' then some (c :: name) else none
  | _ => none

/-- Ends of scope, which look like labels. -/
def scopeEnds : List (List Char) := ["END-IF".toList, "ELSE".toList, "END-PERFORM".toList]

/-- Whether the line opens the procedure division. -/
def opensProcedure (line : List Char) : Bool := contains Division.procedure.header.toList line

/-- The paragraph that a line of the procedure division names. -/
def paragraphName? (line : List Char) : Option (List Char) :=
  if opensProcedure line || contains "SECTION".toList line then none
  else (label? line).filter (fun name => !scopeEnds.contains name)

/-- The value of a DISPLAY, up to a full stop or the end of the line. -/
def display? (line : List Char) : Option Action :=
  (findWord? "DISPLAY".toList (spaced (either atStop atEnd)) line).map
    (fun f => .display (String.ofList f.1))

/-- The name behind an ACCEPT. -/
def accept? (line : List Char) : Option Action :=
  (findWord? "ACCEPT".toList gapName? line).map (fun target => .accept (String.ofList target))

/-- A MOVE from one field to another, up to a full stop. -/
def move? (line : List Char) : Option Action :=
  (findWord? "MOVE".toList (spaced (gapWord "TO".toList (spaced atStop))) line).map
    (fun f => .move (String.ofList f.1) (String.ofList f.2.1))

/-- An equals sign, with or without blanks before it, and the rest. -/
def equals {α : Type} (rest : List Char → Option α) (s : List Char) : Option α :=
  match trimStart s with
  | [] => none
  | c :: here => if c = '=' then rest here else none

/-- A COMPUTE of a target from an expression, up to a full stop. -/
def compute? (line : List Char) : Option Action :=
  (findWord? "COMPUTE".toList (spaced (equals (padded atStop))) line).map
    (fun f => .compute (String.ofList f.1) (String.ofList f.2.1))

/-- An ADD of operands that gives a result, up to a full stop. -/
def add? (line : List Char) : Option Action :=
  (findWord? "ADD".toList (spaced (gapWord "GIVING".toList (spaced atStop))) line).map
    (fun f => .add (String.ofList f.1) (String.ofList f.2.1))

/-- A MULTIPLY of two factors that gives a result, up to a full stop. -/
def multiply? (line : List Char) : Option Action :=
  (findWord? "MULTIPLY".toList
    (spaced (gapWord "BY".toList (spaced (gapWord "GIVING".toList (spaced atStop))))) line).map
    (fun f => .multiply (String.ofList f.1) (String.ofList f.2.1) (String.ofList f.2.2.1))

/-- A STOP RUN anywhere in the line. -/
def stop? (line : List Char) : Option Action :=
  if contains "STOP RUN".toList line then some .stop else none

/-- The rules for statements, in the order in which they are tried. -/
def statementRules : List (List Char → Option Action) :=
  [display?, accept?, move?, compute?, add?, multiply?, stop?]

/-- The statement on a line. -/
def action? (line : List Char) : Option Action := statementRules.findSome? (fun rule => rule line)

/-- The condition of an IF, up to THEN or the end of the line. -/
def conditional? (line : List Char) : Option Branch :=
  (findWord? "IF".toList (spaced (either (atWord "THEN".toList) atEnd)) line).map
    (fun f => .conditional (String.ofList f.1))

/-- What a PERFORM names, up to a full stop. -/
def perform? (line : List Char) : Option Branch :=
  (findWord? "PERFORM".toList (spaced atStop) line).map (fun f => .perform (String.ofList f.1))

/-- What an EVALUATE looks at, up to the end of the line. -/
def evaluate? (line : List Char) : Option Branch :=
  (findWord? "EVALUATE".toList (spaced atEnd) line).map (fun f => .evaluate (String.ofList f.1))

/-- The name behind a GO TO. -/
def goTo? (line : List Char) : Option Branch :=
  (findWord? "GO".toList (gapWord "TO".toList gapName?) line).map
    (fun target => .goTo (String.ofList target))

/-- The rules for branches, in the order in which they are tried. -/
def branchRules : List (List Char → Option Branch) :=
  [conditional?, perform?, evaluate?, goTo?]

/-- The branch on a line. -/
def branch? (line : List Char) : Option Branch := branchRules.findSome? (fun rule => rule line)

/-- Whether the text starts inside a word. -/
def startsInWord : List Char → Bool
  | [] => false
  | c :: _ => isWordChar c

/-- The file verb on a line: the first keyword that stands alone, with no word
character before or after it. -/
def fileVerb? (line : List Char) : Option FileVerb :=
  leftmost (fun inWord here =>
    if inWord then none
    else FileVerb.all.find? (fun v =>
      match after? v.keyword.toList here with
      | some rest => !startsInWord rest
      | none => false)) false line

/-- The name behind a PERFORM. -/
def performTarget? (line : List Char) : Option (List Char) :=
  findWord? "PERFORM".toList gapName? line

end Mainframe.Cobol
