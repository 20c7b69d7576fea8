import Mainframe.Text.Blank
import Mainframe.Text.Lines
import Mainframe.Text.Uppercase
import Mainframe.Text.WordChar

/-
  COBOL source text, line by line.

  A line whose first character that is not blank is an asterisk is a comment
  and is dropped. Every other line is retained: its trailing blanks go, then a
  sequence area (six digits in front of at least one more character), and what
  is left is put in upper case. An asterisk behind a sequence area is text.

  What is proved:
    1. `retainedLines_append`: the retained lines of two texts with a line
       feed between them are those of the one followed by those of the other.
    2. `length_retainedLines_le`: no line is retained that is not in the text.
-/

namespace Mainframe.Cobol

open Mainframe.Text

/-- The line without its sequence area. -/
def dropSequenceArea (line : List Char) : List Char :=
  if decide (6 < line.length) && (line.take 6).all Char.isDigit then line.drop 6 else line

/-- Whether the first character that is not blank is an asterisk. -/
def isComment (line : List Char) : Bool := (trimStart line).head? == some '*'

/-- What a line contributes to the normalized text, if it is no comment. -/
def retained? (line : List Char) : Option (List Char) :=
  if isComment (trimEnd line) then none
  else some (uppercase (dropSequenceArea (trimEnd line)))

/-- The normalized lines of a source, without its comments. -/
def retainedLines (source : List Char) : List (List Char) :=
  (splitLines source).filterMap retained?

/-- The normalized text of a source. -/
def normalize (source : String) : String :=
  String.ofList (joinLines (retainedLines source.toList))

theorem retainedLines_append (s t : List Char) :
    retainedLines (s ++ '\n' :: t) = retainedLines s ++ retainedLines t := by
  simp only [retainedLines, splitLines_append, List.filterMap_append]

theorem length_retainedLines_le (s : List Char) :
    (retainedLines s).length ≤ (splitLines s).length :=
  List.length_filterMap_le ..

end Mainframe.Cobol
