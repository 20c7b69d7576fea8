import Mainframe.Text.Lines
import Mainframe.Text.Uppercase
import Mainframe.Text.WordChar
import Mainframe.Language

/-
  Guessing the language of a source.

  The source is looked at in upper case. It is a job deck if some line starts
  with two slashes and a word character, and JOB or EXEC stands between two
  spaces anywhere. Otherwise it is a COBOL program if it contains one of four
  markers. A source of nothing but blanks is neither.
-/

namespace Mainframe

open Text

/-- Whether the line starts with two slashes and a word character. -/
def isNamedCard (line : List Char) : Bool :=
  match line with
  | '/' :: '/' :: c :: _ => isWordChar c
  | _ => false

/-- Whether the text, in upper case, looks like a job deck. -/
def looksLikeDeck (upper : List Char) : Bool :=
  (splitLines upper).any isNamedCard
    && (contains " JOB ".toList upper || contains " EXEC ".toList upper)

/-- The texts that mark a COBOL program. -/
def programMarkers : List String :=
  ["IDENTIFICATION DIVISION", "PROGRAM-ID", "DATA DIVISION", "PROCEDURE DIVISION"]

/-- Whether the text, in upper case, looks like a COBOL program. -/
def looksLikeProgram (upper : List Char) : Bool :=
  programMarkers.any (fun m => contains m.toList upper)

/-- The language that the source seems to be written in. -/
def detect (source : String) : Option Language :=
  if allBlank source.toList then none
  else if looksLikeDeck (uppercase source.toList) then some .jcl
  else if looksLikeProgram (uppercase source.toList) then some .cobol
  else none

end Mainframe
