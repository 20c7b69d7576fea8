import Mainframe.Text.Search
import Mainframe.Cobol.Outline

/-
  What a program declares: its id, its divisions and its data items.

  A name is a run of capitals, digits and hyphens. The program id is the name
  behind the first `PROGRAM-ID.` that a gap and a name follow. A division is
  present if its header stands anywhere in the text.

  A data item is four words in a row: two digits that open a line, a name, PIC
  or PICTURE, and a word with a picture in front of its first full stop. Line
  breaks separate words like any other blank, so the four words may stand on
  several lines.

  What is proved:
    1. `toNat_lt_of_isNameChar`: a character of a name is ASCII.
-/

namespace Mainframe.Cobol

open Mainframe.Text

/-- Whether the character may stand in a name. -/
def isNameChar (c : Char) : Bool := c.isUpper || c.isDigit || c == '-'

/-- The name behind a gap. -/
def gapName? (s : List Char) : Option (List Char) :=
  (gap? s).bind (fun here => (name? isNameChar here).map Prod.fst)

/-- The program id that the text declares first. -/
def programId? (text : List Char) : Option (List Char) :=
  find? "PROGRAM-ID.".toList gapName? text

/-- Whether the header of the division stands somewhere in the text. -/
def hasDivision (text : List Char) (d : Division) : Bool := contains d.header.toList text

/-- A word, and whether it is the first one on its line. -/
structure Token where
  opensLine : Bool
  word : List Char
  deriving DecidableEq, Repr

/-- The words of a line. -/
def lineTokens (line : List Char) : List Token :=
  match words line with
  | [] => []
  | first :: others => ⟨true, first⟩ :: others.map (fun w => ⟨false, w⟩)

/-- The words of a text. -/
def tokens (lines : List (List Char)) : List Token := lines.flatMap lineTokens

/-- Whether the word is a level number: two digits. -/
def isLevel : List Char → Bool
  | [a, b] => a.isDigit && b.isDigit
  | _ => false

/-- Whether the word announces a picture. -/
def isPictureWord (w : List Char) : Bool := w == "PIC".toList || w == "PICTURE".toList

/-- What stands in front of the first full stop. -/
def beforeStop (w : List Char) : List Char := w.takeWhile (fun c => c != '.')

/-- The data item that four words declare. -/
def dataItem? (level name clause picture : Token) : Option DataItem :=
  if level.opensLine && isLevel level.word && name.word.all isNameChar
      && isPictureWord clause.word && !(beforeStop picture.word).isEmpty then
    some ⟨String.ofList level.word, String.ofList name.word,
      String.ofList (beforeStop picture.word)⟩
  else none

/-- The data items that the words declare, from left to right; a word belongs
to one data item at most. -/
def dataItems : List Token → List DataItem
  | level :: name :: clause :: picture :: rest =>
    match dataItem? level name clause picture with
    | some item => item :: dataItems rest
    | none => dataItems (name :: clause :: picture :: rest)
  | _ => []

theorem toNat_lt_of_isNameChar {c : Char} (h : isNameChar c = true) : c.toNat < 128 := by
  rw [isNameChar, Bool.or_eq_true, Bool.or_eq_true, beq_iff_eq] at h
  rcases h with (h | h) | rfl
  · have hupper : 65 ≤ c.val ∧ c.val ≤ 90 := of_decide_eq_true h
    have hle : c.toNat ≤ 90 := hupper.2
    omega
  · have hdigit : (decide (48 ≤ c.val) && decide (c.val ≤ 57)) = true := h
    rw [Bool.and_eq_true, decide_eq_true_eq, decide_eq_true_eq] at hdigit
    have hle : c.toNat ≤ 57 := hdigit.2
    omega
  · decide

end Mainframe.Cobol
