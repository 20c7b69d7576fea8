import Mainframe.Text.Search
import Mainframe.Jcl.Outline

/-
  The cards of a job deck.

  A card is a line that starts with two slashes, without the blanks at its end.
  It is a JOB, an EXEC or a DD card by the first of these words, in this order,
  that it contains between two spaces; any other card is ignored.

  An attribute is written as a key, an equals sign and a value. Its first
  occurrence with at least one allowed character behind it counts, and the
  value is the run of allowed characters there. Cards are read as they are
  written: a key in small letters is no key.

  Lines end with a line feed, a carriage return may stand in front of it, and
  nothing behind the last one is no line. For the cards none of this matters: a
  return is trimmed with the other blanks, and an empty line is no card.

  What is proved:
    1. `cards_eq_filter`: where a deck is cut into lines does not matter beyond
       its line feeds.
-/

namespace Mainframe.Jcl

open Mainframe.Text

/-- What a card does in a deck. -/
inductive CardKind where
  | job
  | exec
  | dd
  | ignored
  deriving DecidableEq, Repr

/-- What the card does. -/
def cardKind (card : List Char) : CardKind :=
  if contains " JOB ".toList card then .job
  else if contains " EXEC ".toList card then .exec
  else if contains " DD ".toList card then .dd
  else .ignored

/-- The cards of a deck, from top to bottom. -/
def cards (deck : List Char) : List (List Char) :=
  ((textLines deck).map trimEnd).filter (startsWith ['/', '/'])

/-- The first word behind the slashes, which is the name of a card. -/
def firstWord (card : List Char) : String :=
  String.ofList ((words (card.drop 2)).headD [])

/-- A capital or a digit. -/
def isCode (c : Char) : Bool := c.isUpper || c.isDigit

/-- A character of a user name. -/
def isUserChar (c : Char) : Bool := isCode c || c == '_' || c == '.'

/-- A character of a program name. -/
def isProgramChar (c : Char) : Bool := isCode c || c == '$' || c == '#' || c == '@' || c == '.'

/-- A character of a value that ends at a comma. -/
def isNoComma (c : Char) : Bool := c != ','

/-- A character of a dataset name. -/
def isDatasetChar (c : Char) : Bool := c != ',' && !isBlank c

/-- The run of allowed characters at the front, if there is one. -/
def value? (allowed : Char → Bool) (s : List Char) : Option String :=
  (name? allowed s).map (fun v => String.ofList v.1)

/-- The capital or digit at the front, if there is one. -/
def code? (s : List Char) : Option String :=
  match s with
  | [] => none
  | c :: _ => if isCode c then some (String.ofList [c]) else none

/-- The class of a job. The key is no part of a longer word. -/
def jobClass? (card : List Char) : Option String := findWord? "CLASS=".toList code? card

/-- The message class of a job. -/
def messageClass? (card : List Char) : Option String := find? "MSGCLASS=".toList code? card

/-- The user whom a job notifies. -/
def notify? (card : List Char) : Option String := find? "NOTIFY=".toList (value? isUserChar) card

/-- The program that a step runs. -/
def program? (card : List Char) : Option String := find? "PGM=".toList (value? isProgramChar) card

/-- The procedure that a step runs. -/
def procedure? (card : List Char) : Option String := find? "PROC=".toList (value? isCode) card

/-- The condition of a step. -/
def condition? (card : List Char) : Option String := find? "COND=".toList (value? isNoComma) card

/-- The dataset of a data definition. -/
def dataset? (card : List Char) : Option String := find? "DSN=".toList (value? isDatasetChar) card

/-- The disposition of a dataset. -/
def disposition? (card : List Char) : Option String :=
  find? "DISP=".toList (value? isNoComma) card

/-- The kind of data, by the first of these texts that the card contains. -/
def dataKind (card : List Char) : DataKind :=
  if contains "SYSOUT=".toList card then .sysout
  else if contains "DUMMY".toList card then .dummy
  else if contains "DSN=".toList card then .dataset
  else if contains " DD *".toList card then .inline
  else .unknown

/-- What a JOB card says. -/
def Job.ofCard (card : List Char) : Job :=
  { name := firstWord card
    jobClass := jobClass? card
    messageClass := messageClass? card
    notify := notify? card
    raw := String.ofList card }

/-- What an EXEC card says. The step has no data definitions yet. -/
def Step.ofCard (card : List Char) : Step :=
  { name := firstWord card
    program := program? card
    procedure := procedure? card
    condition := condition? card
    definitions := []
    raw := String.ofList card }

/-- What a DD card says. -/
def DataDefinition.ofCard (card : List Char) : DataDefinition :=
  { name := firstWord card
    dataset := dataset? card
    disposition := disposition? card
    kind := dataKind card
    raw := String.ofList card }

theorem trimEnd_dropReturn (line : List Char) : trimEnd (dropReturn line) = trimEnd line := by
  unfold dropReturn
  split
  next hreturn =>
    obtain ⟨front, rfl⟩ := List.getLast?_eq_some_iff.1 hreturn
    have hblank : ∀ c ∈ ['\r'], isBlank c = true := List.forall_mem_singleton.2 (by decide)
    rw [List.dropLast_concat, trimEnd_append_blanks front hblank]
  next => rfl

theorem filter_trimEnd_endedLines (lines : List (List Char)) :
    ((endedLines lines).map trimEnd).filter (startsWith ['/', '/']) =
      (lines.map trimEnd).filter (startsWith ['/', '/']) := by
  induction lines with
  | nil => rfl
  | cons line lines ih =>
    cases lines with
    | nil =>
      rw [endedLines]
      split
      next hempty =>
        -- an empty last line is no line, and no card either
        rw [List.isEmpty_iff.1 hempty]
        rfl
      next => rfl
    | cons next rest =>
      rw [endedLines, List.map_cons, trimEnd_dropReturn, List.map_cons, List.filter_cons,
        List.filter_cons, ih]

/-- The cards are the trimmed lines that start with two slashes. -/
theorem cards_eq_filter (deck : List Char) :
    cards deck = ((splitLines deck).map trimEnd).filter (startsWith ['/', '/']) :=
  filter_trimEnd_endedLines (splitLines deck)

end Mainframe.Jcl
