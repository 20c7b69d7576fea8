import Mainframe.Cobol.Extraction
import Mainframe.Proofs.QuietLine

/-
  Tidy programs: one item on each line, and no word that could be taken for
  something else.

  A word of a tidy program is a name that no rule stumbles over. It holds
  neither THEN, which ends a condition, nor SECTION, which keeps a label from
  naming a paragraph; it is none of the connectives TO, BY and GIVING; and none
  of its parts between hyphens is a keyword, since a hyphen is no word
  character. Words, labels and pictures carry these facts with them.

  Here is what a tidy program looks like, and what its outline has to say about
  it: `Reads`.
-/

namespace Mainframe.Cobol.Tidy

open Mainframe.Text

/-! ## Words -/

/-- The keywords that open a statement. -/
def statementKeywords : List (List Char) :=
  ["DISPLAY".toList, "ACCEPT".toList, "MOVE".toList, "COMPUTE".toList, "ADD".toList,
    "MULTIPLY".toList]

/-- The keywords that open a branch. -/
def branchKeywords : List (List Char) :=
  ["IF".toList, "PERFORM".toList, "EVALUATE".toList, "GO".toList]

/-- The keywords that open a statement or a branch. -/
def keywords : List (List Char) := statementKeywords ++ branchKeywords

/-- The keywords that stand inside a statement. -/
def connectives : List (List Char) := ["TO".toList, "BY".toList, "GIVING".toList]

/-- A word of a tidy program. -/
structure Word where
  chars : List Char
  nonempty : chars ≠ []
  allowed : ∀ c ∈ chars, isNameChar c = true
  noThen : contains "THEN".toList chars = false
  noSection : contains "SECTION".toList chars = false
  noConnective : chars ∉ connectives
  noKeyword : ∀ part ∈ pieces '-' chars, part ∉ keywords

/-- The name of a paragraph. -/
structure Label extends Word where
  startsWithLetter : ∃ c ∈ chars.head?, c.isUpper = true
  noScopeEnd : chars ∉ scopeEnds

/-- Whether the character may stand in a picture: printable ASCII, but no blank,
no lower-case letter and no full stop. -/
def isPictureChar (c : Char) : Bool := isTokenChar c && c != '.'

/-- The picture of a variable. -/
structure Picture where
  chars : List Char
  nonempty : chars ≠ []
  allowed : ∀ c ∈ chars, isPictureChar c = true

/-- The level number of a variable: two digits. -/
structure Level where
  chars : List Char
  isLevel : Cobol.isLevel chars = true

/-- A variable with its picture. -/
structure Variable where
  level : Level
  name : Word
  picture : Picture

/-- A sentence that stands on one line. -/
inductive Sentence where
  | display (value : Word)
  | accept (target : Word)
  | move (source target : Word)
  | compute (target left right : Word)
  | add (left right result : Word)
  | multiply (left right result : Word)
  | stop
  | ifGreater (left right : Word)
  | perform (target : Word)
  | evaluate (subject : Word)
  | goTo (target : Word)

/-- A line of the procedure division. -/
inductive Item where
  | label (name : Label)
  | sentence (s : Sentence)

/-- A paragraph: its label and the sentences below it. -/
structure Block where
  label : Label
  sentences : List Sentence

/-- A tidy program. -/
structure Program where
  programId : Word
  declarations : List Variable
  blocks : List Block

/-! ## Lines -/

/-- The token with a full stop behind it. -/
def stopped (tok : List Char) : List Char := tok ++ ['.']

/-- The tokens of a sentence. An IF and an EVALUATE go on below their line, so no
full stop ends them there. -/
def Sentence.tokens : Sentence → List (List Char)
  | .display w => ["DISPLAY".toList, stopped w.chars]
  | .accept w => ["ACCEPT".toList, stopped w.chars]
  | .move v w => ["MOVE".toList, v.chars, "TO".toList, stopped w.chars]
  | .compute u v w =>
    ["COMPUTE".toList, u.chars, "=".toList, v.chars, "+".toList, stopped w.chars]
  | .add u v w => ["ADD".toList, u.chars, v.chars, "GIVING".toList, stopped w.chars]
  | .multiply u v w =>
    ["MULTIPLY".toList, u.chars, "BY".toList, v.chars, "GIVING".toList, stopped w.chars]
  | .stop => ["STOP".toList, "RUN.".toList]
  | .ifGreater v w => ["IF".toList, v.chars, ">".toList, w.chars]
  | .perform w => ["PERFORM".toList, stopped w.chars]
  | .evaluate w => ["EVALUATE".toList, w.chars]
  | .goTo w => ["GO".toList, "TO".toList, stopped w.chars]

/-- The tokens of an item. -/
def Item.tokens : Item → List (List Char)
  | .label name => [stopped name.chars]
  | .sentence s => s.tokens

/-- The tokens of a declaration. -/
def Variable.tokens (v : Variable) : List (List Char) :=
  [v.level.chars, v.name.chars, "PIC".toList, stopped v.picture.chars]

/-- The items of a paragraph. -/
def Block.items (b : Block) : List Item := .label b.label :: b.sentences.map .sentence

namespace Program

/-- The items of the procedure division. -/
def items (p : Program) : List Item := p.blocks.flatMap Block.items

/-- The tokens of the lines in front of the declarations. -/
def headers (p : Program) : List (List (List Char)) :=
  [["IDENTIFICATION".toList, "DIVISION.".toList],
    ["PROGRAM-ID.".toList, stopped p.programId.chars],
    ["DATA".toList, "DIVISION.".toList],
    ["WORKING-STORAGE".toList, "SECTION.".toList]]

/-- The tokens of the lines in front of the procedure division. -/
def preamble (p : Program) : List (List (List Char)) :=
  p.headers ++ p.declarations.map Variable.tokens

/-- The tokens of the lines of the procedure division. -/
def procedure (p : Program) : List (List (List Char)) :=
  ["PROCEDURE".toList, "DIVISION.".toList] :: p.items.map Item.tokens

/-- The lines of the program. -/
def lines (p : Program) : List (List Char) := (p.preamble ++ p.procedure).map spell

/-- The source of the program. Its last line may end with a line feed or not. -/
def source (p : Program) (ended : Bool) : String :=
  String.ofList (joinLines (p.lines ++ if ended then [[]] else []))

end Program

example : ∃ p : Program, p.lines.map String.ofList =
    ["IDENTIFICATION DIVISION.", "PROGRAM-ID. HELLO.", "DATA DIVISION.",
      "WORKING-STORAGE SECTION.", "01 N-1 PIC S9(2).", "PROCEDURE DIVISION.", "MAIN.",
      "ADD N-1 N-1 GIVING N-1.", "STOP RUN."] := by
  let hello : Word := ⟨"HELLO".toList, by decide, List.all_eq_true.1 (by decide), by decide,
    by decide, by decide, by decide⟩
  let n : Word := ⟨"N-1".toList, by decide, List.all_eq_true.1 (by decide), by decide,
    by decide, by decide, by decide⟩
  let main : Label := ⟨⟨"MAIN".toList, by decide, List.all_eq_true.1 (by decide), by decide,
    by decide, by decide, by decide⟩, ⟨'M', rfl, rfl⟩, by decide⟩
  let number : Variable :=
    ⟨⟨"01".toList, rfl⟩, n, ⟨"S9(2)".toList, by decide, List.all_eq_true.1 (by decide)⟩⟩
  exact ⟨⟨hello, [number], [⟨main, [.add n n n, .stop]⟩]⟩, rfl⟩

/-! ## What the outline has to say -/

/-- The word as a string. -/
def Word.text (w : Word) : String := String.ofList w.chars

/-- The data item that a variable is. -/
def Variable.dataItem (v : Variable) : DataItem :=
  ⟨String.ofList v.level.chars, v.name.text, String.ofList v.picture.chars⟩

/-- The statement that a sentence makes. -/
def Sentence.action : Sentence → Option Action
  | .display w => some (.display w.text)
  | .accept w => some (.accept w.text)
  | .move v w => some (.move v.text w.text)
  | .compute u v w => some (.compute u.text (v.text ++ " + " ++ w.text))
  | .add u v w => some (.add (u.text ++ " " ++ v.text) w.text)
  | .multiply u v w => some (.multiply u.text v.text w.text)
  | .stop => some .stop
  | .ifGreater _ _ | .perform _ | .evaluate _ | .goTo _ => none

/-- The branch that a sentence makes. -/
def Sentence.branch : Sentence → Option Branch
  | .ifGreater v w => some (.conditional (v.text ++ " > " ++ w.text))
  | .perform w => some (.perform w.text)
  | .evaluate w => some (.evaluate w.text)
  | .goTo w => some (.goTo w.text)
  | .display _ | .accept _ | .move _ _ | .compute _ _ _ | .add _ _ _ | .multiply _ _ _
  | .stop => none

/-- The paragraph that a sentence calls. -/
def Sentence.callee : Sentence → Option Word
  | .perform w => some w
  | _ => none

/-- The sentence on the line of an item, if it is no label. -/
def Item.sentence? : Item → Option Sentence
  | .label _ => none
  | .sentence s => some s

/-- The name on the line of an item, if it is a label. -/
def Item.name? : Item → Option String
  | .label name => some name.text
  | .sentence _ => none

/-- The items with their lines. Four header lines, the declarations and the
header of the procedure division come first. -/
def Program.placed (p : Program) : List (Item × Nat) := p.items.zipIdx (p.declarations.length + 6)

/-- What the sentences of a program say, each with its line. -/
def Program.said {α β : Type} (p : Program) (find : Sentence → Option α) (record : Nat → α → β) :
    List β :=
  p.placed.filterMap (fun item => (item.1.sentence?.bind find).map (record item.2))

/-- The outline says about the program what is written in it, and warns of
nothing if there is a sentence. A word may well be the name of a file verb or of
a division, so nothing is said about the uses of files and about the environment
division. -/
structure Reads (p : Program) (o : Outline) : Prop where
  programId : o.programId = some p.programId.text
  divisions : ∀ d, d ≠ .environment → o.divisions.mark? d = some true
  dataItems : o.dataItems = p.declarations.map Variable.dataItem
  paragraphs : o.paragraphs = p.placed.filterMap
    (fun item => item.1.name?.map (fun name => ⟨recordId "PARA" item.2, name, item.2⟩))
  statements : o.statements = p.said Sentence.action (fun n a => ⟨recordId "STMT" n, n, a⟩)
  controlFlow : o.controlFlow = p.said Sentence.branch (fun n b => ⟨recordId "CF" n, n, b⟩)
  conditions : o.conditions =
    p.said (fun s => s.branch.bind Branch.condition?) (fun _ condition => condition)
  performs : o.performs =
    p.said Sentence.callee (fun n w => ⟨recordId "PERFORM" n, w.text, n⟩)
  warnings : (∃ b ∈ p.blocks, b.sentences ≠ []) → o.warnings = []

end Mainframe.Cobol.Tidy
