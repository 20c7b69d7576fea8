/-
  The outline of a COBOL program: what can be said about it line by line.

  Every record that stands on a line carries the number of that line among the
  retained lines, counted from one. Lists keep the order of the source.
-/

namespace Mainframe.Cobol

/-- The four divisions, in source order. -/
inductive Division where
  | identification
  | environment
  | data
  | procedure
  deriving DecidableEq, Repr

namespace Division

/-- The divisions, in source order. -/
def all : List Division := [identification, environment, data, procedure]

/-- The name under which a division is listed. -/
def key : Division → String
  | identification => "identification_division"
  | environment => "environment_division"
  | data => "data_division"
  | procedure => "procedure_division"

/-- The division that is listed under the name. -/
def ofKey? (name : String) : Option Division := all.find? (fun d => d.key == name)

/-- The header that opens a division in normalized source. -/
def header : Division → String
  | identification => "IDENTIFICATION DIVISION"
  | environment => "ENVIRONMENT DIVISION"
  | data => "DATA DIVISION"
  | procedure => "PROCEDURE DIVISION"

theorem ofKey?_key (d : Division) : ofKey? d.key = some d := by cases d <;> decide

end Division

/-- A mark for each division that is listed. A division may be listed and
marked `false`; it still counts as present. -/
structure Divisions where
  identification : Option Bool
  environment : Option Bool
  data : Option Bool
  procedure : Option Bool
  deriving DecidableEq, Repr

namespace Divisions

/-- No division is listed. -/
def empty : Divisions := ⟨none, none, none, none⟩

/-- The mark of a division. -/
def mark? (ds : Divisions) : Division → Option Bool
  | .identification => ds.identification
  | .environment => ds.environment
  | .data => ds.data
  | .procedure => ds.procedure

/-- The divisions with one more marked; an earlier mark of it is replaced. -/
def set (ds : Divisions) (mark : Bool) : Division → Divisions
  | .identification => { ds with identification := some mark }
  | .environment => { ds with environment := some mark }
  | .data => { ds with data := some mark }
  | .procedure => { ds with procedure := some mark }

/-- The listed divisions, in source order. -/
def present (ds : Divisions) : List Division :=
  Division.all.filter (fun d => (ds.mark? d).isSome)

/-- The listed divisions with their marks, in source order. -/
def entries (ds : Divisions) : List (Division × Bool) :=
  Division.all.filterMap (fun d => (ds.mark? d).map (fun mark => (d, mark)))

/-- The divisions for which `found` holds, each marked `true`. -/
def ofPresent (found : Division → Bool) : Divisions :=
  Division.all.foldl (fun ds d => if found d then ds.set true d else ds) empty

theorem mark?_ofPresent (found : Division → Bool) (d : Division) :
    (ofPresent found).mark? d = if found d then some true else none := by
  simp only [ofPresent, Division.all, List.foldl_cons, List.foldl_nil]
  cases h₁ : found .identification <;> cases h₂ : found .environment <;>
    cases h₃ : found .data <;> cases h₄ : found .procedure <;>
    cases d <;> simp [set, mark?, empty, h₁, h₂, h₃, h₄]

end Divisions

/-- A data item with a picture clause. -/
structure DataItem where
  level : String
  name : String
  picture : String
  deriving DecidableEq, Repr

/-- A paragraph label in the procedure division. -/
structure Paragraph where
  id : String
  name : String
  line : Nat
  deriving DecidableEq, Repr

/-- The verb of a statement. -/
inductive Verb where
  | display
  | accept
  | move
  | compute
  | add
  | multiply
  | stop
  deriving DecidableEq, Repr

namespace Verb

/-- The verbs of statements, in the order in which they are tried. -/
def all : List Verb := [display, accept, move, compute, add, multiply, stop]

/-- The verb in capitals. -/
def name : Verb → String
  | display => "DISPLAY"
  | accept => "ACCEPT"
  | move => "MOVE"
  | compute => "COMPUTE"
  | add => "ADD"
  | multiply => "MULTIPLY"
  | stop => "STOP"

theorem mem_all (v : Verb) : v ∈ all := by cases v <;> decide

theorem name_inj {v w : Verb} (h : v.name = w.name) : v = w := by
  have hall : ∀ v ∈ all, ∀ w ∈ all, v.name = w.name → v = w := by decide
  exact hall v v.mem_all w w.mem_all h

end Verb

/-- What a statement does. -/
inductive Action where
  | display (value : String)
  | accept (target : String)
  | move (source target : String)
  | compute (target expression : String)
  | add (operands result : String)
  | multiply (left right result : String)
  | stop
  deriving DecidableEq, Repr

namespace Action

/-- The verb of a statement. -/
def verb : Action → Verb
  | display _ => .display
  | accept _ => .accept
  | move _ _ => .move
  | compute _ _ => .compute
  | add _ _ => .add
  | multiply _ _ _ => .multiply
  | stop => .stop

/-- Whether the statement computes a number. -/
def isArithmetic : Action → Bool
  | compute _ _ | add _ _ | multiply _ _ _ => true
  | _ => false

end Action

/-- A statement and its line. -/
structure Statement where
  id : String
  line : Nat
  action : Action
  deriving DecidableEq, Repr

/-- The verb of a branch. -/
inductive BranchVerb where
  | conditional
  | perform
  | evaluate
  | goTo
  deriving DecidableEq, Repr

namespace BranchVerb

/-- The verbs of branches, in the order in which they are tried. -/
def all : List BranchVerb := [conditional, perform, evaluate, goTo]

/-- The verb in capitals. -/
def name : BranchVerb → String
  | conditional => "IF"
  | perform => "PERFORM"
  | evaluate => "EVALUATE"
  | goTo => "GO_TO"

end BranchVerb

/-- How control may leave the line. -/
inductive Branch where
  | conditional (condition : String)
  | perform (target : String)
  | evaluate (expression : String)
  | goTo (target : String)
  deriving DecidableEq, Repr

namespace Branch

/-- The verb of a branch. -/
def verb : Branch → BranchVerb
  | conditional _ => .conditional
  | perform _ => .perform
  | evaluate _ => .evaluate
  | goTo _ => .goTo

/-- The condition of an IF. -/
def condition? : Branch → Option String
  | conditional c => some c
  | _ => none

end Branch

/-- A branch and its line. -/
structure ControlFlow where
  id : String
  line : Nat
  branch : Branch
  deriving DecidableEq, Repr

/-- What is done to a file. -/
inductive FileVerb where
  | opens
  | reads
  | writes
  | closes
  | deletes
  | rewrites
  deriving DecidableEq, Repr

namespace FileVerb

/-- The file verbs, in the order in which they are tried. -/
def all : List FileVerb := [opens, reads, writes, closes, deletes, rewrites]

/-- The keyword of a file verb. -/
def keyword : FileVerb → String
  | opens => "OPEN"
  | reads => "READ"
  | writes => "WRITE"
  | closes => "CLOSE"
  | deletes => "DELETE"
  | rewrites => "REWRITE"

/-- The file verb that has the keyword. -/
def ofKeyword? (word : String) : Option FileVerb := all.find? (fun v => v.keyword == word)

theorem mem_all (v : FileVerb) : v ∈ all := by cases v <;> decide

theorem ofKeyword?_keyword (v : FileVerb) : ofKeyword? v.keyword = some v := by cases v <;> decide

theorem keyword_inj {v w : FileVerb} (h : v.keyword = w.keyword) : v = w := by
  have hread := ofKeyword?_keyword v
  rw [h, ofKeyword?_keyword] at hread
  exact (Option.some.inj hread).symm

end FileVerb

/-- A use of a file and its line. -/
structure FileOperation where
  verb : FileVerb
  line : Nat
  deriving DecidableEq, Repr

/-- A PERFORM seen as a call of a paragraph. -/
structure Perform where
  id : String
  target : String
  line : Nat
  deriving DecidableEq, Repr

/-- Everything that is known about a program. -/
structure Outline where
  programId : Option String
  divisions : Divisions
  dataItems : List DataItem
  paragraphs : List Paragraph
  statements : List Statement
  controlFlow : List ControlFlow
  conditions : List String
  fileOperations : List FileOperation
  performs : List Perform
  warnings : List String
  deriving DecidableEq, Repr

namespace Outline

/-- The outline that says nothing. -/
def empty : Outline :=
  ⟨none, .empty, [], [], [], [], [], [], [], []⟩

/-- Whether nothing in the outline is executable. -/
def isDeclarative (o : Outline) : Bool :=
  o.statements.isEmpty && o.controlFlow.isEmpty && o.fileOperations.isEmpty

/-- The name by which the program is shown. -/
def displayName (o : Outline) : String := o.programId.getD "UNKNOWN"

/-- The warning for an outline in which nothing is executable. -/
def declarativeWarning : String :=
  "No executable logic detected. Program may be declarative only."

end Outline

end Mainframe.Cobol
