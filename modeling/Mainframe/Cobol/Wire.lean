import Mainframe.Json.Record
import Mainframe.Cobol.Outline

/-
  The JSON form of a COBOL outline.

  Members stand in the order of the fields. The program id stands in an object
  of its own, which is empty if there is none. A statement and a branch are
  objects with an id, a line, a type and the fields that belong to the type.

  An outline is closed: it has all of its fields and no others. A statement or
  a branch may have fields that belong to other types; these are passed over,
  but they have to be readable and no deeper than the reader allows there.
-/

namespace Mainframe.Cobol

open Mainframe.Json

/-- How deep a value may be that stands in a record of one of the lists of an
outline. -/
def roomInRecord : Nat := 124

/-- The divisions as an object of marks. -/
def Divisions.toJson (ds : Divisions) : Json :=
  .object (ds.entries.map (fun e => (e.1.key, .bool e.2)))

/-- The divisions with one more member read; the last mark of a division counts. -/
def Divisions.addMember (ds : Divisions) (member : String × Json) : Option Divisions := do
  let d ← Division.ofKey? member.1
  let mark ← bool? member.2
  some (ds.set mark d)

/-- The divisions that an object of marks lists. -/
def Divisions.ofJson? : Json → Option Divisions
  | .object members => members.foldlM Divisions.addMember .empty
  | _ => none

/-- The program id in an object of its own. -/
def programInfoJson (programId : Option String) : Json :=
  .object (match programId with
    | some id => [("program_id", .string id)]
    | none => [])

/-- The program id of an object or an array that has one field at most. -/
def programInfo? : Json → Option (Option String)
  | .object members => (atMostOnce "program_id" members).bind (optional string?)
  | .array [] => some none
  | .array [id] => optional string? (some id)
  | _ => none

/-- A data item as a record. -/
def DataItem.toJson (v : DataItem) : Json :=
  .object [("level", .string v.level), ("name", .string v.name), ("picture", .string v.picture)]

/-- The data item of a record. -/
def DataItem.ofJson? (value : Json) : Option DataItem := do
  match ← slots? false ["level", "name", "picture"] value with
  | [level, name, picture] =>
    some ⟨← required string? level, ← required string? name, ← required string? picture⟩
  | _ => none

/-- A paragraph as a record. -/
def Paragraph.toJson (p : Paragraph) : Json :=
  .object [("id", .string p.id), ("name", .string p.name), ("line", .natural p.line)]

/-- The paragraph of a record. -/
def Paragraph.ofJson? (value : Json) : Option Paragraph := do
  match ← slots? false ["id", "name", "line"] value with
  | [id, name, line] =>
    some ⟨← required string? id, ← required string? name, ← required natural? line⟩
  | _ => none

/-- The fields that belong to an action. -/
def Action.members : Action → List (String × Json)
  | .display value => [("value", .string value)]
  | .accept target => [("target", .string target)]
  | .move source target => [("from", .string source), ("to", .string target)]
  | .compute target expression =>
    [("target", .string target), ("expression", .string expression)]
  | .add operands result => [("operands", .string operands), ("result", .string result)]
  | .multiply left right result =>
    [("left", .string left), ("right", .string right), ("result", .string result)]
  | .stop => []

/-- The action with the verb whose fields stand among the members. -/
def Action.ofMembers? (ms : List (String × Json)) : Verb → Option Action
  | .display => do some (.display (← field "value" string? ms))
  | .accept => do some (.accept (← field "target" string? ms))
  | .move => do some (.move (← field "from" string? ms) (← field "to" string? ms))
  | .compute => do some (.compute (← field "target" string? ms) (← field "expression" string? ms))
  | .add => do some (.add (← field "operands" string? ms) (← field "result" string? ms))
  | .multiply => do
    some (.multiply (← field "left" string? ms) (← field "right" string? ms)
      (← field "result" string? ms))
  | .stop => some .stop

/-- A statement as a record. -/
def Statement.toJson (s : Statement) : Json :=
  .object (("id", .string s.id) :: ("line", .natural s.line)
    :: ("type", .string s.action.verb.name) :: s.action.members)

/-- Whether the members other than the id and the line can be read. -/
def othersFit (ms : List (String × Json)) : Bool :=
  membersFit roomInRecord (ms.filter (fun m => m.1 != "id" && m.1 != "line"))

/-- The statement of a record. -/
def Statement.ofJson? : Json → Option Statement
  | .object ms =>
    if othersFit ms then do
      let id ← field "id" string? ms
      let line ← field "line" natural? ms
      let verb ← field "type" (tag? Verb.all Verb.name) ms
      some ⟨id, line, ← Action.ofMembers? ms verb⟩
    else none
  | _ => none

/-- The fields that belong to a branch. -/
def Branch.members : Branch → List (String × Json)
  | .conditional condition => [("condition", .string condition)]
  | .perform target => [("target", .string target)]
  | .evaluate expression => [("expression", .string expression)]
  | .goTo target => [("target", .string target)]

/-- The branch with the verb whose fields stand among the members. -/
def Branch.ofMembers? (ms : List (String × Json)) : BranchVerb → Option Branch
  | .conditional => do some (.conditional (← field "condition" string? ms))
  | .perform => do some (.perform (← field "target" string? ms))
  | .evaluate => do some (.evaluate (← field "expression" string? ms))
  | .goTo => do some (.goTo (← field "target" string? ms))

/-- A branch as a record. -/
def ControlFlow.toJson (c : ControlFlow) : Json :=
  .object (("id", .string c.id) :: ("line", .natural c.line)
    :: ("type", .string c.branch.verb.name) :: c.branch.members)

/-- The branch of a record. -/
def ControlFlow.ofJson? : Json → Option ControlFlow
  | .object ms =>
    if othersFit ms then do
      let id ← field "id" string? ms
      let line ← field "line" natural? ms
      let verb ← field "type" (tag? BranchVerb.all BranchVerb.name) ms
      some ⟨id, line, ← Branch.ofMembers? ms verb⟩
    else none
  | _ => none

/-- A use of a file as a record. -/
def FileOperation.toJson (f : FileOperation) : Json :=
  .object [("operation", .string f.verb.keyword), ("line", .natural f.line)]

/-- The use of a file of a record. -/
def FileOperation.ofJson? (value : Json) : Option FileOperation := do
  match ← slots? false ["operation", "line"] value with
  | [operation, line] =>
    some ⟨← required (keyword? FileVerb.ofKeyword?) operation, ← required natural? line⟩
  | _ => none

/-- A call of a paragraph as a record. -/
def Perform.toJson (p : Perform) : Json :=
  .object [("id", .string p.id), ("target", .string p.target), ("line", .natural p.line)]

/-- The call of a paragraph of a record. -/
def Perform.ofJson? (value : Json) : Option Perform := do
  match ← slots? false ["id", "target", "line"] value with
  | [id, target, line] =>
    some ⟨← required string? id, ← required string? target, ← required natural? line⟩
  | _ => none

/-- The fields of an outline. -/
def outlineFields : List String :=
  ["program_info", "divisions", "variables", "paragraphs", "statements", "control_flow",
    "conditions", "file_operations", "performs", "warnings"]

/-- An outline as a record. -/
def Outline.toJson (o : Outline) : Json :=
  .object [("program_info", programInfoJson o.programId),
    ("divisions", o.divisions.toJson),
    ("variables", .ofList DataItem.toJson o.dataItems),
    ("paragraphs", .ofList Paragraph.toJson o.paragraphs),
    ("statements", .ofList Statement.toJson o.statements),
    ("control_flow", .ofList ControlFlow.toJson o.controlFlow),
    ("conditions", .ofList .string o.conditions),
    ("file_operations", .ofList FileOperation.toJson o.fileOperations),
    ("performs", .ofList Perform.toJson o.performs),
    ("warnings", .ofList .string o.warnings)]

/-- The outline of a record. -/
def Outline.ofJson? (value : Json) : Option Outline := do
  match ← slots? true outlineFields value with
  | [info, divisions, dataItems, paragraphs, statements, controlFlow, conditions,
      fileOperations, performs, warnings] =>
    some
      { programId := ← required programInfo? info
        divisions := ← required Divisions.ofJson? divisions
        dataItems := ← required (list? DataItem.ofJson?) dataItems
        paragraphs := ← required (list? Paragraph.ofJson?) paragraphs
        statements := ← required (list? Statement.ofJson?) statements
        controlFlow := ← required (list? ControlFlow.ofJson?) controlFlow
        conditions := ← required (list? string?) conditions
        fileOperations := ← required (list? FileOperation.ofJson?) fileOperations
        performs := ← required (list? Perform.ofJson?) performs
        warnings := ← required (list? string?) warnings }
  | _ => none

end Mainframe.Cobol
