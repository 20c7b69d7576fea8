import Mainframe.Cobol.Outline
import Mainframe.Cobol.Wire
import Mainframe.Tally

/-
  The summary of a COBOL outline: how much of each kind there is.
-/

namespace Mainframe

/-- What is counted in a COBOL outline. -/
structure Summary where
  programId : String
  divisions : List Cobol.Division
  dataItems : Nat
  statements : Nat
  statementTypes : Tally
  conditions : Nat
  conditionals : Nat
  performStatements : Nat
  evaluates : Nat
  goTos : Nat
  fileOperations : Nat
  fileOperationTypes : Tally
  paragraphs : Nat
  performs : Nat
  warnings : List String
  deriving DecidableEq

namespace Summary

open Json

/-- How many of the branches have the verb. -/
def countBranches (verb : Cobol.BranchVerb) (branches : List Cobol.ControlFlow) : Nat :=
  branches.countP (fun c => c.branch.verb == verb)

/-- The summary of an outline. -/
def ofOutline (o : Cobol.Outline) : Summary :=
  { programId := o.displayName
    divisions := o.divisions.present
    dataItems := o.dataItems.length
    statements := o.statements.length
    statementTypes := .ofNames (o.statements.map (fun s => s.action.verb.name))
    conditions := o.conditions.length
    conditionals := countBranches .conditional o.controlFlow
    performStatements := countBranches .perform o.controlFlow
    evaluates := countBranches .evaluate o.controlFlow
    goTos := countBranches .goTo o.controlFlow
    fileOperations := o.fileOperations.length
    fileOperationTypes := .ofNames (o.fileOperations.map (fun f => f.verb.keyword))
    paragraphs := o.paragraphs.length
    performs := o.performs.length
    warnings := o.warnings }

/-- The fields of a summary. -/
def fields : List String :=
  ["program_id", "divisions_present", "total_variables", "total_statements", "statement_types",
    "total_conditions", "if_statements", "perform_statements", "evaluate_statements",
    "goto_statements", "total_file_operations", "file_operation_types", "total_paragraphs",
    "total_performs", "warnings"]

/-- A summary as a record. -/
def toJson (s : Summary) : Json :=
  .object [("program_id", .string s.programId),
    ("divisions_present", .ofList (fun d => .string d.key) s.divisions),
    ("total_variables", .natural s.dataItems),
    ("total_statements", .natural s.statements),
    ("statement_types", s.statementTypes.toJson),
    ("total_conditions", .natural s.conditions),
    ("if_statements", .natural s.conditionals),
    ("perform_statements", .natural s.performStatements),
    ("evaluate_statements", .natural s.evaluates),
    ("goto_statements", .natural s.goTos),
    ("total_file_operations", .natural s.fileOperations),
    ("file_operation_types", s.fileOperationTypes.toJson),
    ("total_paragraphs", .natural s.paragraphs),
    ("total_performs", .natural s.performs),
    ("warnings", .ofList .string s.warnings)]

/-- The summary of a record. -/
def ofJson? (value : Json) : Option Summary := do
  match ← slots? false fields value with
  | [programId, divisions, dataItems, statements, statementTypes, conditions, conditionals,
      performStatements, evaluates, goTos, fileOperations, fileOperationTypes, paragraphs,
      performs, warnings] =>
    some
      { programId := ← required string? programId
        divisions := ← required (list? (keyword? Cobol.Division.ofKey?)) divisions
        dataItems := ← required natural? dataItems
        statements := ← required natural? statements
        statementTypes := ← required Tally.ofJson? statementTypes
        conditions := ← required natural? conditions
        conditionals := ← required natural? conditionals
        performStatements := ← required natural? performStatements
        evaluates := ← required natural? evaluates
        goTos := ← required natural? goTos
        fileOperations := ← required natural? fileOperations
        fileOperationTypes := ← required Tally.ofJson? fileOperationTypes
        paragraphs := ← required natural? paragraphs
        performs := ← required natural? performs
        warnings := ← required (list? string?) warnings }
  | _ => none

end Summary

end Mainframe
