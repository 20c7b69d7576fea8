import Mainframe.Json.Record
import Mainframe.Jcl.Outline

/-
  The JSON form of a job deck's outline.

  Members stand in the order of the fields; what is absent is null, except for
  the job, which is then an empty object. An outline is closed: it has all of
  its fields and no others.

  A job is read as follows: null is no job, the record of a job is that job,
  and any other object is no job.
-/

namespace Mainframe.Jcl

open Mainframe.Json

/-- How deep the value of the job may be. -/
def roomInJob : Nat := 126

/-- A job as a record. -/
def Job.toJson (j : Job) : Json :=
  .object [("name", .string j.name), ("class", .ofOption .string j.jobClass),
    ("msgclass", .ofOption .string j.messageClass), ("notify", .ofOption .string j.notify),
    ("raw", .string j.raw)]

/-- The job of a record. -/
def Job.ofJson? (value : Json) : Option Job := do
  match ← slots? false ["name", "class", "msgclass", "notify", "raw"] value with
  | [name, jobClass, messageClass, notify, raw] =>
    some ⟨← required string? name, ← optional string? jobClass, ← optional string? messageClass,
      ← optional string? notify, ← required string? raw⟩
  | _ => none

/-- The job, or an empty object if there is none. -/
def jobJson : Option Job → Json
  | some job => job.toJson
  | none => .object []

/-- The job that a value other than null stands for. -/
def jobOrNone? (value : Json) : Option (Option Job) :=
  match Job.ofJson? value, value with
  | some job, _ => some (some job)
  | none, .object _ => some none
  | none, _ => none

/-- The job that the value stands for, if it stands for one or for none. -/
def job? (value : Json) : Option (Option Job) :=
  if fits roomInJob value then
    match value with
    | .null => some none
    | value => jobOrNone? value
  else none

/-- A data definition as a record. -/
def DataDefinition.toJson (d : DataDefinition) : Json :=
  .object [("name", .string d.name), ("dsn", .ofOption .string d.dataset),
    ("disp", .ofOption .string d.disposition), ("type", .string d.kind.name),
    ("raw", .string d.raw)]

/-- The data definition of a record. -/
def DataDefinition.ofJson? (value : Json) : Option DataDefinition := do
  match ← slots? false ["name", "dsn", "disp", "type", "raw"] value with
  | [name, dataset, disposition, kind, raw] =>
    some ⟨← required string? name, ← optional string? dataset, ← optional string? disposition,
      ← required (keyword? DataKind.ofName?) kind, ← required string? raw⟩
  | _ => none

/-- A step as a record. -/
def Step.toJson (s : Step) : Json :=
  .object [("name", .string s.name), ("program", .ofOption .string s.program),
    ("procedure", .ofOption .string s.procedure), ("cond", .ofOption .string s.condition),
    ("dds", .ofList DataDefinition.toJson s.definitions), ("raw", .string s.raw)]

/-- The step of a record. -/
def Step.ofJson? (value : Json) : Option Step := do
  match ← slots? false ["name", "program", "procedure", "cond", "dds", "raw"] value with
  | [name, program, procedure, condition, definitions, raw] =>
    some ⟨← required string? name, ← optional string? program, ← optional string? procedure,
      ← optional string? condition, ← required (list? DataDefinition.ofJson?) definitions,
      ← required string? raw⟩
  | _ => none

/-- The fields of an outline. -/
def outlineFields : List String := ["job", "steps", "datasets", "warnings"]

/-- An outline as a record. -/
def Outline.toJson (o : Outline) : Json :=
  .object [("job", jobJson o.job), ("steps", .ofList Step.toJson o.steps),
    ("datasets", .ofList .string o.datasets), ("warnings", .ofList .string o.warnings)]

/-- The outline of a record. -/
def Outline.ofJson? (value : Json) : Option Outline := do
  match ← slots? true outlineFields value with
  | [job, steps, datasets, warnings] =>
    some
      { job := ← required job? job
        steps := ← required (list? Step.ofJson?) steps
        datasets := ← required (list? string?) datasets
        warnings := ← required (list? string?) warnings }
  | _ => none

end Mainframe.Jcl
