import Mainframe.Detection
import Mainframe.Explainer
import Mainframe.Summary

/-
  The analysis of a source: its outline, a summary and an explanation.

  Only programs are summarized. An explainer that fails does not fail the
  analysis: its error becomes the explanation.

  What is proved:
    1. `explanation_ofOutline_prompt`: what the prompt explainer explains is its
       prompt, without the blanks around it.
-/

namespace Mainframe

/-- What is known about a source. -/
structure Analysis where
  language : Language
  outline : Outline
  summary : Option Summary
  explanation : Option String
  deriving DecidableEq

/-- Why a source cannot be analyzed. -/
inductive AnalysisError where
  | emptyInput
  | unknownLanguage
  | read (cause : ReadError)
  deriving DecidableEq, Repr

/-- The words of the error. -/
def AnalysisError.message : AnalysisError → String
  | emptyInput | unknownLanguage => "Please enter COBOL or JCL code."
  | read cause => cause.message

namespace Analysis

open Json

/-- The summary of an outline, if it is a program's. -/
def summaryOf : Outline → Option Summary
  | .cobol program => some (.ofOutline program)
  | .jcl _ => none

/-- What the analysis says for what an explainer gave. -/
def explanationOf (language : Language) : Except ExplanationError String → String
  | .ok text => String.ofList (Text.trim text.toList)
  | .error e =>
    "ERROR: Failed to generate " ++ language.title ++ " explanation: " ++ e.message

/-- The analysis of an outline. -/
def ofOutline (language : Language) (o : Outline) (explainer : Option Explainer) : Analysis :=
  { language := language
    outline := o
    summary := summaryOf o
    explanation := explainer.map (fun explain => explanationOf language (explain o language)) }

/-- The explanation of an outline by its prompt. -/
theorem explanation_ofOutline_prompt (o : Outline) :
    (ofOutline o.language o (some .prompt)).explanation =
      some (String.ofList (Text.trim (Prompt.ofOutline o).toList)) := by
  show some (explanationOf o.language (Explainer.prompt o o.language)) = _
  rw [Explainer.prompt_language]
  rfl

/-- The analysis of a source in the language. -/
def ofSource (source : String) (language : Language) (explainer : Option Explainer) :
    Except AnalysisError Analysis :=
  match Outline.ofSource language source with
  | .ok o => .ok (ofOutline language o explainer)
  | .error e => .error (.read e)

/-- The analysis of a source in the language that it seems to be written in. -/
def analyze (source : String) (explainer : Option Explainer) : Except AnalysisError Analysis :=
  if Text.allBlank source.toList then .error .emptyInput
  else
    match detect source with
    | none => .error .unknownLanguage
    | some language => ofSource source language explainer

/-- The fields of an analysis. -/
def fields : List String := ["language", "intermediate_representation", "analysis", "explanation"]

/-- How deep the value of the outline may be in the record of an analysis. -/
def roomInOutline : Nat := 126

/-- An analysis as a record. -/
def toJson (a : Analysis) : Json :=
  .object [("language", .string a.language.name),
    ("intermediate_representation", a.outline.toJson),
    ("analysis", .ofOption Summary.toJson a.summary),
    ("explanation", .ofOption .string a.explanation)]

/-- The outline that stands in the record of an analysis. -/
def outlineField? (value : Json) : Option Outline :=
  if fits roomInOutline value then Outline.ofJson? value else none

/-- The analysis of a record. -/
def ofJson? (value : Json) : Option Analysis := do
  match ← slots? false fields value with
  | [language, o, summary, explanation] =>
    some
      { language := ← required (keyword? Language.ofName?) language
        outline := ← required outlineField? o
        summary := ← optional Summary.ofJson? summary
        explanation := ← optional string? explanation }
  | _ => none

end Analysis

end Mainframe
