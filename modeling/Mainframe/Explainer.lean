import Mainframe.Prompt

/-
  Explainers: functions that turn an outline into prose.

  The prompt explainer gives the prompt itself, and refuses an outline in
  another language than the one it is asked for.

  An explainer may also fail because it cannot write the outline as JSON text.
  Every outline can be written so, and an explainer that says otherwise says it
  in words, like any other failure of its own.

  What is proved:
    1. `prompt_language`: asked for the language of the outline, the prompt
       explainer gives the prompt.
-/

namespace Mainframe

/-- Why there is no explanation. -/
inductive ExplanationError where
  | languageMismatch (expected actual : Language)
  | backend (message : String)
  deriving DecidableEq, Repr

/-- The words of the error. -/
def ExplanationError.message : ExplanationError → String
  | languageMismatch expected actual => "IR is " ++ actual.name ++ ", expected " ++ expected.name
  | backend message => message

/-- A function from an outline and a language to an explanation. -/
abbrev Explainer := Outline → Language → Except ExplanationError String

/-- The explainer that gives the prompt. -/
def Explainer.prompt : Explainer
  | .cobol program, .cobol => .ok (Prompt.ofProgram program)
  | .jcl deck, .jcl => .ok (Prompt.ofDeck deck)
  | o, expected => .error (.languageMismatch expected o.language)

theorem Explainer.prompt_language (o : Outline) :
    Explainer.prompt o o.language = .ok (Prompt.ofOutline o) := by
  cases o <;> rfl

end Mainframe
