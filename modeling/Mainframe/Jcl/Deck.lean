import Mainframe.ReadError
import Mainframe.Jcl.Card

/-
  The outline of a job deck.

  The cards are read from top to bottom. A JOB card replaces the job that has
  been read before it. An EXEC card opens a step. A DD card goes to the step
  that has been opened last, and its dataset to the datasets of the deck; in
  front of the first EXEC card it belongs to no step and is passed over.

  A deck without an EXEC card has no outline, and one without a JOB card has a
  warning.
-/

namespace Mainframe.Jcl

open Mainframe.Text

/-- The step with one more data definition. -/
def Step.addDefinition (step : Step) (d : DataDefinition) : Step :=
  { step with definitions := step.definitions ++ [d] }

namespace Outline

/-- The outline with one more data definition in its last step. -/
def addDefinition (o : Outline) (d : DataDefinition) : Outline :=
  match o.steps.getLast? with
  | none => o
  | some step =>
    { o with
      steps := o.steps.dropLast ++ [step.addDefinition d]
      datasets := o.datasets ++ d.dataset.toList }

/-- The outline with one more card read. -/
def addCard (o : Outline) (card : List Char) : Outline :=
  match cardKind card with
  | .job => { o with job := some (Job.ofCard card) }
  | .exec => { o with steps := o.steps ++ [Step.ofCard card] }
  | .dd => o.addDefinition (DataDefinition.ofCard card)
  | .ignored => o

/-- What the cards say, from top to bottom. -/
def ofCards (cards : List (List Char)) : Outline := cards.foldl addCard empty

/-- The outline with a warning if it has no job, unless it has no step. -/
def checked (o : Outline) : Except ReadError Outline :=
  if o.steps.isEmpty then .error .noExecSteps
  else .ok (if o.job.isNone then { o with warnings := o.warnings ++ [noJobWarning] } else o)

end Outline

/-- The outline of a deck. -/
def outline (deck : String) : Except ReadError Outline :=
  (Outline.ofCards (cards deck.toList)).checked

end Mainframe.Jcl
