import Mainframe.Cobol.Extraction
import Mainframe.Cobol.Wire
import Mainframe.Jcl.Deck
import Mainframe.Jcl.Wire
import Mainframe.Json.Printer
import Mainframe.Json.Reader
import Mainframe.Language

/-
  The outline of a source in either language, and its JSON text.

  JSON text carries no mark of the language. A text is decoded by its shape,
  and the shape of a job deck is tried first. The first value of the text has
  to be well formed, then it has to have one of the two shapes, and then
  nothing but blanks may follow it.
-/

namespace Mainframe

/-- The outline of a source. -/
inductive Outline where
  | cobol (program : Cobol.Outline)
  | jcl (deck : Jcl.Outline)
  deriving DecidableEq, Repr

/-- Why a JSON text is no outline. -/
inductive DecodeError where
  | ended
  | malformed
  | shape
  deriving DecidableEq, Repr

namespace Outline

/-- The language of the outlined source. -/
def language : Outline → Language
  | cobol _ => .cobol
  | jcl _ => .jcl

/-- The warnings in the outline. -/
def warnings : Outline → List String
  | cobol program => program.warnings
  | jcl deck => deck.warnings

/-- The outline that says nothing about a source in the language. -/
def empty : Language → Outline
  | .cobol => .cobol .empty
  | .jcl => .jcl .empty

/-- The outline of a source in the language. -/
def ofSource (language : Language) (source : String) : Except ReadError Outline :=
  match language with
  | .cobol => .ok (.cobol (Cobol.outline source))
  | .jcl => (Jcl.outline source).map .jcl

/-- The JSON form of an outline. -/
def toJson : Outline → Json
  | cobol program => program.toJson
  | jcl deck => deck.toJson

/-- The outline whose shape the value has. -/
def ofJson? (value : Json) : Option Outline :=
  match Jcl.Outline.ofJson? value with
  | some deck => some (.jcl deck)
  | none => (Cobol.Outline.ofJson? value).map .cobol

/-- The JSON text of an outline. -/
def toText (layout : Json.Layout) (o : Outline) : String := o.toJson.text layout

/-- The outline whose JSON text this is. -/
def ofText (text : String) : Except DecodeError Outline :=
  match Json.read .strict text with
  | .error .ended => .error .ended
  | .error .malformed => .error .malformed
  | .ok reading =>
    match ofJson? reading.value with
    | none => .error .shape
    | some o => if reading.isClean then .ok o else .error .malformed

end Outline

end Mainframe
