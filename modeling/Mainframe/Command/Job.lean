import Mainframe.Analysis
import Mainframe.Command.Arguments
import Mainframe.Report.Deck

/-
  Jobs: what a tool does with one text.

  A job reads one text, makes another one of it and writes that. The arguments
  of a tool decide the job before anything is read.
-/

namespace Mainframe.Command

/-- Where the text of a job comes from. -/
inductive Origin where
  | file (path : String)
  | standardInput
  deriving DecidableEq, Repr

/-- What is made of the text. -/
inductive Task where
  | extract (language : Option Language)
  | summarize
  | analyze (format : Format) (explain : Bool)
  deriving DecidableEq, Repr

/-- What a tool is to do. -/
structure Job where
  origin : Origin
  task : Task
  output : Option String
  deriving DecidableEq, Repr

/-- The name of the origin in a message. -/
def Origin.name : Origin → String
  | file path => path
  | standardInput => "stdin"

/-- The origin that a switch names, or else the standard input. -/
def Origin.ofSwitch : Option String → Origin
  | some path => .file path
  | none => .standardInput

/-- The job of a command of the suite. -/
def Subcommand.job? (command : Subcommand) (s : Settings) : Except Stop Job :=
  match command, s.file with
  | .parse, some file => .ok ⟨.file file, .extract s.language, none⟩
  | .summarize, _ => .ok ⟨.ofSwitch s.input, .summarize, s.output⟩
  | .analyze, some file =>
    .ok ⟨.file file, .analyze (s.format.getD .markdown) s.explain, s.output⟩
  | _, none => .error .usage

/-- The job of the extractor, which takes a source to be COBOL if no language
is given. -/
def extractorJob? (s : Settings) : Except Stop Job :=
  match s.file with
  | some file => .ok ⟨.file file, .extract (some (s.language.getD .cobol)), none⟩
  | none => .error .usage

/-- The job of the summarizer. -/
def summarizerJob (s : Settings) : Job := ⟨.ofSwitch s.input, .summarize, s.output⟩

/-- The job that the arguments of a tool ask for. -/
def Tool.job? (tool : Tool) (args : List String) : Except Stop Job :=
  match tool with
  | .suite => (scanSuite .initial args).bind (fun c => c.1.job? c.2)
  | .extractor => (scan extractorGrammar (.initial, none) args).bind extractorJob?
  | .summarizer => (scan summarizerGrammar (.initial, none) args).map summarizerJob

/-- Why a job fails on its text. -/
inductive TaskError where
  | undetected (name : String)
  | read (cause : ReadError)
  | analysis (cause : AnalysisError)
  | decode (cause : DecodeError)
  deriving DecidableEq, Repr

/-- The words for a text that is no outline. -/
def decodeMessage : DecodeError → String
  | .ended => "EOF while parsing a value"
  | .malformed => "malformed JSON text"
  | .shape => "data did not match any variant of untagged enum Ir"

/-- The words for a text that cannot be summarized. -/
def summarizeMessage (e : DecodeError) : String := "invalid IR JSON: " ++ decodeMessage e

/-- The error and its causes, in words. -/
def TaskError.messages : TaskError → List String
  | undetected name => ["could not detect language of " ++ name]
  | read cause => [cause.message]
  | analysis cause => [cause.message]
  | decode cause => [summarizeMessage cause, decodeMessage cause]

/-- The report on the outline whose JSON text this is. -/
def summarizeText (time : String) (text : String) : Except DecodeError String :=
  (Outline.ofText text).map (Report.ofOutline time)

/-- The JSON text of the outline of a source. -/
def extractText (name : String) (language : Option Language) (source : String) :
    Except TaskError String :=
  match language.or (detect source) with
  | none => .error (.undetected name)
  | some l =>
    match Outline.ofSource l source with
    | .ok o => .ok (o.toText .pretty ++ "\n")
    | .error e => .error (.read e)

/-- The section of a report that holds an explanation. -/
def explanationSection : Option String → String
  | some text => "\n## Explanation\n\n" ++ text ++ "\n"
  | none => ""

/-- The text of an analysis in a form. -/
def analysisText (time : String) (a : Analysis) : Format → String
  | .json => a.toJson.text .pretty ++ "\n"
  | .markdown => Report.ofOutline time a.outline ++ explanationSection a.explanation

/-- What a task makes of the text that comes from the named origin. -/
def Task.apply (time : String) (name : String) (text : String) : Task → Except TaskError String
  | extract language => extractText name language text
  | summarize => (summarizeText time text).mapError .decode
  | analyze format explain =>
    match Analysis.analyze text (if explain then some Explainer.prompt else none) with
    | .ok a => .ok (analysisText time a format)
    | .error e => .error (.analysis e)

end Mainframe.Command
