import Mainframe.Language

/-
  The arguments of the three command-line tools.

  Arguments are read from left to right, and the first thing that is wrong, or
  the first request for the version or for help, decides. A switch may be given
  once. The value of a switch is attached to it or is the next argument, which
  then must not look like a switch; a single hyphen does not. After two hyphens
  every argument is a file.

  The suite takes a command behind its own switches; the other two tools are
  one command each. In place of a command the suite can be asked for help, on a
  command or on itself. What a tool says as its help is not laid down here.
-/

namespace Mainframe.Command

/-- A command-line tool. -/
inductive Tool where
  | suite
  | extractor
  | summarizer
  deriving DecidableEq, Repr

/-- What a tool says when asked for its version. -/
def Tool.version : Tool → String
  | suite => "legacysleuth 0.1.0"
  | extractor => "legacysleuth-parser 0.1.0"
  | summarizer => "legacysleuth-summarizer 0.1.0"

/-- The name under which a tool is called. -/
def Tool.programName : Tool → String
  | suite => "legacysleuth"
  | extractor => "legacysleuth-parse"
  | summarizer => "legacysleuth-summarize"

/-- The tool that is called by the name. -/
def Tool.ofProgramName? (name : String) : Option Tool :=
  [suite, extractor, summarizer].find? (fun t => t.programName == name)

/-- The line that says how a tool is called. -/
def Tool.usage (tool : Tool) : String := "usage: " ++ tool.programName ++ " [arguments]\n"

/-- The form in which an analysis is written. -/
inductive Format where
  | json
  | markdown
  deriving DecidableEq, Repr

/-- The form that has the name. -/
def Format.ofName? (name : String) : Option Format :=
  if name = "json" then some .json else if name = "markdown" then some .markdown else none

/-- What a switch is about. -/
inductive Topic where
  | input
  | output
  | language
  | format
  | explain
  | verbose
  | debug
  | version
  | help
  deriving DecidableEq, Repr

/-- How a switch is written, and whether it takes a value. -/
structure Switch where
  topic : Topic
  long : String
  short : Option Char
  takesValue : Bool
  deriving DecidableEq, Repr

/-- What a command accepts. -/
structure Grammar where
  switches : List Switch
  takesFile : Bool
  acceptsEmptyFile : Bool

/-- Where the text comes from. -/
def inputSwitch : Switch := ⟨.input, "input", some 'i', true⟩

/-- Where the result goes. -/
def outputSwitch : Switch := ⟨.output, "output", some 'o', true⟩

/-- Which language the source is in. -/
def languageSwitch : Switch := ⟨.language, "language", some 'l', true⟩

/-- Which form the result has. -/
def formatSwitch : Switch := ⟨.format, "format", none, true⟩

/-- Whether the result is explained. -/
def explainSwitch : Switch := ⟨.explain, "explain", none, false⟩

/-- Whether more is logged. -/
def verboseSwitch (short : Option Char) : Switch := ⟨.verbose, "verbose", short, false⟩

/-- Whether everything is logged. -/
def debugSwitch : Switch := ⟨.debug, "debug", none, false⟩

/-- Which version this is. -/
def versionSwitch : Switch := ⟨.version, "version", some 'V', false⟩

/-- How the command is called. -/
def helpSwitch : Switch := ⟨.help, "help", some 'h', false⟩

/-- A command of the suite. -/
inductive Subcommand where
  | parse
  | summarize
  | analyze
  deriving DecidableEq, Repr

/-- The command that has the name. -/
def Subcommand.ofName? (name : String) : Option Subcommand :=
  if name = "parse" then some .parse
  else if name = "summarize" then some .summarize
  else if name = "analyze" then some .analyze
  else none

/-- What the suite accepts in front of a command. -/
def suiteGrammar : Grammar :=
  ⟨[verboseSwitch none, debugSwitch, versionSwitch, helpSwitch], false, true⟩

/-- What a command of the suite accepts. -/
def Subcommand.grammar : Subcommand → Grammar
  | parse => ⟨[languageSwitch, verboseSwitch none, debugSwitch, helpSwitch], true, true⟩
  | summarize =>
    ⟨[inputSwitch, outputSwitch, verboseSwitch none, debugSwitch, helpSwitch], false, true⟩
  | analyze =>
    ⟨[outputSwitch, formatSwitch, explainSwitch, verboseSwitch none, debugSwitch, helpSwitch],
      true, true⟩

/-- What the extractor accepts. -/
def extractorGrammar : Grammar :=
  ⟨[languageSwitch, verboseSwitch none, versionSwitch, helpSwitch], true, false⟩

/-- What the summarizer accepts. -/
def summarizerGrammar : Grammar :=
  ⟨[inputSwitch, outputSwitch, verboseSwitch (some 'v'), debugSwitch, versionSwitch, helpSwitch],
    false, true⟩

/-- What has been asked for. -/
structure Settings where
  given : List Topic
  file : Option String
  input : Option String
  output : Option String
  language : Option Language
  format : Option Format
  explain : Bool
  deriving DecidableEq, Repr

/-- Nothing has been asked for. -/
def Settings.initial : Settings := ⟨[], .none, .none, .none, .none, .none, false⟩

/-- Why reading the arguments stops. -/
inductive Stop where
  | usage
  | version
  | help
  deriving DecidableEq, Repr

/-- How one argument is written. -/
inductive Argument where
  | escape
  | long (name : String) (value : Option String)
  | short (letters : List Char)
  | plain (text : String)
  deriving DecidableEq, Repr

/-- How the argument is written. -/
def Argument.ofString (a : String) : Argument :=
  match a.toList with
  | ['-', '-'] => .escape
  | '-' :: '-' :: s =>
    let name := String.ofList (s.takeWhile (fun c => c != '='))
    match s.dropWhile (fun c => c != '=') with
    | [] => .long name none
    | _ :: value => .long name (some (String.ofList value))
  | '-' :: c :: s => .short (c :: s)
  | _ => .plain a

/-- The settings once a switch has been given, with its value if it takes one. -/
def Settings.give (s : Settings) (topic : Topic) (value : String) : Except Stop Settings :=
  if s.given.contains topic then .error .usage
  else
    let s := { s with given := topic :: s.given }
    match topic with
    | .input => .ok { s with input := some value }
    | .output => .ok { s with output := some value }
    | .language =>
      match Language.ofUser value with
      | .ok l => .ok { s with language := some l }
      | .error _ => .error .usage
    | .format =>
      match Format.ofName? value with
      | some f => .ok { s with format := some f }
      | none => .error .usage
    | .explain => .ok { s with explain := true }
    | .verbose | .debug => .ok s
    | .version => .error .version
    | .help => .error .help

/-- The settings once a file has been given. -/
def Settings.giveFile (s : Settings) (g : Grammar) (file : String) : Except Stop Settings :=
  if g.takesFile && s.file.isNone && (g.acceptsEmptyFile || file != "") then
    .ok { s with file := some file }
  else .error .usage

/-- The settings behind an argument, and the switch that still lacks its value. -/
abbrev Progress := Settings × Option Topic

/-- A switch in its long form. -/
def giveLong (g : Grammar) (s : Settings) (name : String) (value : Option String) :
    Except Stop Progress :=
  match g.switches.find? (fun w => w.long == name), value with
  | none, _ => .error .usage
  | some w, some v =>
    if w.takesValue then (s.give w.topic v).map (fun s => (s, none)) else .error .usage
  | some w, none =>
    if w.takesValue then .ok (s, some w.topic)
    else (s.give w.topic "").map (fun s => (s, none))

/-- Switches in their short form, one letter after another. The rest of the
letters is the value of the first switch that takes one. -/
def giveShort (g : Grammar) (s : Settings) : List Char → Except Stop Progress
  | [] => .ok (s, none)
  | c :: letters =>
    match g.switches.find? (fun w => w.short == some c) with
    | none => .error .usage
    | some w =>
      if w.takesValue then
        match letters with
        | [] => .ok (s, some w.topic)
        | '=' :: value => (s.give w.topic (String.ofList value)).map (fun s => (s, none))
        | value => (s.give w.topic (String.ofList value)).map (fun s => (s, none))
      else
        match s.give w.topic "" with
        | .ok s => giveShort g s letters
        | .error stop => .error stop

/-- One argument of a command. -/
def giveArgument (g : Grammar) (s : Settings) (pending : Option Topic) (a : String) :
    Except Stop Progress :=
  match pending, Argument.ofString a with
  | some topic, .plain value => (s.give topic value).map (fun s => (s, none))
  | some _, _ => .error .usage
  | none, .long name value => giveLong g s name value
  | none, .short letters => giveShort g s letters
  | none, .plain file => (s.giveFile g file).map (fun s => (s, none))
  | none, .escape => .ok (s, none)

/-- The files behind two hyphens. -/
def scanFiles (g : Grammar) (s : Settings) (files : List String) : Except Stop Settings :=
  files.foldlM (fun s file => s.giveFile g file) s

/-- The arguments of a command. -/
def scan (g : Grammar) : Progress → List String → Except Stop Settings
  | (s, none), [] => .ok s
  | (_, some _), [] => .error .usage
  | (s, pending), a :: rest =>
    if pending.isNone && a == "--" then scanFiles g s rest
    else
      match giveArgument g s pending a with
      | .ok progress => scan g progress rest
      | .error stop => .error stop

/-- Why reading stops where the suite is asked for help on what is named. There
is help on the suite, on each of its commands, and on asking for help. -/
def Stop.ofHelp : List String → Stop
  | [] => .help
  | [name] => if name = "help" || (Subcommand.ofName? name).isSome then .help else .usage
  | _ => .usage

/-- The arguments of the suite: its own switches, a command, and the arguments
of the command. -/
def scanSuite (s : Settings) : List String → Except Stop (Subcommand × Settings)
  | [] => .error .usage
  | a :: rest =>
    match Argument.ofString a with
    | .escape => .error .usage
    | .plain name =>
      match Subcommand.ofName? name with
      | some command =>
        (scan command.grammar (.initial, none) rest).map (fun s => (command, s))
      | none => .error (if name = "help" then .ofHelp rest else .usage)
    | _ =>
      match giveArgument suiteGrammar s none a with
      | .ok progress => scanSuite progress.1 rest
      | .error stop => .error stop

/-- Help is asked for by a switch or by name, and a switch in front of it must
have its value. -/
example :
    scanSuite .initial ["--debug", "help", "parse"] = .error .help ∧
    scanSuite .initial ["help", "parse", "-h"] = .error .usage ∧
    scanSuite .initial ["summarize", "-o", "out.md", "-h"] = .error .help ∧
    scanSuite .initial ["summarize", "-o", "-h"] = .error .usage :=
  ⟨rfl, rfl, rfl, rfl⟩

end Mainframe.Command
