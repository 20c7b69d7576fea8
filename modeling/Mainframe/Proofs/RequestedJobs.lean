import Mainframe.Command.Run

/-
  What short command lines ask for, and what comes of it.

  A short command line is the name of a command, a file, and one switch at
  most. The file is any argument that is not written like a switch. A run that
  writes to the standard output leaves the files as they were, and it ends with
  zero if and only if its task makes a text.

  What is proved:
    1. `scan_cons`, `scan_file` and `scan_value`: the arguments of a command,
       one after another.
    2. `job?_parse`, `job?_analyze` and `AsksForReport.job?`: the jobs that the
       command lines ask for.
    3. `run_eq_success` and `code_run_eq_zero_iff`: the outcome of a run that
       writes to the standard output.
-/

namespace Mainframe.Command

/-- The argument is not written like a switch. -/
def IsPlain (a : String) : Prop := Argument.ofString a = .plain a

instance (a : String) : Decidable (IsPlain a) :=
  inferInstanceAs (Decidable (Argument.ofString a = .plain a))

/-! ## One argument after another -/

section
variable {g : Grammar} {s s' : Settings} {pending : Option Topic} {progress : Progress}
  {a : String} {rest : List String}

theorem beq_hyphens_eq_false (h : Argument.ofString a ≠ .escape) : (a == "--") = false := by
  rw [beq_eq_false_iff_ne]
  rintro rfl
  exact h rfl

/-- An argument that is taken and does not turn all others into files. -/
theorem scan_cons (hescape : Argument.ofString a ≠ .escape)
    (hgiven : giveArgument g s pending a = .ok progress) :
    scan g (s, pending) (a :: rest) = scan g progress rest := by
  rw [scan, beq_hyphens_eq_false hescape, Bool.and_false, hgiven]
  rfl

theorem IsPlain.ne_escape (h : IsPlain a) : Argument.ofString a ≠ .escape := by
  rw [h]
  exact Argument.noConfusion

theorem scan_file (hplain : IsPlain a) (hgiven : s.giveFile g a = .ok s') :
    scan g (s, none) (a :: rest) = scan g (s', none) rest := by
  have hwritten : Argument.ofString a = .plain a := hplain
  apply scan_cons hplain.ne_escape
  simp only [giveArgument, hwritten, hgiven, Except.map]

theorem scan_value {topic : Topic} (hplain : IsPlain a) (hgiven : s.give topic a = .ok s') :
    scan g (s, some topic) (a :: rest) = scan g (s', none) rest := by
  have hwritten : Argument.ofString a = .plain a := hplain
  apply scan_cons hplain.ne_escape
  simp only [giveArgument, hwritten, hgiven, Except.map]

/-- The command of the suite reads all arguments that stand behind its name. -/
theorem scanSuite_command {command : Subcommand} (hplain : IsPlain a)
    (hname : Subcommand.ofName? a = some command) :
    scanSuite s (a :: rest) =
      (scan command.grammar (.initial, none) rest).map (fun s => (command, s)) := by
  have hwritten : Argument.ofString a = .plain a := hplain
  simp only [scanSuite, hwritten, hname]

end

/-! ## Command lines -/

section
variable {file : String} (hfile : IsPlain file)
include hfile

theorem job?_parse : Tool.suite.job? ["parse", file] = .ok ⟨.file file, .extract none, none⟩ := by
  have hscan : scan Subcommand.parse.grammar (.initial, none) [file] =
      .ok { Settings.initial with file := some file } := scan_file hfile rfl
  have hname : Subcommand.ofName? "parse" = some .parse := rfl
  rw [Tool.job?, scanSuite_command (by decide) hname, hscan]
  rfl

/-- The settings of an analysis are those that its file and its switches give. -/
theorem job?_analyze {switches : List String} {s : Settings}
    (hswitches : scan Subcommand.analyze.grammar
      ({ Settings.initial with file := some file }, none) switches = .ok s)
    (hkept : s.file = some file) :
    Tool.suite.job? ("analyze" :: file :: switches) =
      .ok ⟨.file file, .analyze (s.format.getD .markdown) s.explain, s.output⟩ := by
  have hscan : scan Subcommand.analyze.grammar (.initial, none) (file :: switches) = .ok s :=
    (scan_file hfile rfl).trans hswitches
  have hjob : Subcommand.analyze.job? s =
      .ok ⟨.file file, .analyze (s.format.getD .markdown) s.explain, s.output⟩ := by
    simp only [Subcommand.job?, hkept]
  have hname : Subcommand.ofName? "analyze" = some .analyze := rfl
  rw [Tool.job?, scanSuite_command (by decide) hname, hscan]
  exact hjob

theorem job?_analyze_markdown :
    Tool.suite.job? ["analyze", file] = .ok ⟨.file file, .analyze .markdown false, none⟩ := by
  have hscan : scan Subcommand.analyze.grammar
      ({ Settings.initial with file := some file }, none) [] =
        .ok { Settings.initial with file := some file } := rfl
  exact job?_analyze hfile hscan rfl

theorem job?_analyze_explain :
    Tool.suite.job? ["analyze", file, "--explain"] =
      .ok ⟨.file file, .analyze .markdown true, none⟩ := by
  let given : Settings := { Settings.initial with file := some file }
  let settled : Settings := { given with given := [.explain], explain := true }
  have hscan : scan Subcommand.analyze.grammar (given, none) ["--explain"] = .ok settled :=
    calc scan Subcommand.analyze.grammar (given, none) ["--explain"]
      _ = scan Subcommand.analyze.grammar (settled, none) [] := scan_cons (by decide) rfl
      _ = .ok settled := rfl
  exact job?_analyze hfile hscan rfl

theorem job?_analyze_json :
    Tool.suite.job? ["analyze", file, "--format", "json"] =
      .ok ⟨.file file, .analyze .json false, none⟩ := by
  let given : Settings := { Settings.initial with file := some file }
  let settled : Settings := { given with given := [.format], format := some .json }
  have hscan : scan Subcommand.analyze.grammar (given, none) ["--format", "json"] = .ok settled :=
    calc scan Subcommand.analyze.grammar (given, none) ["--format", "json"]
      _ = scan Subcommand.analyze.grammar (given, some .format) ["json"] :=
        scan_cons (by decide) rfl
      _ = scan Subcommand.analyze.grammar (settled, none) [] := scan_value (by decide) rfl
      _ = .ok settled := rfl
  exact job?_analyze hfile hscan rfl

end

/-- The arguments that ask a tool for the report on an outline, which it reads
from the origin and prints. -/
inductive AsksForReport : Tool → List String → Origin → Prop where
  | suiteInput : AsksForReport .suite ["summarize"] .standardInput
  | suiteFile {path : String} (hpath : IsPlain path) :
      AsksForReport .suite ["summarize", "-i", path] (.file path)
  | summarizerInput : AsksForReport .summarizer [] .standardInput
  | summarizerFile {path : String} (hpath : IsPlain path) :
      AsksForReport .summarizer ["-i", path] (.file path)

/-- A command that has an input switch takes its value for the origin. -/
theorem scan_input {g : Grammar}
    (hswitch : giveArgument g .initial none "-i" = .ok (.initial, some .input)) {path : String}
    (hpath : IsPlain path) :
    scan g (.initial, none) ["-i", path] =
      .ok { Settings.initial with given := [.input], input := some path } :=
  calc scan g (.initial, none) ["-i", path]
    _ = scan g (.initial, some .input) [path] := scan_cons (by decide) hswitch
    _ = scan g ({ Settings.initial with given := [.input], input := some path }, none) [] :=
      scan_value hpath rfl
    _ = .ok { Settings.initial with given := [.input], input := some path } := rfl

theorem AsksForReport.job? {tool : Tool} {args : List String} {origin : Origin}
    (h : AsksForReport tool args origin) : tool.job? args = .ok ⟨origin, .summarize, none⟩ := by
  cases h with
  | suiteInput => rfl
  | suiteFile hpath =>
    have hname : Subcommand.ofName? "summarize" = some .summarize := rfl
    rw [Tool.job?, scanSuite_command (by decide) hname, scan_input rfl hpath]
    rfl
  | summarizerInput => rfl
  | summarizerFile hpath =>
    rw [Tool.job?, scan_input rfl hpath]
    rfl

/-! ## Outcomes -/

section
variable {σ : Type} [FileSystem σ]

theorem Job.result_eq_ok_iff {j : Job} {time text : String} {w : σ} :
    j.result time w = .ok text ↔
      ∃ source, j.origin.read w = .ok source ∧
        j.task.apply time j.origin.name source = .ok text := by
  rw [result]
  constructor
  · intro h
    split at h
    next => cases h
    next source hread =>
      cases htext : j.task.apply time j.origin.name source with
      | error cause =>
        rw [htext] at h
        cases h
      | ok other =>
        rw [htext] at h
        exact ⟨source, hread, htext.trans (congrArg Except.ok (Except.ok.inj h))⟩
  · rintro ⟨source, hread, htext⟩
    simp only [hread, htext]
    rfl

variable {tool : Tool} {args : List String} {origin : Origin} {task : Task}
  (hjob : tool.job? args = .ok ⟨origin, task, none⟩) (time : String) {w : σ}
include hjob

theorem run_eq_success {source text : String} (hread : origin.read w = .ok source)
    (htext : task.apply time origin.name source = .ok text) :
    tool.run time args w = .success w text := by
  have hresult : (Job.mk origin task none).result time w = .ok text :=
    Job.result_eq_ok_iff.2 ⟨source, hread, htext⟩
  simp only [Tool.run, hjob, Job.run, hresult]

/-- A run that prints ends with zero if there is a text at its origin and the
task makes something of it, and only then. -/
theorem code_run_eq_zero_iff :
    (tool.run time args w).code = 0 ↔
      ∃ source, origin.read w = .ok source ∧
        ∃ text, task.apply time origin.name source = .ok text := by
  constructor
  · intro hcode
    cases hresult : (Job.mk origin task none).result time w with
    | error cause =>
      simp only [Tool.run, hjob, Job.run, hresult] at hcode
      cases hcode
    | ok text =>
      obtain ⟨source, hread, htext⟩ := Job.result_eq_ok_iff.1 hresult
      exact ⟨source, hread, text, htext⟩
  · rintro ⟨source, hread, text, htext⟩
    rw [run_eq_success hjob time hread htext]
    rfl

end

end Mainframe.Command
