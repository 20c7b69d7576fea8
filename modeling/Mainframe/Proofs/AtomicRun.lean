import Mainframe.Proofs.EndingRequests
import Mainframe.Proofs.RequestedJobs

/-
  Runs that fail, and runs that write a file.

  A run works on what it has read before it writes, and it writes once. So a
  run that fails, for whatever reason, leaves no trace, and a run with an output
  leaves in it what it would have printed: the same arguments without the output
  switch ask for the same job, which prints. Both hold when the output is the
  file that was read. Of the files it is asked only that a write succeeds as a
  whole or changes nothing.

  A tool that is asked for its version or for help says so and looks no further,
  whatever else it was asked for.

  What is proved:
    1. `scanSuite_kept` and `job?_kept`: the job that arguments ask for, with
       and without the output switch.
    2. `Job.run_cases`: a job fails and leaves no trace, or it makes a text and
       prints it or writes it.
    3. `run_atomic`: a run that fails changes nothing, and a run with an output
       changes nothing else.
-/

namespace Mainframe.Command

/-! ## The arguments of a tool -/

/-- The outputs that the arguments of the suite ask for, behind the name of a
command. -/
def suiteOutputs : List String → List String
  | [] => []
  | a :: rest =>
    match Argument.ofString a with
    | .plain name =>
      match Subcommand.ofName? name with
      | some command => outputs command.grammar rest
      | none => []
    | _ => suiteOutputs rest

/-- The arguments of the suite without the output switch of its command. -/
def suiteKept : List String → List String
  | [] => []
  | a :: rest =>
    match Argument.ofString a with
    | .plain name =>
      match Subcommand.ofName? name with
      | some command => a :: kept command.grammar none rest
      | none => a :: rest
    | _ => a :: suiteKept rest

/-- The outputs that the arguments of a tool ask for. -/
def Tool.outputs : Tool → List String → List String
  | suite => suiteOutputs
  | extractor => Command.outputs extractorGrammar
  | summarizer => Command.outputs summarizerGrammar

/-- The arguments of a tool without the output switch. -/
def Tool.withoutOutput : Tool → List String → List String
  | suite => suiteKept
  | extractor => kept extractorGrammar none
  | summarizer => kept summarizerGrammar none

theorem Subcommand.outputTakesValue (command : Subcommand) :
    command.grammar.OutputTakesValue := by
  cases command <;> decide

/-- The suite reads its own switches and the name of a command as before. -/
theorem scanSuite_kept {s t : Settings} {command : Subcommand} {args : List String}
    (h : scanSuite s args = .ok (command, t)) :
    scanSuite s (suiteKept args) = .ok (command, t.withoutOutput) ∧
      suiteOutputs args = t.output.toList ∧
      (command = .parse → suiteOutputs args = []) := by
  induction args generalizing s with
  | nil => cases h
  | cons a rest ih =>
    unfold scanSuite at h
    split at h
    · cases h
    next name hwritten =>
      cases hname : Subcommand.ofName? name with
      | none =>
        rw [hname] at h
        cases h
      | some called =>
        simp only [hname] at h
        obtain ⟨u, hscan, hcalled⟩ := exists_of_map_eq_ok h
        obtain ⟨rfl, rfl⟩ := Prod.mk.inj hcalled
        obtain ⟨hkept, houts⟩ := scan_kept called.outputTakesValue hscan
        simp only [suiteKept, suiteOutputs, hwritten, hname]
        refine ⟨?_, houts, ?_⟩
        · simp only [scanSuite, hwritten, hname, hkept]
          rfl
        · rintro rfl
          exact outputsOf_requests (by decide) (by simp) rest
    next hescape hplain =>
      cases hgiven : giveArgument suiteGrammar s none a with
      | error stop =>
        rw [hgiven] at h
        cases h
      | ok progress =>
        rw [hgiven] at h
        obtain ⟨hkept, houts⟩ := ih h
        cases hwritten : Argument.ofString a with
        | escape => exact absurd hwritten hescape
        | plain name => exact absurd hwritten (hplain name)
        | _ =>
          simp only [suiteKept, suiteOutputs, hwritten]
          refine ⟨?_, houts⟩
          simp only [scanSuite, hwritten, hgiven]
          exact hkept

theorem Subcommand.job?_withoutOutput {command : Subcommand} {t : Settings} {j : Job}
    (h : command.job? t = .ok j) :
    command.job? t.withoutOutput = .ok { j with output := none } ∧
      j.output = if command = .parse then none else t.output := by
  have hfile : t.withoutOutput.file = t.file := rfl
  unfold Subcommand.job? at h ⊢
  rw [hfile]
  split at h
  · rw [← Except.ok.inj h]
    exact ⟨rfl, rfl⟩
  · rw [← Except.ok.inj h]
    exact ⟨rfl, rfl⟩
  · rw [← Except.ok.inj h]
    exact ⟨rfl, rfl⟩
  · cases h

section
variable {args : List String} {j : Job}

theorem job?_suite_kept (h : Tool.suite.job? args = .ok j) :
    Tool.suite.job? (suiteKept args) = .ok { j with output := none } ∧
      suiteOutputs args = j.output.toList := by
  obtain ⟨⟨command, t⟩, hscan, hasked⟩ := exists_of_bind_eq_ok h
  obtain ⟨hkept, houts, hparse⟩ := scanSuite_kept hscan
  obtain ⟨hjob, hout⟩ := Subcommand.job?_withoutOutput hasked
  refine ⟨?_, ?_⟩
  · rw [Tool.job?, hkept]
    exact hjob
  · rw [hout]
    split
    next hcommand => exact hparse hcommand
    next => exact houts

theorem job?_extractor_kept (h : Tool.extractor.job? args = .ok j) :
    Tool.extractor.job? (kept extractorGrammar none args) = .ok { j with output := none } ∧
      outputs extractorGrammar args = j.output.toList := by
  obtain ⟨t, hscan, hasked⟩ := exists_of_bind_eq_ok h
  obtain ⟨hkept, -⟩ := scan_kept (by decide) hscan
  have hnone : outputs extractorGrammar args = [] :=
    outputsOf_requests (by decide) (by simp) args
  have hfile : t.withoutOutput.file = t.file := rfl
  rw [Tool.job?, hkept]
  simp only [Except.bind, extractorJob?, hfile] at hasked ⊢
  split at hasked
  · rw [← Except.ok.inj hasked]
    exact ⟨rfl, hnone⟩
  · cases hasked

theorem job?_summarizer_kept (h : Tool.summarizer.job? args = .ok j) :
    Tool.summarizer.job? (kept summarizerGrammar none args) = .ok { j with output := none } ∧
      outputs summarizerGrammar args = j.output.toList := by
  obtain ⟨t, hscan, rfl⟩ := exists_of_map_eq_ok h
  obtain ⟨hkept, houts⟩ := scan_kept (by decide) hscan
  rw [Tool.job?, hkept]
  exact ⟨rfl, houts⟩

/-- The arguments of a tool without the output switch ask for the same job, which
prints. -/
theorem job?_kept {tool : Tool} (h : tool.job? args = .ok j) :
    tool.job? (tool.withoutOutput args) = .ok { j with output := none } ∧
      tool.outputs args = j.output.toList := by
  cases tool with
  | suite => exact job?_suite_kept h
  | extractor => exact job?_extractor_kept h
  | summarizer => exact job?_summarizer_kept h

end

/-- Other letters stay in front of the switch, and its value goes with it. -/
example :
    Tool.summarizer.outputs ["-vo", "a.md", "-i", "b"] = ["a.md"] ∧
    Tool.summarizer.withoutOutput ["-vo", "a.md", "-i", "b"] = ["-v", "-i", "b"] ∧
    Tool.suite.withoutOutput ["--debug", "analyze", "--output=a", "b"] =
      ["--debug", "analyze", "b"] := by
  decide +kernel

/-! ## Outcomes -/

section
variable {σ : Type} [FileSystem σ]

/-- Nothing is printed, and the file to which the path leads holds the text and
is all that may have changed. -/
structure Outcome.Writes (o : Outcome σ) (w : σ) (path text : String) : Prop where
  printed : o.printed = ""
  content : FileSystem.bytes? o.workspace (FileSystem.place w path) = some text.toUTF8
  others : ∀ p, p ≠ FileSystem.place w path →
    FileSystem.bytes? o.workspace p = FileSystem.bytes? w p

/-- What comes of a job: it fails and leaves no trace, or it makes a text and
prints it or writes it. -/
theorem Job.run_cases (hfiles : WritesWhole σ) (j : Job) (time : String) (w : σ) :
    (∃ e, j.run time w = .failure w e) ∨
    ∃ text, ({ j with output := none } : Job).run time w = .success w text ∧
      match j.output with
      | none => j.run time w = .success w text
      | some path => (j.run time w).code = 0 ∧ (j.run time w).Writes w path text := by
  have hresult : ({ j with output := none } : Job).result time w = j.result time w := rfl
  cases htext : j.result time w with
  | error e => exact .inl ⟨e, by simp only [Job.run, htext]⟩
  | ok text =>
    have hprinted : ({ j with output := none } : Job).run time w = .success w text := by
      rw [Job.run, hresult, htext]
    cases hout : j.output with
    | none =>
      refine .inr ⟨text, hprinted, ?_⟩
      simp only [Job.run, htext, hout]
    | some path =>
      rcases hwritten : FileSystem.write w path text with ⟨cause | _, after⟩
      case error =>
        obtain rfl := hfiles.failed hwritten
        exact .inl ⟨.writing path cause, by simp only [Job.run, htext, hout, hwritten]⟩
      case ok =>
        have hrun : j.run time w = ⟨0, "", [], after⟩ := by
          simp only [Job.run, htext, hout, hwritten]
        refine .inr ⟨text, hprinted, ?_⟩
        rw [hrun]
        exact ⟨rfl, rfl, hfiles.written hwritten, hfiles.others hwritten⟩

/-- A run that does not end with zero has printed nothing and changed nothing.
A run that ends with zero was asked for the version or for help and has printed
that; or it has changed nothing if it was asked for no output, and if it was
asked for one, it has printed nothing and written there what the same arguments
without the output switch print. -/
theorem run_atomic (hfiles : WritesWhole σ) (tool : Tool) (args : List String) (time : String)
    (w : σ) (help : Tool → List String → String) :
    ((tool.run time args w help).code ≠ 0 →
      (tool.run time args w help).printed = "" ∧ (tool.run time args w help).workspace = w) ∧
    ((tool.run time args w help).code = 0 →
      (tool.job? args = .error .version ∧ (∃ a ∈ args, versionSwitch.IsIn a) ∧
        tool.run time args w help = .success w (tool.version ++ "\n")) ∨
      (tool.job? args = .error .help ∧
        ((tool = .suite ∧ "help" ∈ args) ∨ ∃ a ∈ args, helpSwitch.IsIn a) ∧
        tool.run time args w help = .success w (help tool args)) ∨
      ((tool.outputs args = [] → (tool.run time args w help).workspace = w) ∧
        ∀ path ∈ tool.outputs args,
          ∃ text, tool.run time (tool.withoutOutput args) w help = .success w text ∧
            (tool.run time args w help).Writes w path text)) := by
  cases hjob : tool.job? args with
  | error stop =>
    cases stop with
    | usage =>
      have hrun : tool.run time args w help = ⟨2, "", [], w⟩ := by simp only [Tool.run, hjob]
      rw [hrun]
      exact ⟨fun _ => ⟨rfl, rfl⟩, fun hcode => absurd hcode (by decide : (2 : Nat) ≠ 0)⟩
    | version =>
      have hrun : tool.run time args w help = .success w (tool.version ++ "\n") := by
        simp only [Tool.run, hjob]
      have hasked : ∃ a ∈ args, versionSwitch.IsIn a :=
        (job?_eq_error rfl hjob).resolve_left fun hhelp => Stop.noConfusion hhelp.2.1
      rw [hrun]
      exact ⟨fun hcode => absurd rfl hcode, fun _ => .inl ⟨rfl, hasked, rfl⟩⟩
    | help =>
      have hrun : tool.run time args w help = .success w (help tool args) := by
        simp only [Tool.run, hjob]
      have hasked : (tool = .suite ∧ "help" ∈ args) ∨ ∃ a ∈ args, helpSwitch.IsIn a :=
        (job?_eq_error rfl hjob).imp_left fun hhelp => ⟨hhelp.1, hhelp.2.2⟩
      rw [hrun]
      exact ⟨fun hcode => absurd rfl hcode, fun _ => .inr (.inl ⟨rfl, hasked, rfl⟩)⟩
  | ok j =>
    obtain ⟨hkept, houts⟩ := job?_kept hjob
    have hrun : tool.run time args w help = j.run time w := by simp only [Tool.run, hjob]
    have hwithout : tool.run time (tool.withoutOutput args) w help =
        ({ j with output := none } : Job).run time w := by simp only [Tool.run, hkept]
    rw [hrun, hwithout, houts]
    rcases j.run_cases hfiles time w with ⟨e, hfailed⟩ | ⟨text, hprinted, hdone⟩
    · rw [hfailed]
      exact ⟨fun _ => ⟨rfl, rfl⟩, fun hcode => absurd hcode (by decide : (1 : Nat) ≠ 0)⟩
    · cases hout : j.output with
      | none =>
        rw [hout] at hdone
        rw [hdone]
        exact ⟨fun hcode => absurd rfl hcode, fun _ => .inr (.inr ⟨fun _ => rfl, by simp⟩)⟩
      | some path =>
        rw [hout] at hdone
        refine ⟨fun hcode => absurd hdone.1 hcode, fun _ => .inr (.inr ⟨by simp, ?_⟩)⟩
        rintro p hp
        obtain rfl := List.mem_singleton.1 hp
        exact ⟨text, hprinted, hdone.2⟩

end

/-- One file, with the JSON text of a deck that says nothing. -/
def deckWorkspace : Workspace :=
  ⟨[("ir.json", .text "\x7b\"job\":\x7b\x7d,\"steps\":[],\"datasets\":[],\"warnings\":[]\x7d")],
    .text ""⟩

/-- The report takes the place of the text that it is made from; where it cannot
be written, nothing happens; and where help is asked for, that is all there is. -/
theorem run_atomic_in_place :
    WritesWhole Workspace ∧
    ((Tool.summarizer.run "NOON" ["-i", "ir.json", "-vo", "ir.json"] deckWorkspace).code = 0 ∧
      Tool.summarizer.withoutOutput ["-i", "ir.json", "-vo", "ir.json"] =
        ["-i", "ir.json", "-v"] ∧
      ∃ text, Tool.summarizer.run "NOON" ["-i", "ir.json", "-v"] deckWorkspace =
          .success deckWorkspace text ∧
        (Tool.summarizer.run "NOON" ["-i", "ir.json", "-vo", "ir.json"] deckWorkspace).Writes
          deckWorkspace "ir.json" text) ∧
    (Tool.suite.run "NOON" ["summarize", "-i", "ir.json", "-ono/md"] deckWorkspace).code ≠ 0 ∧
    (Tool.suite.run "NOON" ["summarize", "-i", "ir.json", "-ono/md"] deckWorkspace).workspace =
      deckWorkspace ∧
    Tool.suite.run "NOON" ["summarize", "-o", "ir.json", "-h"] deckWorkspace (fun _ _ => "HELP\n") =
      .success deckWorkspace "HELP\n" := by
  have hcode : (Tool.summarizer.run "NOON" ["-i", "ir.json", "-vo", "ir.json"]
      deckWorkspace).code = 0 := by decide +kernel
  have hkept : Tool.summarizer.withoutOutput ["-i", "ir.json", "-vo", "ir.json"] =
      ["-i", "ir.json", "-v"] := by decide +kernel
  have hout : "ir.json" ∈ Tool.summarizer.outputs ["-i", "ir.json", "-vo", "ir.json"] := by
    decide +kernel
  have hfailed : (Tool.suite.run "NOON" ["summarize", "-i", "ir.json", "-ono/md"]
      deckWorkspace).code ≠ 0 := by decide +kernel
  have hhelped : (Tool.suite.run "NOON" ["summarize", "-o", "ir.json", "-h"] deckWorkspace
      (fun _ _ => "HELP\n")).code = 0 := by decide +kernel
  have hasked : "ir.json" ∈ Tool.suite.outputs ["summarize", "-o", "ir.json", "-h"] := by
    decide +kernel
  have hfiles : WritesWhole Workspace := Workspace.writesWhole
  refine ⟨hfiles, ⟨hcode, hkept, ?_⟩, hfailed, ((run_atomic hfiles ..).1 hfailed).2, ?_⟩
  · rcases (run_atomic hfiles ..).2 hcode with ⟨hversion, -⟩ | ⟨hhelp, -⟩ | ⟨-, hwritten⟩
    · cases hversion
    · cases hhelp
    · have hreport := hwritten _ hout
      rw [hkept] at hreport
      exact hreport
  · rcases (run_atomic hfiles ..).2 hhelped with
      ⟨hversion, -⟩ | ⟨-, -, hprinted⟩ | ⟨-, hwritten⟩
    · cases hversion
    · exact hprinted
    · -- nothing is printed where a file is written
      obtain ⟨text, -, hempty, -, -⟩ := hwritten _ hasked
      exact absurd hempty (by decide +kernel)

/-- A request for the version or for help is answered in place of everything else:
the answer is printed, although an output was asked for, and the output is not
written. -/
theorem version_and_help_are_printed :
    (Tool.summarizer.outputs ["-o", "out.md", "--version"] = ["out.md"] ∧
      Tool.summarizer.run "NOON" ["-o", "out.md", "--version"] deckWorkspace =
        .success deckWorkspace "legacysleuth-summarizer 0.1.0\n" ∧
      ¬ ∃ text, Tool.summarizer.run "NOON" ["--version"] deckWorkspace =
          .success deckWorkspace text ∧
        (Tool.summarizer.run "NOON" ["-o", "out.md", "--version"] deckWorkspace).Writes
          deckWorkspace "out.md" text) ∧
    Tool.summarizer.outputs ["-o", "out.md", "--help"] = ["out.md"] ∧
      Tool.summarizer.run "NOON" ["-o", "out.md", "--help"] deckWorkspace (fun _ _ => "HELP\n") =
        .success deckWorkspace "HELP\n" ∧
      ¬ ∃ text, Tool.summarizer.run "NOON" ["--help"] deckWorkspace (fun _ _ => "HELP\n") =
          .success deckWorkspace text ∧
        (Tool.summarizer.run "NOON" ["-o", "out.md", "--help"] deckWorkspace
          (fun _ _ => "HELP\n")).Writes deckWorkspace "out.md" text := by
  have hversion : Tool.summarizer.run "NOON" ["-o", "out.md", "--version"] deckWorkspace =
      .success deckWorkspace "legacysleuth-summarizer 0.1.0\n" := by decide +kernel
  have hhelp : Tool.summarizer.run "NOON" ["-o", "out.md", "--help"] deckWorkspace
      (fun _ _ => "HELP\n") = .success deckWorkspace "HELP\n" := by decide +kernel
  refine ⟨⟨by decide +kernel, hversion, ?_⟩, by decide +kernel, hhelp, ?_⟩
  · rintro ⟨text, -, hwritten⟩
    rw [hversion] at hwritten
    exact absurd hwritten.printed (by decide)
  · rintro ⟨text, -, hwritten⟩
    rw [hhelp] at hwritten
    exact absurd hwritten.printed (by decide)

end Mainframe.Command
