import Mainframe.Proofs.PromptReading
import Mainframe.Proofs.RequestedJobs
import Mainframe.Proofs.SourceCounts

/-
  A report made in one run, and the same report made in two.

  An analysis outlines a source and reports on the outline at once. The outline
  can also be printed as JSON text by one run and handed to another, which reads
  it back and reports on it. Nothing is lost on the way: the two reports differ
  in the time at which they are made and in nothing else.

  What is proved:
    1. `extractText_eq_ok_iff` and `analyze_eq_ok_iff`: both ways make something
       of the same sources, those that are `Detected` as some outline.
    2. `Outline.ofText_printed`: an outline is read back from what is printed.
    3. `report_split`: the time stands in one line of a report.
    4. `relayed_report`: the two ways agree.
-/

namespace Mainframe

open Json Text

/-! ## Detected sources -/

/-- The source seems to be written in the language of the outline, and this is
its outline in that language. -/
structure Detected (source : String) (o : Outline) : Prop where
  language : detect source = some o.language
  outlined : Outline.ofSource o.language source = .ok o

theorem Outline.language_of_ofSource {l : Language} {source : String} {o : Outline}
    (h : Outline.ofSource l source = .ok o) : o.language = l := by
  cases l with
  | cobol =>
    rw [← Except.ok.inj h]
    rfl
  | jcl =>
    cases hdeck : Jcl.outline source with
    | error e =>
      rw [ofSource, hdeck] at h
      cases h
    | ok deck =>
      rw [ofSource, hdeck] at h
      rw [← Except.ok.inj h]
      rfl

theorem not_allBlank_of_detect {source : String} {l : Language} (h : detect source = some l) :
    allBlank source.toList = false := by
  rw [← Bool.not_eq_true]
  intro hblank
  rw [detect, if_pos hblank] at h
  cases h

theorem detected_of_ofSource {source : String} {l : Language} {o : Outline}
    (hl : detect source = some l) (ho : Outline.ofSource l source = .ok o) :
    Detected source o := by
  have hlanguage := Outline.language_of_ofSource ho
  subst hlanguage
  exact ⟨hl, ho⟩

/-- The analysis of a source is made from the outline as which it is detected. -/
theorem Analysis.analyze_eq_ok_iff {source : String} {explainer : Option Explainer} {a : Analysis} :
    analyze source explainer = .ok a ↔
      ∃ o, Detected source o ∧ a = ofOutline o.language o explainer := by
  constructor
  · intro h
    unfold analyze at h
    split at h
    next => cases h
    next =>
      split at h
      next => cases h
      next l hl =>
        unfold ofSource at h
        split at h
        next o ho =>
          rw [← Except.ok.inj h, ← Outline.language_of_ofSource ho]
          exact ⟨o, detected_of_ofSource hl ho, rfl⟩
        next => cases h
  · rintro ⟨o, ho, rfl⟩
    simp [analyze, not_allBlank_of_detect ho.language, ho.language, ofSource, ho.outlined]

theorem Detected.unique {source : String} {o o' : Outline} (h : Detected source o)
    (h' : Detected source o') : o = o' := by
  have hlanguage : o.language = o'.language :=
    Option.some.inj (h.language.symm.trans h'.language)
  have hsame := h.outlined.symm.trans (hlanguage ▸ h'.outlined)
  exact Except.ok.inj hsame

namespace Command

/-- The text that is extracted from a source of no given language is that of the
outline as which the source is detected. -/
theorem extractText_eq_ok_iff {name source text : String} :
    extractText name none source = .ok text ↔
      ∃ o, Detected source o ∧ text = o.toText .pretty ++ "\n" := by
  rw [extractText, Option.none_or]
  constructor
  · intro h
    split at h
    next => cases h
    next l hl =>
      split at h
      next o ho => exact ⟨o, detected_of_ofSource hl ho, (Except.ok.inj h).symm⟩
      next => cases h
  · rintro ⟨o, ho, rfl⟩
    simp only [ho.language, ho.outlined]

end Command

/-- The numbers of a detected outline are in range, with all that an analysis
counts in it. -/
theorem Detected.fits {source : String} {o : Outline} (h : Detected source o)
    (hsize : source.length < maxNatural) (explainer : Option Explainer) :
    (Analysis.ofOutline o.language o explainer).Fits := by
  cases o with
  | jcl deck => exact ⟨trivial, fun s hs => nomatch hs⟩
  | cobol program =>
    have hprogram : Cobol.outline source = program :=
      Outline.cobol.inj (Except.ok.inj h.outlined)
    constructor
    case outline =>
      show program.LinesFit
      rw [← hprogram]
      exact Cobol.linesFit_outline hsize
    case summary =>
      intro s hs
      rw [← Option.some.inj hs, ← hprogram]
      exact Cobol.countsFit_outline hsize

/-! ## Printed text -/

theorem Outline.ofText_printed {o : Outline} (ho : o.LinesFit) :
    Outline.ofText (o.toText .pretty ++ "\n") = .ok o := by
  have hplain : Plain maxDepth o.toJson := (Outline.plain_toJson ho).mono (by decide)
  rw [ofText, toText, read_printed isSpaced_pretty hplain]
  simp [ofJson?_toJson]

theorem Analysis.exists_members_toJson (a : Analysis) :
    ∃ members, a.toJson = .object members ∧
      atMostOnce "intermediate_representation" members = some (some a.outline.toJson) :=
  ⟨_, rfl, by simp [atMostOnce, named]⟩

/-! ## The time of a report -/

namespace Report

theorem unlines_append (above below : List String) :
    unlines (above ++ below) = unlines above ++ unlines below := by
  simp [unlines]

/-- The time stands in one of the lines, and the others do not depend on it. -/
def StatesTime (lines : String → List String) : Prop :=
  ∃ above below, ∀ time, lines time = above ++ generatedLine time :: below

theorem StatesTime.append {lines : String → List String} (h : StatesTime lines)
    (rest : List String) : StatesTime (fun time => lines time ++ rest) := by
  obtain ⟨above, below, hlines⟩ := h
  refine ⟨above, below ++ rest, fun time => ?_⟩
  show lines time ++ rest = _
  rw [hlines, List.append_assoc, List.cons_append]

theorem statesTime_programSection (s : Summary) :
    StatesTime (fun time => programSection time s) :=
  ⟨["# COBOL Program Summary", "", "**Program ID:** " ++ s.programId], _, fun _ => rfl⟩

theorem statesTime_jobSection (o : Jcl.Outline) : StatesTime (fun time => jobSection time o) :=
  ⟨_, rule, fun _ => List.append_assoc ..⟩

theorem statesTime_programLines (o : Cobol.Outline) (s : Summary) :
    StatesTime (fun time => programLines time o s) := by
  simp only [programLines, List.append_assoc]
  exact (statesTime_programSection s).append _

theorem statesTime_deckLines (o : Jcl.Outline) : StatesTime (fun time => deckLines time o) := by
  simp only [deckLines, List.append_assoc]
  exact (statesTime_jobSection o).append _

theorem StatesTime.text {lines : String → List String} (h : StatesTime lines) :
    ∃ above below, ∀ time, unlines (lines time) = above ++ generatedLine time ++ below := by
  obtain ⟨above, below, hlines⟩ := h
  refine ⟨unlines above, "\n" ++ unlines below, fun time => ?_⟩
  have hline : unlines [generatedLine time] = generatedLine time ++ "\n" := by simp [unlines]
  calc unlines (lines time)
    _ = unlines (above ++ ([generatedLine time] ++ below)) := by rw [hlines]; rfl
    _ = unlines above ++ (generatedLine time ++ "\n" ++ unlines below) := by
      rw [unlines_append, unlines_append, hline]
    _ = unlines above ++ generatedLine time ++ ("\n" ++ unlines below) := by
      simp only [String.append_assoc]

/-- Two reports on an outline differ in the time that they state and in nothing
else. -/
theorem report_split (o : Outline) :
    ∃ above below, ∀ time, ofOutline time o = above ++ generatedLine time ++ below := by
  cases o with
  | cobol program => exact (statesTime_programLines program (.ofOutline program)).text
  | jcl deck => exact (statesTime_deckLines deck).text

end Report

/-! ## Two runs -/

namespace Command

section
variable {σ : Type} [FileSystem σ]

/-- The printed text stands for the outline of the file in every further run:
what an analysis of the file prints is also what each tool prints that is given
the printed text, apart from the time. An explained analysis prints the same and
then the prompt under a heading of its own. -/
structure Relays (w : σ) (file printed : String) (o : Outline) (above below : String) : Prop where
  decoded : Outline.ofText printed = .ok o
  analyzed : ∀ time, Tool.suite.run time ["analyze", file] w =
    .success w (above ++ Report.generatedLine time ++ below)
  summarized : ∀ time {tool : Tool} {args : List String} {origin : Origin} {w' : σ},
    AsksForReport tool args origin → origin.read w' = .ok printed →
      tool.run time args w' = .success w' (above ++ Report.generatedLine time ++ below)
  explained : ∀ time, Tool.suite.run time ["analyze", file, "--explain"] w =
    .success w (above ++ Report.generatedLine time ++ below ++
      ("\n## Explanation\n\n" ++ String.ofList (trim (Prompt.ofOutline o).toList) ++ "\n"))
  encoded : ∀ time, ∃ text members value,
    Tool.suite.run time ["analyze", file, "--format", "json"] w = .success w text ∧
      Json.read .strict text = .ok ⟨.object members, true⟩ ∧
      atMostOnce "intermediate_representation" members = some (some value) ∧
      Outline.ofJson? value = some o

/-- What an analysis makes of a detected source, in either form. -/
theorem apply_analyze {source : String} {o : Outline} (h : Detected source o)
    (time name : String) (format : Format) (explain : Bool) :
    (Task.analyze format explain).apply time name source =
      .ok (analysisText time (.ofOutline o.language o
        (if explain then some Explainer.prompt else none)) format) := by
  have hanalysis : Analysis.analyze source (if explain then some Explainer.prompt else none) =
      .ok (.ofOutline o.language o (if explain then some Explainer.prompt else none)) :=
    Analysis.analyze_eq_ok_iff.2 ⟨o, h, rfl⟩
  simp only [Task.apply, hanalysis]

theorem exists_apply_analyze_iff {time name source : String} {format : Format} {explain : Bool} :
    (∃ text, (Task.analyze format explain).apply time name source = .ok text) ↔
      ∃ o, Detected source o := by
  constructor
  · rintro ⟨text, htext⟩
    unfold Task.apply at htext
    dsimp only at htext
    split at htext
    next a ha =>
      obtain ⟨o, ho, -⟩ := Analysis.analyze_eq_ok_iff.1 ha
      exact ⟨o, ho⟩
    next => cases htext
  · rintro ⟨o, ho⟩
    exact ⟨_, apply_analyze ho ..⟩

theorem exists_apply_extract_iff {time name source : String} :
    (∃ text, (Task.extract none).apply time name source = .ok text) ↔ ∃ o, Detected source o := by
  constructor
  · rintro ⟨text, htext⟩
    obtain ⟨o, ho, -⟩ := extractText_eq_ok_iff.1 htext
    exact ⟨o, ho⟩
  · rintro ⟨o, ho⟩
    exact ⟨_, extractText_eq_ok_iff.2 ⟨o, ho, rfl⟩⟩

/-- A detected source in a file is relayed. -/
theorem relays_of_detected {w : σ} {file source : String} {o : Outline} (hfile : IsPlain file)
    (hread : FileSystem.readText w file = .ok source) (hsize : source.length < maxNatural)
    (ho : Detected source o) {above below : String}
    (hreport : ∀ time, Report.ofOutline time o = above ++ Report.generatedLine time ++ below) :
    Relays w file (o.toText .pretty ++ "\n") o above below := by
  have hdecoded : Outline.ofText (o.toText .pretty ++ "\n") = .ok o :=
    Outline.ofText_printed (ho.fits hsize none).outline
  constructor
  case decoded => exact hdecoded
  case analyzed =>
    intro time
    apply run_eq_success (job?_analyze_markdown hfile) time hread
    rw [apply_analyze ho, ← hreport]
    exact congrArg Except.ok (String.append_empty ..)
  case summarized =>
    intro time tool args origin w' hasks hprinted
    apply run_eq_success hasks.job? time hprinted
    rw [Task.apply, summarizeText, hdecoded, ← hreport]
    rfl
  case explained =>
    intro time
    apply run_eq_success (job?_analyze_explain hfile) time hread
    rw [apply_analyze ho, ← hreport]
    have hsection :
        explanationSection (Analysis.ofOutline o.language o (some .prompt)).explanation =
          "\n## Explanation\n\n" ++ String.ofList (trim (Prompt.ofOutline o).toList) ++ "\n" :=
      congrArg explanationSection (Analysis.explanation_ofOutline_prompt o)
    rw [← hsection]
    rfl
  case encoded =>
    intro time
    have hplain : Plain maxDepth (Analysis.ofOutline o.language o none).toJson :=
      (Analysis.plain_toJson (ho.fits hsize none)).mono (by decide)
    obtain ⟨members, hmembers, hrepresentation⟩ :=
      Analysis.exists_members_toJson (Analysis.ofOutline o.language o none)
    refine ⟨(Json.object members).text .pretty ++ "\n", members, o.toJson, ?_, ?_, hrepresentation,
      Outline.ofJson?_toJson o⟩
    · apply run_eq_success (job?_analyze_json hfile) time hread
      rw [apply_analyze ho, ← hmembers]
      rfl
    · rw [← hmembers]
      exact read_printed isSpaced_pretty hplain

/-- A file can be parsed if and only if it can be analyzed. Then what parsing it
prints is its outline and relays the report that analyzing it prints. A text in
memory has fewer characters than 64 bits count. -/
theorem relayed_report (w : σ) {file : String} (hfile : IsPlain file)
    (time time' : String) :
    ((Tool.suite.run time ["parse", file] w).code = 0 ↔
      (Tool.suite.run time' ["analyze", file] w).code = 0) ∧
    ∀ source, FileSystem.readText w file = .ok source → source.length < maxNatural →
      (Tool.suite.run time ["parse", file] w).code = 0 →
        ∃ printed o above below, Detected source o ∧
          Tool.suite.run time ["parse", file] w = .success w printed ∧
          Relays w file printed o above below := by
  have hparse : (Tool.suite.run time ["parse", file] w).code = 0 ↔
      ∃ source, FileSystem.readText w file = .ok source ∧ ∃ o, Detected source o := by
    rw [code_run_eq_zero_iff (job?_parse hfile)]
    simp only [exists_apply_extract_iff]
    rfl
  have hanalyze : (Tool.suite.run time' ["analyze", file] w).code = 0 ↔
      ∃ source, FileSystem.readText w file = .ok source ∧ ∃ o, Detected source o := by
    rw [code_run_eq_zero_iff (job?_analyze_markdown hfile)]
    simp only [exists_apply_analyze_iff]
    rfl
  refine ⟨hparse.trans hanalyze.symm, ?_⟩
  intro source hread hsize hcode
  obtain ⟨source', hread', o, ho⟩ := hparse.1 hcode
  rw [hread] at hread'
  rw [← Except.ok.inj hread'] at ho
  obtain ⟨above, below, hreport⟩ := Report.report_split o
  refine ⟨_, o, above, below, ho, ?_, relays_of_detected hfile hread hsize ho hreport⟩
  exact run_eq_success (job?_parse hfile) time hread (extractText_eq_ok_iff.2 ⟨o, ho, rfl⟩)

end

/-- A directory with a program and a job deck. -/
def library : Workspace :=
  { files := [("pay.cbl", .text "PROCEDURE DIVISION.\nMAIN.\n    DISPLAY 'PAID'."),
      ("pay.jcl", .text "//PAY JOB CLASS=A\n//RUN EXEC PGM=PAY")]
    input := .text "" }

/-- The outline of the program of the directory. -/
def payProgram : Cobol.Outline :=
  { programId := none
    divisions := ⟨none, none, none, some true⟩
    dataItems := []
    paragraphs := [⟨"PARA_2", "MAIN", 2⟩]
    statements := [⟨"STMT_3", 3, .display "'PAID'"⟩]
    controlFlow := []
    conditions := []
    fileOperations := []
    performs := []
    warnings := [] }

/-- The explanation of the program of the directory. -/
def payExplanation : List String :=
  ["You are a senior IBM Mainframe COBOL engineer.",
    "",
    "MANDATORY RULES (STRICT)",
    "- Explain ONLY what is explicitly present in the IR.",
    "- Treat this as STATIC CODE ANALYSIS, not program execution.",
    "- Do NOT assume runtime values or evaluate conditions.",
    "- Do NOT invent missing statements, paragraphs, or logic.",
    "- Do NOT reference line numbers.",
    "- Give a numeric example ONLY for operations listed under ARITHMETIC OPERATIONS.",
    "",
    "COBOL PROGRAM NAME:",
    "UNKNOWN",
    "",
    "EXECUTABLE STRUCTURE:",
    "[",
    "  \x7b",
    "    \"id\": \"STMT_3\",",
    "    \"line\": 3,",
    "    \"type\": \"DISPLAY\",",
    "    \"value\": \"'PAID'\"",
    "  \x7d",
    "]",
    "",
    "TASK",
    "1. Describe the overall program purpose at a high level.",
    "2. Explain the program flow using semantic blocks, not line by line.",
    "3. Explain conditional logic as possible branches if CONTROL FLOW STRUCTURE appears above.",
    "4. Describe file handling if FILE OPERATIONS appears above.",
    "5. Do not mention sections that do not appear above."]

theorem ofProgram_payProgram : Prompt.ofProgram payProgram = unlines payExplanation := by
  have hdata : "\nCOBOL PROGRAM NAME:\n" ++ payProgram.displayName ++
      "\n\nEXECUTABLE STRUCTURE:\n" ++
        Prompt.listText Cobol.Statement.toJson payProgram.statements ++ "\n" =
      unlines ((payExplanation.drop 9).take 13) := by decide +kernel
  calc Prompt.ofProgram payProgram
    _ = Prompt.programRules ++ ("\nCOBOL PROGRAM NAME:\n" ++ payProgram.displayName ++
        "\n\nEXECUTABLE STRUCTURE:\n" ++
          Prompt.listText Cobol.Statement.toJson payProgram.statements ++ "\n") ++
        Prompt.programTask := by
      -- there are no branches, files or calculations to list
      simp only [Prompt.ofProgram, payProgram, Prompt.listSection, Cobol.Action.isArithmetic,
        List.filter_cons, List.filter_nil, List.isEmpty_nil, if_true, Bool.false_eq_true, if_false,
        String.append_empty, String.append_assoc]
    _ = unlines payExplanation := by
      rw [hdata, Prompt.programRules, Prompt.programTask, ← Report.unlines_append,
        ← Report.unlines_append]
      rfl

/-- Both files of the directory can be parsed, and what that prints relays the
reports on them. Behind the explained report on the program stands the text of its
explanation. -/
theorem relayed_report_of_library :
    ((Tool.suite.run "NOON" ["parse", "pay.cbl"] library).code = 0 ∧
      (∃ printed above below, Relays library "pay.cbl" printed (.cobol payProgram) above below) ∧
      (Tool.suite.run "NOON" ["analyze", "pay.cbl", "--explain"] library).printed =
        (Tool.suite.run "NOON" ["analyze", "pay.cbl"] library).printed ++
          ("\n## Explanation\n\n" ++ unlines payExplanation)) ∧
    (Tool.suite.run "NOON" ["parse", "pay.jcl"] library).code = 0 ∧
      ∃ printed o above below, Relays library "pay.jcl" printed o above below := by
  have hprogram : (Tool.suite.run "NOON" ["parse", "pay.cbl"] library).code = 0 := by
    decide +kernel
  have hdeck : (Tool.suite.run "NOON" ["parse", "pay.jcl"] library).code = 0 := by
    decide +kernel
  have hpay : Detected "PROCEDURE DIVISION.\nMAIN.\n    DISPLAY 'PAID'." (.cobol payProgram) :=
    ⟨by decide +kernel, by decide +kernel⟩
  obtain ⟨printed, o, above, below, ho, -, hrelays⟩ :=
    (relayed_report library (by decide) "NOON" "NOON").2 _ rfl (by decide) hprogram
  obtain rfl := ho.unique hpay
  obtain ⟨printed', o', above', below', -, -, hrelays'⟩ :=
    (relayed_report library (by decide) "NOON" "NOON").2 _ rfl (by decide) hdeck
  refine ⟨⟨hprogram, ⟨printed, above, below, hrelays⟩, ?_⟩, hdeck, printed', o', above', below',
    hrelays'⟩
  have hexplanation : String.ofList (trim (Prompt.ofOutline (.cobol payProgram)).toList) ++ "\n" =
      unlines payExplanation := (Prompt.trim_ofOutline _).trans ofProgram_payProgram
  rw [hrelays.analyzed, hrelays.explained, ← hexplanation]
  simp only [Outcome.success, String.append_assoc]

end Command

end Mainframe
