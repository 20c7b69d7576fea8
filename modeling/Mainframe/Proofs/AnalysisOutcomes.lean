import Mainframe.Proofs.CardLines
import Mainframe.Proofs.PromptReading
import Mainframe.Proofs.RelayedReport

/-
  What comes of an analysis.

  A source is refused because it is blank, because it seems to be written in
  neither language, or because it is a deck in which nothing runs. Every other
  source is analyzed. An explainer has no part in this: it is asked when the
  outline is there, and whatever it gives, also an error, becomes text.

  The outline of an analysis is in the language that was detected. So the prompt
  explainer, which refuses an outline in another language, never refuses one
  here, and its text is the prompt without the blanks around it.

  What is proved:
    1. `analyze_eq_error_iff`: which sources are refused, and why.
    2. `map_withoutExplanation_analyze`: an explainer changes the explanation
       and nothing else.
    3. `accounts_analyze` and `explanation_prompt`: what an analysis says.
    4. `analyze_outcomes`: all of it together.
-/

namespace Mainframe

open Text

namespace Analysis

variable {source : String} {explainer : Option Explainer}

/-! ## Refused sources -/

/-- The source cannot be analyzed, and this is why. -/
inductive Refused (source : String) : AnalysisError → Prop where
  | emptyInput : allBlank source.toList = true → Refused source .emptyInput
  | unknownLanguage : allBlank source.toList = false → detect source = none →
      Refused source .unknownLanguage
  | noExecSteps : detect source = some .jcl →
      (∀ line ∈ splitLines source.toList, Jcl.isStepLine line = false) →
      Refused source (.read .noExecSteps)

theorem ofSource_eq_error_iff {l : Language} {e : AnalysisError} :
    ofSource source l explainer = .error e ↔
      ∃ cause, Outline.ofSource l source = .error cause ∧ e = .read cause := by
  unfold ofSource
  cases Outline.ofSource l source with
  | ok o => simp
  | error cause => simp [eq_comm]

/-- Only decks are refused by their reader. -/
theorem outline_ofSource_eq_error_iff {l : Language} {e : ReadError} :
    Outline.ofSource l source = .error e ↔
      l = .jcl ∧ e = .noExecSteps ∧
        ∀ line ∈ splitLines source.toList, Jcl.isStepLine line = false := by
  cases l with
  | cobol => simp [Outline.ofSource]
  | jcl =>
    rw [← Jcl.outline_eq_error_iff, Outline.ofSource]
    cases Jcl.outline source <;> simp [Except.map]

theorem analyze_eq_error_iff {e : AnalysisError} :
    analyze source explainer = .error e ↔ Refused source e := by
  constructor
  · intro h
    unfold analyze at h
    split at h
    next hblank =>
      cases h
      exact .emptyInput hblank
    next hblank =>
      split at h
      next hnone =>
        cases h
        exact .unknownLanguage (eq_false_of_ne_true hblank) hnone
      next l hl =>
        obtain ⟨cause, hread, rfl⟩ := ofSource_eq_error_iff.1 h
        obtain ⟨rfl, rfl, hlines⟩ := outline_ofSource_eq_error_iff.1 hread
        exact .noExecSteps hl hlines
  · intro h
    cases h with
    | emptyInput hblank => simp [analyze, hblank]
    | unknownLanguage hblank hnone => simp [analyze, hblank, hnone]
    | noExecSteps hl hlines =>
      have hread := outline_ofSource_eq_error_iff.2 ⟨rfl, rfl, hlines⟩
      simp only [analyze, not_allBlank_of_detect hl, hl]
      exact ofSource_eq_error_iff.2 ⟨_, hread, rfl⟩

/-! ## The part of the explainer -/

/-- The analysis without what an explainer said. -/
def withoutExplanation (a : Analysis) : Analysis := { a with explanation := none }

theorem map_withoutExplanation_analyze (source : String) (explainer : Option Explainer) :
    (analyze source explainer).map withoutExplanation = analyze source none := by
  unfold analyze
  split
  next => rfl
  next =>
    split
    next => rfl
    next l hl =>
      unfold ofSource
      split <;> rfl

/-! ## What an analysis says -/

/-- The analysis is one of the source, and its parts belong together. -/
structure Accounts (source : String) (explainer : Option Explainer) (a : Analysis) : Prop where
  detected : detect source = some a.language
  outlined : Outline.ofSource a.language source = .ok a.outline
  variant : a.outline.language = a.language
  summarized : a.summary.isSome = true ↔ a.language = .cobol
  summary : ∀ program, a.outline = .cobol program → a.summary = some (.ofOutline program)
  explained : a.explanation.isSome = explainer.isSome

theorem accounts_analyze {a : Analysis} (h : analyze source explainer = .ok a) :
    Accounts source explainer a := by
  obtain ⟨o, ho, rfl⟩ := analyze_eq_ok_iff.1 h
  refine ⟨ho.language, ho.outlined, rfl, ?_, ?_, ?_⟩
  · cases o <;> simp [ofOutline, summaryOf, Outline.language]
  · rintro program rfl
    rfl
  · exact Option.isSome_map

theorem head?_explanationOf_error (l : Language) (e : ExplanationError) :
    (explanationOf l (.error e)).toList.head? = some 'E' := by
  show ("ERROR: Failed to generate " ++ l.title ++ " explanation: " ++ e.message).toList.head? = _
  simp [String.toList_append]

/-- A prompt without the blanks around it is never the text of an error. -/
theorem trim_prompt_ne_error (o : Outline) (l : Language) (e : ExplanationError) :
    String.ofList (trim (Prompt.ofOutline o).toList) ≠ explanationOf l (.error e) := by
  obtain ⟨rest, hrest⟩ := List.head?_eq_some_iff.1 (Prompt.head?_ofOutline o)
  have hblank : isBlank 'Y' = false := by decide
  intro heq
  have hhead := head?_explanationOf_error l e
  rw [← heq, hrest, trim_cons_of_not_blank hblank, String.toList_ofList, List.head?_cons] at hhead
  exact absurd (Option.some.inj hhead) (by decide)

theorem explanation_prompt {a : Analysis} (h : analyze source (some .prompt) = .ok a) :
    a.explanation = some (String.ofList (trim (Prompt.ofOutline a.outline).toList)) ∧
      ∀ l e, a.explanation ≠ some (explanationOf l (.error e)) := by
  obtain ⟨o, -, rfl⟩ := analyze_eq_ok_iff.1 h
  refine ⟨explanation_ofOutline_prompt o, fun l e heq => ?_⟩
  rw [explanation_ofOutline_prompt] at heq
  exact trim_prompt_ne_error o l e (Option.some.inj heq)

/-! ## Outcomes -/

/-- A blank source, one that is written in neither language and a deck without an
EXEC card are refused, and every other source is analyzed, with any explainer or
none. The explainer has no say in anything but the explanation. An analysis is
in the detected language, programs are summarized and decks are not, and what
the prompt explainer gives is the prompt and never an error. -/
theorem analyze_outcomes (source : String) (explainer : Option Explainer) :
    (analyze source explainer = .error .emptyInput ↔ allBlank source.toList = true) ∧
    (analyze source explainer = .error .unknownLanguage ↔
      allBlank source.toList = false ∧ detect source = none) ∧
    (analyze source explainer = .error (.read .noExecSteps) ↔
      detect source = some .jcl ∧
        ∀ line ∈ splitLines source.toList, Jcl.isStepLine line = false) ∧
    ((∃ a, analyze source explainer = .ok a) ∨
      analyze source explainer = .error .emptyInput ∨
      analyze source explainer = .error .unknownLanguage ∨
      analyze source explainer = .error (.read .noExecSteps)) ∧
    (analyze source explainer).map withoutExplanation = analyze source none ∧
    (∀ a, analyze source explainer = .ok a → Accounts source explainer a) ∧
    ∀ a, analyze source (some .prompt) = .ok a →
      a.explanation = some (String.ofList (trim (Prompt.ofOutline a.outline).toList)) ∧
        ∀ l e, a.explanation ≠ some (explanationOf l (.error e)) := by
  refine ⟨?_, ?_, ?_, ?_, map_withoutExplanation_analyze source explainer,
    fun a h => accounts_analyze h, fun a h => explanation_prompt h⟩
  · rw [analyze_eq_error_iff]
    exact ⟨fun | .emptyInput hblank => hblank, .emptyInput⟩
  · rw [analyze_eq_error_iff]
    exact ⟨fun | .unknownLanguage hblank hnone => ⟨hblank, hnone⟩,
      fun h => .unknownLanguage h.1 h.2⟩
  · rw [analyze_eq_error_iff]
    exact ⟨fun | .noExecSteps hl hlines => ⟨hl, hlines⟩, fun h => .noExecSteps h.1 h.2⟩
  · cases hresult : analyze source explainer with
    | ok a => exact .inl ⟨a, rfl⟩
    | error e =>
      -- there is no fourth reason
      cases analyze_eq_error_iff.1 hresult with
      | emptyInput => exact .inr (.inl rfl)
      | unknownLanguage => exact .inr (.inr (.inl rfl))
      | noExecSteps => exact .inr (.inr (.inr rfl))

/-- The outline of a deck that is one step. -/
def oneStep : Jcl.Outline :=
  { job := none
    steps := [⟨"S", some "P", none, none, [], "//S EXEC PGM=P"⟩]
    datasets := []
    warnings := [Jcl.Outline.noJobWarning] }

/-- A deck that is one step is analyzed, and its explanation is its prompt. -/
theorem analyze_oneStep :
    analyze "//S EXEC PGM=P" (some .prompt) =
        .ok (ofOutline .jcl (.jcl oneStep) (some .prompt)) ∧
      Accounts "//S EXEC PGM=P" (some .prompt) (ofOutline .jcl (.jcl oneStep) (some .prompt)) ∧
      (ofOutline .jcl (.jcl oneStep) (some .prompt)).explanation =
        some (String.ofList (trim (Prompt.ofDeck oneStep).toList)) := by
  have hdetected : Detected "//S EXEC PGM=P" (.jcl oneStep) :=
    ⟨by decide +kernel, by decide +kernel⟩
  have hanalysis : analyze "//S EXEC PGM=P" (some .prompt) =
      .ok (ofOutline .jcl (.jcl oneStep) (some .prompt)) :=
    analyze_eq_ok_iff.2 ⟨_, hdetected, rfl⟩
  have houtcomes := analyze_outcomes "//S EXEC PGM=P" (some .prompt)
  exact ⟨hanalysis, houtcomes.2.2.2.2.2.1 _ hanalysis, (houtcomes.2.2.2.2.2.2 _ hanalysis).1⟩

end Analysis

end Mainframe
