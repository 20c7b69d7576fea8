import Mainframe.Proofs.CardLines
import Mainframe.Proofs.DetectionCoverage
import Mainframe.Proofs.RelayedReport

/-
  EXEC cards as they are detected and as they are read.

  Detection looks at a source in upper case and at its lines as they stand, so a
  step in small letters and one whose line ends with EXEC and a space count as
  steps. A deck is read as it is written and without the blanks at the ends of
  its lines: to the reader neither of the two is an EXEC card. These are the
  only differences. A line that detection takes for an EXEC card and that is
  written in capitals, with something behind the word, is a step of the analysis
  of its source.

  What is proved:
    1. `uppercase_eq_slash_cons`: a slash in upper case was a slash.
    2. `isStepLine_of_looksLikeStep`: what a line that is detected as an EXEC
       card lacks to be read as one.
    3. `looksLikeStep_read_iff`: when it becomes a step of the analysis.
-/

namespace Mainframe

open Text

/-! ## Slashes -/

theorem uppercase_eq_slash_cons {s t : List Char} (h : uppercase s = '/' :: t) :
    ∃ rest, s = '/' :: rest ∧ uppercase rest = t := by
  cases s with
  | nil => cases h
  | cons c s =>
    rw [uppercase_cons] at h
    cases hupper : upperChars c with
    | nil => exact absurd hupper (upperChars_ne_nil c)
    | cons d ds =>
      rw [hupper] at h
      obtain ⟨rfl, htail⟩ := List.cons.inj h
      have hslash : '/' ∈ upperChars c := hupper ▸ List.mem_cons_self
      obtain rfl := eq_of_mem_upperChars (by decide) (by decide) hslash
      have hnil : ds = [] := (List.cons.inj hupper).2.symm
      rw [hnil] at htail
      exact ⟨s, rfl, htail⟩

/-- A line that names a card in upper case starts with slashes. -/
theorem slashes_of_isNamedCard {line : List Char} (h : isNamedCard (uppercase line) = true) :
    ∃ rest, line = '/' :: '/' :: rest := by
  unfold isNamedCard at h
  split at h
  next c rest hupper =>
    obtain ⟨tail, rfl, htail⟩ := uppercase_eq_slash_cons hupper
    obtain ⟨name, rfl, -⟩ := uppercase_eq_slash_cons htail
    exact ⟨name, rfl⟩
  next => cases h

/-! ## Lines that look like EXEC cards -/

/-- Whether the line looks like an EXEC card to detection: in upper case, it
starts with two slashes and a word character and contains EXEC, but not JOB,
between two spaces. -/
def looksLikeStep (line : List Char) : Bool :=
  isNamedCard (uppercase line) && contains " EXEC ".toList (uppercase line)
    && !contains " JOB ".toList (uppercase line)

theorem looksLikeStep_iff {line : List Char} :
    looksLikeStep line = true ↔
      isNamedCard (uppercase line) = true ∧ contains " EXEC ".toList (uppercase line) = true ∧
        contains " JOB ".toList (uppercase line) = false := by
  rw [looksLikeStep, Bool.and_eq_true, Bool.and_eq_true, Bool.not_eq_true', and_assoc]

/-- A line that looks like an EXEC card is written as one if and only if EXEC is
written in capitals, and not at the end of the line. -/
theorem isStepLine_of_looksLikeStep {line : List Char} (h : looksLikeStep line = true) :
    Jcl.isStepLine line = contains " EXEC ".toList (trimEnd line) := by
  obtain ⟨hname, -, hjob⟩ := looksLikeStep_iff.1 h
  obtain ⟨rest, hline⟩ := slashes_of_isNamedCard hname
  have hslash : isBlank '/' = false := by decide
  have hmarked : startsWith ['/', '/'] (trimEnd line) = true := by
    rw [hline, trimEnd_cons_of_not_blank hslash, trimEnd_cons_of_not_blank hslash]
    exact startsWith_iff.2 (List.prefix_append ['/', '/'] (trimEnd rest))
  have hnoJob : contains " JOB ".toList (trimEnd line) = false := by
    rw [← Bool.not_eq_true]
    intro hwritten
    have hword := (contains_iff.1 hwritten).trans (prefix_trimEnd line).isInfix
    rw [contains_uppercase (by decide) (contains_iff.2 hword)] at hjob
    cases hjob
  rw [Jcl.isStepLine, hmarked, hnoJob, Bool.true_and, Bool.not_false, Bool.and_true]

/-! ## Steps of an analysis -/

/-- Every EXEC card opens a step that keeps it. -/
theorem Jcl.exists_step_of_exec {cards : List (List Char)} {card : List Char}
    (hcard : card ∈ cards) (hexec : cardKind card = .exec) :
    ∃ step ∈ stepsOf cards, step.raw = String.ofList card := by
  obtain ⟨front, behind, rfl⟩ := List.append_of_mem hcard
  rw [stepsOf_append_exec hexec, stepsOf, if_pos hexec]
  exact ⟨_, List.mem_append_right _ List.mem_cons_self, rfl⟩

/-- A line that is written as an EXEC card is a step of the outline. -/
theorem Jcl.exists_step_of_isStepLine {source : String} {line : List Char}
    (hline : line ∈ splitLines source.toList) (hstep : isStepLine line = true) :
    ∃ deck, outline source = .ok deck ∧
      ∃ step ∈ deck.steps, step.raw = String.ofList (trimEnd line) := by
  obtain ⟨hmarked, hexec⟩ := isStepLine_iff.1 hstep
  have hcard : trimEnd line ∈ cards source.toList := mem_cards_iff.2 ⟨⟨line, hline, rfl⟩, hmarked⟩
  cases hread : outline source with
  | error e =>
    have hnone := (outline_eq_error_iff.1 hread).2 line hline
    rw [hstep] at hnone
    cases hnone
  | ok deck =>
    refine ⟨deck, rfl, ?_⟩
    rw [steps_of_outline hread]
    exact exists_step_of_exec hcard hexec

theorem Outline.ofSource_eq_deck_iff {source : String} {deck : Jcl.Outline} :
    Outline.ofSource .jcl source = .ok (.jcl deck) ↔ Jcl.outline source = .ok deck := by
  cases hread : Jcl.outline source with
  | error e => simp [ofSource, hread, Except.map]
  | ok d => simp [ofSource, hread, Except.map]

/-- A source with a line that looks like an EXEC card is detected as a deck. Its
analysis succeeds, with that line as one of the steps, if and only if the line,
as it is written and without the blanks at its end, contains EXEC too. -/
theorem looksLikeStep_read_iff {source : String} {line : List Char} (explainer : Option Explainer)
    (hline : line ∈ splitLines source.toList) (hlooks : looksLikeStep line = true) :
    detect source = some .jcl ∧
      (contains " EXEC ".toList (trimEnd line) = true ↔
        ∃ a deck, Analysis.analyze source explainer = .ok a ∧ a.outline = .jcl deck ∧
          ∃ step ∈ deck.steps, step.raw = String.ofList (trimEnd line)) := by
  obtain ⟨hname, hword, -⟩ := looksLikeStep_iff.1 hlooks
  have hdetect : detect source = some .jcl := detect_of_line hline hname hword
  refine ⟨hdetect, ?_⟩
  constructor
  · intro hexec
    rw [← isStepLine_of_looksLikeStep hlooks] at hexec
    obtain ⟨deck, hread, hstep⟩ := Jcl.exists_step_of_isStepLine hline hexec
    have houtline := Outline.ofSource_eq_deck_iff.2 hread
    exact ⟨_, deck, Analysis.analyze_eq_ok_iff.2 ⟨_, detected_of_ofSource hdetect houtline, rfl⟩,
      rfl, hstep⟩
  · rintro ⟨a, deck, hanalysis, houtline, step, hstep, hraw⟩
    obtain ⟨o, hdetected, rfl⟩ := Analysis.analyze_eq_ok_iff.1 hanalysis
    have ho : o = .jcl deck := houtline
    subst ho
    have hread : Jcl.outline source = .ok deck :=
      Outline.ofSource_eq_deck_iff.1 hdetected.outlined
    rw [Jcl.steps_of_outline hread] at hstep
    obtain ⟨card, -, hexec, hcard⟩ := Jcl.exec_of_mem_stepsOf hstep
    have hsame : card = trimEnd line := String.ofList_inj.1 (hcard.symm.trans hraw)
    rw [← hsame]
    exact Jcl.contains_of_exec hexec

/-- A deck with three lines that look like EXEC cards. Only the second is one. -/
def unevenDeck : String := "//a exec pgm=X\n//b EXEC PGM=Y \u00A0\r\n//C EXEC \n"

/-- The line in capitals is a step of the uneven deck. -/
theorem unevenDeck_read :
    "//b EXEC PGM=Y \u00A0\r".toList ∈ splitLines unevenDeck.toList ∧
      looksLikeStep "//b EXEC PGM=Y \u00A0\r".toList = true ∧
      detect unevenDeck = some .jcl ∧
      ∃ a deck, Analysis.analyze unevenDeck (some .prompt) = .ok a ∧ a.outline = .jcl deck ∧
        ∃ step ∈ deck.steps, step.raw = "//b EXEC PGM=Y" := by
  have hline : "//b EXEC PGM=Y \u00A0\r".toList ∈ splitLines unevenDeck.toList := by
    decide +kernel
  have hlooks : looksLikeStep "//b EXEC PGM=Y \u00A0\r".toList = true := by decide +kernel
  have hwritten : String.ofList (trimEnd "//b EXEC PGM=Y \u00A0\r".toList) = "//b EXEC PGM=Y" := by
    decide +kernel
  obtain ⟨hdetect, hread⟩ := looksLikeStep_read_iff (some .prompt) hline hlooks
  rw [hwritten] at hread
  exact ⟨hline, hlooks, hdetect, hread.1 (by decide +kernel)⟩

/-- A deck whose step is in small letters is detected, and is refused as one in
which nothing runs. -/
theorem detected_but_not_read :
    detect "//S1 exec PGM=X" = some .jcl ∧
      (∃ line ∈ splitLines "//S1 exec PGM=X".toList, looksLikeStep line = true) ∧
      Analysis.analyze "//S1 exec PGM=X" none = .error (.read .noExecSteps) := by
  decide +kernel

/-- So is a deck whose only step ends with EXEC. -/
example :
    detect "//S1 EXEC " = some .jcl ∧
      Analysis.analyze "//S1 EXEC " none = .error (.read .noExecSteps) := by
  decide +kernel

end Mainframe
