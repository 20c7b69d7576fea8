import Mainframe.Proofs.DeckGrouping
import Mainframe.Proofs.LayoutEdits

/-
  The cards of a deck, line by line.

  The cards are the trimmed lines that start with two slashes, wherever the
  lines come from, and what is said of a card can be said of its line.

  What is proved:
    1. `cards_joinLines_eq_filter`: the cards of a deck that is given by its
       lines.
    2. `exists_exec_iff`: a deck has an EXEC card if and only if one of its
       lines is written as one.
    3. `outline_eq_error_iff`: when a deck has no outline, and why.
-/

namespace Mainframe.Jcl

open Mainframe.Text

/-! ## Cards and lines -/

/-- The cards of a deck that is given by its lines. There need not be any. -/
theorem cards_joinLines_eq_filter {lines : List (List Char)} (h : ∀ line ∈ lines, '\n' ∉ line) :
    cards (joinLines lines) = (lines.map trimEnd).filter (startsWith ['/', '/']) := by
  by_cases hnil : lines = []
  · rw [hnil]
    rfl
  · rw [cards_eq_filter, splitLines_joinLines hnil h]

theorem mem_cards_iff {deck card : List Char} :
    card ∈ cards deck ↔
      (∃ line ∈ splitLines deck, trimEnd line = card) ∧ startsWith ['/', '/'] card = true := by
  rw [cards_eq_filter, List.mem_filter, List.mem_map]

/-! ## EXEC cards -/

theorem cardKind_eq_exec_iff {card : List Char} :
    cardKind card = .exec ↔
      contains " EXEC ".toList card = true ∧ contains " JOB ".toList card = false := by
  unfold cardKind
  cases contains " JOB ".toList card <;> cases contains " EXEC ".toList card <;>
    cases contains " DD ".toList card <;> decide

/-- Whether the line is written as an EXEC card: without the blanks at its end,
it starts with two slashes and contains EXEC, but not JOB, between two spaces. -/
def isStepLine (line : List Char) : Bool :=
  startsWith ['/', '/'] (trimEnd line) && contains " EXEC ".toList (trimEnd line)
    && !contains " JOB ".toList (trimEnd line)

theorem isStepLine_iff {line : List Char} :
    isStepLine line = true ↔
      startsWith ['/', '/'] (trimEnd line) = true ∧ cardKind (trimEnd line) = .exec := by
  rw [cardKind_eq_exec_iff, isStepLine, Bool.and_eq_true, Bool.and_eq_true, Bool.not_eq_true',
    and_assoc]

theorem exists_exec_iff (deck : List Char) :
    (∃ card ∈ cards deck, cardKind card = .exec) ↔
      ∃ line ∈ splitLines deck, isStepLine line = true := by
  constructor
  · rintro ⟨card, hcard, hexec⟩
    obtain ⟨⟨line, hline, rfl⟩, hmarked⟩ := mem_cards_iff.1 hcard
    exact ⟨line, hline, isStepLine_iff.2 ⟨hmarked, hexec⟩⟩
  · rintro ⟨line, hline, hstep⟩
    obtain ⟨hmarked, hexec⟩ := isStepLine_iff.1 hstep
    exact ⟨trimEnd line, mem_cards_iff.2 ⟨⟨line, hline, rfl⟩, hmarked⟩, hexec⟩

/-! ## Decks without an outline -/

theorem steps_ofCards_eq_nil_iff {cards : List (List Char)} :
    (Outline.ofCards cards).steps = [] ↔ ∀ card ∈ cards, cardKind card ≠ .exec := by
  rw [(reflects_ofCards cards).steps, ← List.length_eq_zero_iff, length_stepsOf,
    List.length_eq_zero_iff, cardsOf_eq_nil_iff]

theorem checked_eq_error_iff {o : Outline} {e : ReadError} :
    o.checked = .error e ↔ e = .noExecSteps ∧ o.steps = [] := by
  rw [Outline.checked, ← List.isEmpty_iff]
  split
  next hempty => simp [hempty, eq_comm]
  next hsteps => simp [hsteps]

/-- A deck has no outline if and only if none of its lines is written as an EXEC
card, and that is the only reason. -/
theorem outline_eq_error_iff {deck : String} {e : ReadError} :
    outline deck = .error e ↔
      e = .noExecSteps ∧ ∀ line ∈ splitLines deck.toList, isStepLine line = false := by
  have hcards : (∀ card ∈ cards deck.toList, cardKind card ≠ .exec) ↔
      ∀ line ∈ splitLines deck.toList, isStepLine line = false := by
    have hexec := not_congr (exists_exec_iff deck.toList)
    simpa only [not_exists, not_and, Bool.not_eq_true] using hexec
  rw [outline, checked_eq_error_iff, steps_ofCards_eq_nil_iff, hcards]

end Mainframe.Jcl
