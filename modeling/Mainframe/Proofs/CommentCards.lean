import Mathlib.Data.List.Basic
import Mainframe.Proofs.CardLines
import Mainframe.Proofs.KeptCards

/-
  Comments in a deck.

  A comment is a line that starts with two slashes and an asterisk. The reader
  of a deck does not look for the asterisk: to it a comment is a card like any
  other, and the words on it decide what it does. So a comment can become the
  job, a step or a data definition, and deleting it then changes the outline.

  An outline keeps the texts of its cards, and it keeps one for everything that
  it was made of. If none of them is a comment, then all comments were cards
  that are read and dropped again, and deleting them changes nothing. If one of
  them is, then it cannot be in the outline of a deck without comments.

  What is proved:
    1. `cards_withoutComments`: the cards of the deck without its comments.
    2. `keptCards_filter`: cards that are not kept may be left out.
    3. `outline_withoutComments_iff`: a deck has the same outline without its
       comments if and only if its outline keeps no comment.
-/

namespace Mainframe.Jcl

open Mainframe.Text

/-! ## Comments -/

/-- Whether the line is a comment. -/
def isComment (line : List Char) : Bool := startsWith ['/', '/', '*'] line

/-- The deck without the lines that are comments. -/
def withoutComments (deck : String) : String :=
  String.ofList (joinLines ((splitLines deck.toList).filter (fun line => !isComment line)))

/-- What a text starts with is not trimmed, unless it is blank. -/
theorem startsWith_trimEnd {word : List Char} (hword : ∀ c ∈ word, isBlank c = false)
    (s : List Char) : startsWith word (trimEnd s) = startsWith word s := by
  induction word generalizing s with
  | nil => rfl
  | cons w word ih =>
    cases s with
    | nil => rfl
    | cons c s =>
      by_cases hc : w = c
      · subst hc
        have hrest := ih (fun d hd => hword d (List.mem_cons_of_mem w hd)) s
        rw [trimEnd_cons_of_not_blank (hword w List.mem_cons_self)]
        simpa [startsWith, after?] using hrest
      · rw [trimEnd_cons]
        split <;> simp [startsWith, after?, hc]

theorem isComment_trimEnd (line : List Char) : isComment (trimEnd line) = isComment line := by
  have hslash : isBlank '/' = false := by decide
  have hstar : isBlank '*' = false := by decide
  exact startsWith_trimEnd (by simp [hslash, hstar]) line

theorem cards_withoutComments (deck : String) :
    cards (withoutComments deck).toList =
      (cards deck.toList).filter (fun card => !isComment card) := by
  have hfeed : ∀ line ∈ (splitLines deck.toList).filter (fun line => !isComment line),
      '\n' ∉ line :=
    fun line hline => newline_not_mem_splitLines deck.toList line (List.mem_filter.1 hline).1
  have htrim : (fun line => !isComment line) ∘ trimEnd = fun line => !isComment line := by
    funext line
    show (!isComment (trimEnd line)) = !isComment line
    rw [isComment_trimEnd]
  rw [withoutComments, String.toList_ofList, cards_joinLines_eq_filter hfeed, cards_eq_filter,
    List.filter_comm, List.filter_map (p := fun line => !isComment line), htrim]

/-! ## Cards that may be left out -/

theorem getLast?_filter_of_pos {α : Type} {keep : α → Bool} {as : List α}
    (h : ∀ a ∈ as.getLast?, keep a = true) : (as.filter keep).getLast? = as.getLast? := by
  rw [← List.head?_reverse] at h
  rw [List.getLast?_filter, ← List.head?_reverse]
  cases hback : as.reverse with
  | nil => rfl
  | cons last front =>
    rw [hback] at h
    exact List.find?_cons_of_pos (h last rfl)

section LeftOut

variable {keep : List Char → Bool} {cards : List (List Char)}

theorem stepCards_filter (h : ∀ card ∈ stepCards cards, keep card = true) :
    stepCards (cards.filter keep) = stepCards cards := by
  induction cards with
  | nil => rfl
  | cons card cards ih =>
    by_cases hexec : cardKind card = .exec
    · rw [stepCards_of_exec hexec] at h ⊢
      have hrest : (cards.filter isStepCard).filter keep = cards.filter isStepCard :=
        List.filter_eq_self.2 (fun c hc => h c (List.mem_cons_of_mem card hc))
      rw [List.filter_cons_of_pos (h card List.mem_cons_self), stepCards_of_exec hexec,
        List.filter_comm, hrest]
    · -- the card is dropped in front of the first EXEC card, whether it is left out or not
      rw [stepCards_cons_of_ne hexec] at h ⊢
      rw [List.filter_cons]
      split
      · rw [stepCards_cons_of_ne hexec, ih h]
      · exact ih h

theorem keptCards_filter (h : ∀ card ∈ keptCards cards, keep card = true) :
    keptCards (cards.filter keep) = keptCards cards := by
  have hjob : ∀ card ∈ (cardsOf .job cards).getLast?, keep card = true :=
    fun card hc => h card (List.mem_append_left _ (Option.mem_toList.2 hc))
  have hsteps : ∀ card ∈ stepCards cards, keep card = true :=
    fun card hc => h card (List.mem_append_right _ hc)
  have hcards : cardsOf .job (cards.filter keep) = (cardsOf .job cards).filter keep :=
    List.filter_comm ..
  rw [keptCards, hcards, getLast?_filter_of_pos hjob, stepCards_filter hsteps, keptCards]

theorem ofCards_filter (h : ∀ card ∈ keptCards cards, keep card = true) :
    Outline.ofCards (cards.filter keep) = Outline.ofCards cards := by
  rw [← ofCards_keptCards, keptCards_filter h, ofCards_keptCards]

end LeftOut

/-! ## Outlines without comments -/

theorem rawCards_of_outline {deck : String} {o : Outline} (h : outline deck = .ok o) :
    o.rawCards = (keptCards (cards deck.toList)).map String.ofList := by
  rw [rawCards_of_checked h, rawCards_of_reflects (reflects_ofCards _)]

theorem outline_withoutComments {deck : String}
    (h : ∀ card ∈ keptCards (cards deck.toList), isComment card = false) :
    outline (withoutComments deck) = outline deck := by
  have hkeep : ∀ card ∈ keptCards (cards deck.toList), (!isComment card) = true := by
    intro card hcard
    rw [h card hcard]
    rfl
  rw [outline, cards_withoutComments, ofCards_filter hkeep, outline]

/-- A deck without an outline has none without its comments. -/
theorem outline_withoutComments_of_error {deck : String} {e : ReadError}
    (h : outline deck = .error e) : outline (withoutComments deck) = .error e := by
  rw [outline, checked_eq_error_iff, steps_ofCards_eq_nil_iff] at h ⊢
  rw [cards_withoutComments]
  exact ⟨h.1, fun card hcard => h.2 card (List.mem_filter.1 hcard).1⟩

/-- A deck and the deck without its comments have the same outline, or are
refused for the same reason, if and only if no comment is kept in the outline as
the card of a job, a step or a data definition. -/
theorem outline_withoutComments_iff (deck : String) :
    outline (withoutComments deck) = outline deck ↔
      ∀ o, outline deck = .ok o → ∀ raw ∈ o.rawCards, isComment raw.toList = false := by
  constructor
  · intro hsame o ho raw hraw
    rw [ho] at hsame
    rw [rawCards_of_outline hsame, cards_withoutComments] at hraw
    obtain ⟨card, hcard, rfl⟩ := List.mem_map.1 hraw
    have hkept : (!isComment card) = true :=
      (List.mem_filter.1 (mem_of_mem_keptCards hcard)).2
    rw [Bool.not_eq_true'] at hkept
    rwa [String.toList_ofList]
  · intro h
    cases ho : outline deck with
    | error e => exact outline_withoutComments_of_error ho
    | ok o =>
      have hraw := h o ho
      rw [rawCards_of_outline ho] at hraw
      have hkept : ∀ card ∈ keptCards (cards deck.toList), isComment card = false := by
        intro card hcard
        have hcomment := hraw _ (List.mem_map_of_mem hcard)
        rwa [String.toList_ofList] at hcomment
      rw [← ho, outline_withoutComments hkept]

/-- A deck with comments that speak of jobs, steps and data, all of them where
nothing is made of them. -/
def annotatedDeck : String :=
  "//* EARLIER JOB CLASS=Z\n//J JOB CLASS=A\n//* LOST DD DSN=X\n//S EXEC PGM=P\n" ++
    "//*EXEC PGM=Q\n//D DD DSN=A\n//* LAST JOB"

theorem annotatedDeck_withoutComments :
    withoutComments annotatedDeck = "//J JOB CLASS=A\n//S EXEC PGM=P\n//D DD DSN=A" ∧
      (∀ o, outline annotatedDeck = .ok o → ∀ raw ∈ o.rawCards, isComment raw.toList = false) ∧
      outline (withoutComments annotatedDeck) = outline annotatedDeck := by
  have hread : outline annotatedDeck = .ok
      { job := some ⟨"J", some "A", none, none, "//J JOB CLASS=A"⟩
        steps := [⟨"S", some "P", none, none,
          [⟨"D", some "A", none, .dataset, "//D DD DSN=A"⟩], "//S EXEC PGM=P"⟩]
        datasets := ["A"]
        warnings := [] } := by decide +kernel
  have hkept : ∀ o, outline annotatedDeck = .ok o →
      ∀ raw ∈ o.rawCards, isComment raw.toList = false := by
    intro o ho
    rw [← Except.ok.inj (hread.symm.trans ho)]
    decide
  exact ⟨by decide +kernel, hkept, (outline_withoutComments_iff annotatedDeck).2 hkept⟩

/-- A comment that speaks of a job becomes the job of the deck. -/
theorem comment_read_as_job :
    outline (withoutComments "//S EXEC PGM=P\n//* THE NEXT JOB RUNS LATE") ≠
      outline "//S EXEC PGM=P\n//* THE NEXT JOB RUNS LATE" := by
  decide +kernel

end Mainframe.Jcl
