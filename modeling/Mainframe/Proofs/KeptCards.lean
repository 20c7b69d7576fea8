import Mathlib.Data.List.TakeWhile
import Mainframe.Proofs.DeckGrouping
import Mainframe.Proofs.NormalizedText

/-
  A deck rebuilt from the cards that its outline has kept.

  An outline keeps the text of the card of its job, of every step and of every
  data definition. Written in this order, one card on a line, they are a deck
  again. Of the deck that was read it has the last JOB card, moved to the front,
  and the EXEC and DD cards from the first EXEC card on, in their order. What it
  does not have, which is earlier JOB cards, DD cards in front of the first EXEC
  card, ignored cards and lines that are no cards, has left no trace in the
  outline.

  What is proved:
    1. `cards_joinLines`: cards that are written line by line are read back as
       they were, whatever blanks and returns they hold.
    2. `stepsOf_keptCards` and `job_keptCards`: the kept cards have the steps
       and the job of all cards.
    3. `rawCards_of_reflects`: the texts in an outline are the kept cards.
    4. `outline_rawDeck`: a deck and the one that is rebuilt from its outline
       have the same outline.
-/

namespace Mainframe.Text

/-! ## Lines that survive being joined and read -/

theorem trimEnd_trimEnd (s : List Char) : trimEnd (trimEnd s) = trimEnd s := by
  induction s with
  | nil => rfl
  | cons c s ih =>
    rw [trimEnd_cons]
    split
    next => rfl
    next hkept => rw [trimEnd_cons, ih, if_neg hkept]

/-- A trimmed text does not end with a blank. -/
theorem not_blank_of_getLast?_trimEnd {s : List Char} {c : Char}
    (h : (trimEnd s).getLast? = some c) : isBlank c = false := by
  induction s with
  | nil => simp at h
  | cons d s ih =>
    rw [trimEnd_cons] at h
    split at h
    next => simp at h
    next hkept =>
      cases hs : trimEnd s with
      | nil =>
        rw [hs, List.getLast?_singleton] at h
        rw [hs] at hkept
        simpa [Option.some.inj h] using hkept
      | cons e rest =>
        rw [hs, List.getLast?_cons_cons, ← hs] at h
        exact ih h

/-- Lines with something on them, and no return at the end, lose nothing. -/
theorem endedLines_eq_self {lines : List (List Char)} (hne : ∀ line ∈ lines, line ≠ [])
    (hreturn : ∀ line ∈ lines, line.getLast? ≠ some '\r') : endedLines lines = lines := by
  induction lines with
  | nil => rfl
  | cons line lines ih =>
    cases lines with
    | nil => simp [endedLines, hne line List.mem_cons_self]
    | cons next rest =>
      rw [endedLines, dropReturn, if_neg (hreturn line List.mem_cons_self),
        ih (fun l hl => hne l (List.mem_cons_of_mem line hl))
          (fun l hl => hreturn l (List.mem_cons_of_mem line hl))]

theorem textLines_joinLines {lines : List (List Char)} (hfeed : ∀ line ∈ lines, '\n' ∉ line)
    (hne : ∀ line ∈ lines, line ≠ []) (hreturn : ∀ line ∈ lines, line.getLast? ≠ some '\r') :
    textLines (joinLines lines) = lines := by
  by_cases hnil : lines = []
  · rw [hnil]
    rfl
  · rw [textLines, splitLines_joinLines hnil hfeed, endedLines_eq_self hne hreturn]

theorem newline_not_mem_dropReturn {line : List Char} (h : '\n' ∉ line) :
    '\n' ∉ dropReturn line := by
  unfold dropReturn
  split
  next => exact fun hm => h (List.dropLast_subset line hm)
  next => exact h

theorem newline_not_mem_endedLines {lines : List (List Char)} (h : ∀ line ∈ lines, '\n' ∉ line) :
    ∀ line ∈ endedLines lines, '\n' ∉ line := by
  induction lines with
  | nil => simp [endedLines]
  | cons line lines ih =>
    intro l hl
    cases lines with
    | nil =>
      rw [endedLines] at hl
      split at hl
      next => cases hl
      next => exact h l hl
    | cons next rest =>
      rcases List.mem_cons.1 hl with rfl | hl
      · exact newline_not_mem_dropReturn (h line List.mem_cons_self)
      · exact ih (fun k hk => h k (List.mem_cons_of_mem line hk)) l hl

theorem newline_not_mem_textLines (s : List Char) : ∀ line ∈ textLines s, '\n' ∉ line :=
  newline_not_mem_endedLines (newline_not_mem_splitLines s)

end Mainframe.Text

namespace Mainframe.Jcl

open Mainframe.Text

/-! ## Cards as lines -/

/-- The text is a card: it starts with two slashes, no blank stands at its end
and no line feed in it. -/
structure IsCard (card : List Char) : Prop where
  oneLine : '\n' ∉ card
  trimmed : trimEnd card = card
  marked : startsWith ['/', '/'] card = true

theorem isCard_of_mem_cards {deck card : List Char} (h : card ∈ cards deck) : IsCard card := by
  obtain ⟨hline, hmarked⟩ := List.mem_filter.1 h
  obtain ⟨line, hmem, rfl⟩ := List.mem_map.1 hline
  refine ⟨?_, trimEnd_trimEnd line, hmarked⟩
  exact fun hm => newline_not_mem_textLines deck line hmem (mem_of_mem_trimEnd hm)

theorem IsCard.ne_nil {card : List Char} (h : IsCard card) : card ≠ [] := by
  intro hnil
  have hmarked := h.marked
  rw [hnil] at hmarked
  cases hmarked

theorem IsCard.getLast?_ne_return {card : List Char} (h : IsCard card) :
    card.getLast? ≠ some '\r' := by
  intro hlast
  rw [← h.trimmed] at hlast
  have hblank := not_blank_of_getLast?_trimEnd hlast
  cases hblank

theorem cards_joinLines {lines : List (List Char)} (h : ∀ line ∈ lines, IsCard line) :
    cards (joinLines lines) = lines := by
  have hlines : textLines (joinLines lines) = lines :=
    textLines_joinLines (fun l hl => (h l hl).oneLine) (fun l hl => (h l hl).ne_nil)
      (fun l hl => (h l hl).getLast?_ne_return)
  have htrim : lines.map trimEnd = lines := by
    calc lines.map trimEnd = lines.map id := List.map_congr_left (fun l hl => (h l hl).trimmed)
      _ = lines := List.map_id lines
  rw [cards, hlines, htrim, List.filter_eq_self]
  exact fun l hl => (h l hl).marked

/-! ## The kept cards -/

/-- Whether the card opens a step or defines data. -/
def isStepCard (card : List Char) : Bool := cardKind card == .exec || cardKind card == .dd

/-- The cards of the steps: the EXEC and DD cards from the first EXEC card on. -/
def stepCards (cards : List (List Char)) : List (List Char) :=
  (cards.dropWhile staysInStep).filter isStepCard

/-- The cards that an outline keeps: the last JOB card, and the cards of the
steps. -/
def keptCards (cards : List (List Char)) : List (List Char) :=
  (cardsOf .job cards).getLast?.toList ++ stepCards cards

theorem isStepCard_of_exec {card : List Char} (h : cardKind card = .exec) :
    isStepCard card = true := by
  simp [isStepCard, h]

theorem isStepCard_of_job {card : List Char} (h : cardKind card = .job) :
    isStepCard card = false := by
  simp [isStepCard, h]

/-- In a block, only the DD cards are cards of a step. -/
theorem filter_isStepCard_block {block : List (List Char)}
    (h : ∀ card ∈ block, cardKind card ≠ .exec) : block.filter isStepCard = cardsOf .dd block := by
  apply List.filter_congr
  intro card hcard
  rw [isStepCard, beq_eq_false_iff_ne.2 (h card hcard), Bool.false_or]

theorem cardKind_of_mem_takeWhile {cards : List (List Char)} {card : List Char}
    (h : card ∈ cards.takeWhile staysInStep) : cardKind card ≠ .exec := by
  intro hexec
  have hstays := List.mem_takeWhile_imp h
  rw [staysInStep_eq_false hexec] at hstays
  cases hstays

/-- From an EXEC card on, all EXEC and DD cards are cards of the steps. -/
theorem stepCards_of_exec {exec : List Char} (hexec : cardKind exec = .exec)
    (cards : List (List Char)) : stepCards (exec :: cards) = exec :: cards.filter isStepCard := by
  rw [stepCards, List.dropWhile_cons, staysInStep_eq_false hexec]
  exact List.filter_cons_of_pos (isStepCard_of_exec hexec)

/-- The cards of the steps, block by block. -/
theorem stepCards_cons_exec {exec : List Char} (hexec : cardKind exec = .exec)
    (cards : List (List Char)) :
    stepCards (exec :: cards) =
      exec :: (cardsOf .dd (cards.takeWhile staysInStep) ++ stepCards cards) := by
  have hblock : (cards.takeWhile staysInStep).filter isStepCard =
      cardsOf .dd (cards.takeWhile staysInStep) :=
    filter_isStepCard_block (fun _ hcard => cardKind_of_mem_takeWhile hcard)
  calc stepCards (exec :: cards) = exec :: cards.filter isStepCard :=
        stepCards_of_exec hexec cards
    _ = exec :: (cards.takeWhile staysInStep ++ cards.dropWhile staysInStep).filter isStepCard := by
        rw [List.takeWhile_append_dropWhile]
    _ = exec :: (cardsOf .dd (cards.takeWhile staysInStep) ++ stepCards cards) := by
        rw [List.filter_append, hblock]
        rfl

theorem stepCards_cons_of_ne {card : List Char} (h : cardKind card ≠ .exec)
    (cards : List (List Char)) : stepCards (card :: cards) = stepCards cards := by
  rw [stepCards, List.dropWhile_cons, staysInStep_eq_true h]
  rfl

/-- What follows the cards of a step is an EXEC card or nothing. -/
theorem cardKind_head?_stepCards (cards : List (List Char)) :
    ∀ card ∈ (stepCards cards).head?, cardKind card = .exec := by
  induction cards with
  | nil => simp [stepCards]
  | cons card cards ih =>
    by_cases h : cardKind card = .exec
    · rw [stepCards_cons_exec h, List.head?_cons]
      intro c hc
      rw [← Option.some.inj hc, h]
    · rw [stepCards_cons_of_ne h]
      exact ih

theorem definitionsOf_cardsOf_dd (cards : List (List Char)) :
    definitionsOf (cardsOf .dd cards) = definitionsOf cards := by
  rw [definitionsOf, cardsOf, cardsOf, List.filter_filter]
  simp only [Bool.and_self]
  rfl

theorem stepsOf_stepCards (cards : List (List Char)) :
    stepsOf (stepCards cards) = stepsOf cards := by
  induction cards with
  | nil => rfl
  | cons card cards ih =>
    by_cases h : cardKind card = .exec
    · -- the DD cards of the block are a block, up to the cards of the next step
      have hblock : ∀ c ∈ cardsOf .dd (cards.takeWhile staysInStep), cardKind c ≠ .exec :=
        fun c hc => cardKind_of_mem_takeWhile ((List.mem_filter.1 hc).1)
      rw [stepCards_cons_exec h, stepsOf_block h hblock (cardKind_head?_stepCards cards), ih,
        stepsOf, if_pos h, stepOf, stepOf, definitionsOf_cardsOf_dd]
    · rw [stepCards_cons_of_ne h, ih, stepsOf, if_neg h]

theorem cardsOf_job_stepCards (cards : List (List Char)) :
    cardsOf .job (stepCards cards) = [] := by
  rw [cardsOf_eq_nil_iff]
  intro card hcard hjob
  have hstep := (List.mem_filter.1 hcard).2
  rw [isStepCard_of_job hjob] at hstep
  cases hstep

theorem cardKind_of_mem_lastJob {cards : List (List Char)} {card : List Char}
    (h : card ∈ (cardsOf .job cards).getLast?) : cardKind card = .job := by
  have hmem := List.mem_of_getLast? h
  exact eq_of_beq (List.mem_filter.1 hmem).2

/-- The JOB card in front of the steps changes none of them. -/
theorem stepsOf_keptCards (cards : List (List Char)) :
    stepsOf (keptCards cards) = stepsOf cards := by
  rw [keptCards]
  cases hlast : (cardsOf .job cards).getLast? with
  | none => exact stepsOf_stepCards cards
  | some job =>
    have hjob := cardKind_of_mem_lastJob (hlast ▸ rfl : job ∈ (cardsOf .job cards).getLast?)
    rw [Option.toList_some, List.singleton_append, stepsOf, if_neg (by simp [hjob]),
      stepsOf_stepCards]

/-- The last JOB card is the only one that is kept. -/
theorem job_keptCards (cards : List (List Char)) :
    cardsOf .job (keptCards cards) = (cardsOf .job cards).getLast?.toList := by
  rw [keptCards, cardsOf_append, cardsOf_job_stepCards, List.append_nil]
  cases hlast : (cardsOf .job cards).getLast? with
  | none => rfl
  | some job =>
    have hjob := cardKind_of_mem_lastJob (hlast ▸ rfl : job ∈ (cardsOf .job cards).getLast?)
    exact cardsOf_singleton_self hjob

theorem mem_of_mem_keptCards {cards : List (List Char)} {card : List Char}
    (h : card ∈ keptCards cards) : card ∈ cards := by
  rcases List.mem_append.1 h with h | h
  · exact (List.mem_filter.1 (List.mem_of_getLast? (Option.mem_toList.1 h))).1
  · exact (List.dropWhile_sublist _).subset (List.mem_filter.1 h).1

/-- The outline that reflects some cards depends on their job and their steps
alone. -/
theorem Reflects.eq_of_same {cards cards' : List (List Char)} {o o' : Outline}
    (h : Reflects cards o) (h' : Reflects cards' o')
    (hjob : (cardsOf .job cards).getLast? = (cardsOf .job cards').getLast?)
    (hsteps : stepsOf cards = stepsOf cards') : o = o' := by
  have hj : o.job = o'.job := by rw [h.job, h'.job, hjob]
  have hs : o.steps = o'.steps := by rw [h.steps, h'.steps, hsteps]
  have hd : o.datasets = o'.datasets := by rw [h.datasets, h'.datasets, hsteps]
  have hw : o.warnings = o'.warnings := by rw [h.warnings, h'.warnings]
  cases o
  cases o'
  simp_all

/-- What is read from the kept cards is what is read from all of them. -/
theorem ofCards_keptCards (cards : List (List Char)) :
    Outline.ofCards (keptCards cards) = Outline.ofCards cards := by
  apply (reflects_ofCards (keptCards cards)).eq_of_same (reflects_ofCards cards)
  · rw [job_keptCards]
    cases (cardsOf .job cards).getLast? <;> rfl
  · exact stepsOf_keptCards cards

/-! ## The rebuilt deck -/

/-- The card of a step, and those of its data definitions. -/
def Step.rawCards (step : Step) : List String :=
  step.raw :: step.definitions.map DataDefinition.raw

/-- The cards that stand in an outline: that of the job, if there is one, and
those of the steps. -/
def Outline.rawCards (o : Outline) : List String :=
  (o.job.map Job.raw).toList ++ o.steps.flatMap Step.rawCards

/-- The deck of the cards that stand in an outline, one on a line. -/
def Outline.rawDeck (o : Outline) : String :=
  String.ofList (joinLines (o.rawCards.map String.toList))

theorem rawCards_stepOf (exec : List Char) (block : List (List Char)) :
    (stepOf exec block).rawCards = (exec :: cardsOf .dd block).map String.ofList := by
  rw [Step.rawCards, stepOf, definitionsOf, List.map_map, List.map_cons]
  rfl

theorem rawCards_stepsOf (cards : List (List Char)) :
    (stepsOf cards).flatMap Step.rawCards = (stepCards cards).map String.ofList := by
  induction cards with
  | nil => rfl
  | cons card cards ih =>
    by_cases h : cardKind card = .exec
    · rw [stepsOf, if_pos h, List.flatMap_cons, rawCards_stepOf, ih, stepCards_cons_exec h,
        ← List.map_append, List.cons_append]
    · rw [stepsOf, if_neg h, ih, stepCards_cons_of_ne h]

theorem rawCards_of_reflects {cards : List (List Char)} {o : Outline} (h : Reflects cards o) :
    o.rawCards = (keptCards cards).map String.ofList := by
  rw [Outline.rawCards, h.job, h.steps, rawCards_stepsOf, keptCards, List.map_append]
  cases (cardsOf .job cards).getLast? <;> rfl

/-- The check adds a warning at most, and that stands on no card. -/
theorem rawCards_of_checked {o checked : Outline} (h : o.checked = .ok checked) :
    checked.rawCards = o.rawCards := by
  unfold Outline.checked at h
  split at h
  next => cases h
  next =>
    rw [← Except.ok.inj h]
    split <;> rfl

/-- A deck and the one that is rebuilt from the cards in its outline have the
same outline. -/
theorem outline_rawDeck {deck : String} {o : Outline} (h : outline deck = .ok o) :
    outline o.rawDeck = .ok o := by
  have hraw : o.rawCards.map String.toList = keptCards (cards deck.toList) := by
    rw [rawCards_of_checked h, rawCards_of_reflects (reflects_ofCards _), List.map_map]
    simp [Function.comp_def]
  have hcards : cards o.rawDeck.toList = keptCards (cards deck.toList) := by
    rw [Outline.rawDeck, String.toList_ofList, hraw]
    exact cards_joinLines (fun card hc => isCard_of_mem_cards (mem_of_mem_keptCards hc))
  rw [outline, hcards, ofCards_keptCards]
  exact h

/-- A deck with its job behind its step, an earlier job, data in front of the
step, a comment, and a return inside a card. -/
def scatteredDeck : String :=
  "//OLD JOB CLASS=Z\n//LOST DD DSN=X\n//S EXEC PGM=P  \r\n//NEW JOB MSGCLASS=H\n" ++
    "//* NOTE\n// EXEC\n//D DD DSN=A\rB,DISP=(OLD\u00A0\n"

/-- The outline of the scattered deck. -/
def scatteredOutline : Outline :=
  { job := some ⟨"NEW", none, some "H", none, "//NEW JOB MSGCLASS=H"⟩
    steps := [⟨"S", some "P", none, none,
      [⟨"D", some "A", some "(OLD", .dataset, "//D DD DSN=A\rB,DISP=(OLD"⟩], "//S EXEC PGM=P"⟩]
    datasets := ["A"]
    warnings := [] }

/-- The scattered deck is rebuilt as one that is in order. -/
theorem rawDeck_of_scatteredDeck :
    outline scatteredDeck = .ok scatteredOutline ∧
      scatteredOutline.rawDeck =
        "//NEW JOB MSGCLASS=H\n//S EXEC PGM=P\n//D DD DSN=A\rB,DISP=(OLD" ∧
      outline scatteredOutline.rawDeck = .ok scatteredOutline := by
  have hread : outline scatteredDeck = .ok scatteredOutline := by decide +kernel
  exact ⟨hread, by decide +kernel, outline_rawDeck hread⟩

end Mainframe.Jcl
