import Mathlib.Data.List.Induction
import Mainframe.Jcl.Deck

/-
  The steps of a deck, said without reading it card by card.

  The cards behind an EXEC card, up to the next one or the end of the deck, are
  the block of that card. The data definitions of a step are the DD cards of its
  block. The reader of a deck keeps one outline and changes it with every card;
  the lemmas say what one more card at the end does to the blocks, and that the
  outline changes in the same way.

  What is proved:
    1. `stepsOf_append_exec` and `stepsOf_concat`: what an EXEC card and what
       any other card does to the steps.
    2. `reflects_addCard` and `reflects_ofCards`: the outline that has been
       built reflects the cards that have been read, card by card and so after
       any number of cards.
    3. `outline_groups_cards`: a deck has an outline if and only if it has an
       EXEC card, and the outline groups the cards of the deck.
-/

namespace Mainframe.Jcl

open Mainframe.Text

/-! ## Cards by kind, and blocks -/

/-- The lines of a deck that start with two slashes, without the blanks at their
ends. -/
def cardLines (deck : List Char) : List (List Char) :=
  ((splitLines deck).map trimEnd).filter (fun line => ['/', '/'].isPrefixOf line)

theorem cards_eq_cardLines (deck : List Char) : cards deck = cardLines deck := by
  have hmark : startsWith ['/', '/'] = fun line => ['/', '/'].isPrefixOf line :=
    funext fun line => Bool.eq_iff_iff.2 (startsWith_iff.trans List.isPrefixOf_iff_prefix.symm)
  rw [cards_eq_filter, cardLines, hmark]

/-- The cards of a kind, from top to bottom. -/
def cardsOf (kind : CardKind) (cards : List (List Char)) : List (List Char) :=
  cards.filter (fun card => cardKind card == kind)

/-- What the DD cards among the cards say. -/
def definitionsOf (cards : List (List Char)) : List DataDefinition :=
  (cardsOf .dd cards).map DataDefinition.ofCard

/-- Whether the card opens no step. -/
def staysInStep (card : List Char) : Bool := cardKind card != .exec

/-- The step of an EXEC card and its block. -/
def stepOf (exec : List Char) (block : List (List Char)) : Step :=
  { Step.ofCard exec with definitions := definitionsOf block }

/-- The steps of the cards: one for each EXEC card, with the block behind it. -/
def stepsOf : List (List Char) → List Step
  | [] => []
  | card :: cards =>
    if cardKind card = .exec then stepOf card (cards.takeWhile staysInStep) :: stepsOf cards
    else stepsOf cards

/-- The datasets that the steps refer to, in order and with repetitions. -/
def datasetsOf (steps : List Step) : List String :=
  steps.flatMap (fun step => step.definitions.filterMap DataDefinition.dataset)

theorem cardsOf_append (kind : CardKind) (cards cards' : List (List Char)) :
    cardsOf kind (cards ++ cards') = cardsOf kind cards ++ cardsOf kind cards' :=
  List.filter_append ..

theorem definitionsOf_append (cards cards' : List (List Char)) :
    definitionsOf (cards ++ cards') = definitionsOf cards ++ definitionsOf cards' := by
  rw [definitionsOf, cardsOf_append, List.map_append]
  rfl

theorem cardsOf_singleton_self {kind : CardKind} {card : List Char} (h : cardKind card = kind) :
    cardsOf kind [card] = [card] := by
  simp [cardsOf, h]

theorem cardsOf_singleton_of_ne {kind : CardKind} {card : List Char} (h : cardKind card ≠ kind) :
    cardsOf kind [card] = [] := by
  simp [cardsOf, h]

theorem cardsOf_eq_nil_iff {kind : CardKind} {cards : List (List Char)} :
    cardsOf kind cards = [] ↔ ∀ card ∈ cards, cardKind card ≠ kind := by
  simp [cardsOf, List.filter_eq_nil_iff]

theorem staysInStep_eq_false {card : List Char} (h : cardKind card = .exec) :
    staysInStep card = false := by
  simp [staysInStep, h]

theorem staysInStep_eq_true {card : List Char} (h : cardKind card ≠ .exec) :
    staysInStep card = true := by
  simp [staysInStep, h]

/-! ## Steps -/

theorem length_stepsOf (cards : List (List Char)) :
    (stepsOf cards).length = (cardsOf .exec cards).length := by
  induction cards with
  | nil => rfl
  | cons card cards ih =>
    by_cases h : cardKind card = .exec
    · simpa [stepsOf, cardsOf, h] using ih
    · simpa [stepsOf, cardsOf, h] using ih

theorem stepsOf_eq_nil {cards : List (List Char)} (h : ∀ card ∈ cards, cardKind card ≠ .exec) :
    stepsOf cards = [] := by
  have hlen := length_stepsOf cards
  rw [cardsOf_eq_nil_iff.2 h] at hlen
  exact List.eq_nil_of_length_eq_zero hlen

theorem takeWhile_append_exec {exec : List Char} (hexec : cardKind exec = .exec)
    (front cards : List (List Char)) :
    (front ++ exec :: cards).takeWhile staysInStep = front.takeWhile staysInStep := by
  induction front with
  | nil => simp [staysInStep_eq_false hexec]
  | cons card front ih => rw [List.cons_append, List.takeWhile_cons, List.takeWhile_cons, ih]

/-- An EXEC card ends the block in front of it. -/
theorem stepsOf_append_exec {exec : List Char} (hexec : cardKind exec = .exec)
    (front cards : List (List Char)) :
    stepsOf (front ++ exec :: cards) = stepsOf front ++ stepsOf (exec :: cards) := by
  induction front with
  | nil => rfl
  | cons card front ih =>
    by_cases h : cardKind card = .exec
    · rw [List.cons_append, stepsOf, if_pos h, stepsOf, if_pos h, takeWhile_append_exec hexec, ih,
        List.cons_append]
    · rw [List.cons_append, stepsOf, if_neg h, stepsOf, if_neg h, ih]

/-- The block of an EXEC card ends where the next EXEC card stands. -/
theorem stepsOf_block {exec : List Char} (hexec : cardKind exec = .exec)
    {block rest : List (List Char)} (hblock : ∀ card ∈ block, cardKind card ≠ .exec)
    (hrest : ∀ card ∈ rest.head?, cardKind card = .exec) :
    stepsOf (exec :: (block ++ rest)) = stepOf exec block :: stepsOf rest := by
  have htake : (block ++ rest).takeWhile staysInStep = block := by
    rw [List.takeWhile_append_of_pos (fun card hc => staysInStep_eq_true (hblock card hc))]
    cases rest with
    | nil => simp
    | cons next rest =>
      have hnext := staysInStep_eq_false (hrest next rfl)
      simp [hnext]
  have hsteps : stepsOf (block ++ rest) = stepsOf rest := by
    cases rest with
    | nil => rw [List.append_nil, stepsOf_eq_nil hblock]; rfl
    | cons next rest =>
      rw [stepsOf_append_exec (hrest next rfl), stepsOf_eq_nil hblock, List.nil_append]
  rw [stepsOf, if_pos hexec, htake, hsteps]

/-- The last EXEC card, if there is one, and its block. -/
theorem exists_last_exec (cards : List (List Char)) :
    (∀ card ∈ cards, cardKind card ≠ .exec) ∨
    ∃ front exec block, cards = front ++ exec :: block ∧ cardKind exec = .exec ∧
      ∀ card ∈ block, cardKind card ≠ .exec := by
  induction cards with
  | nil => exact .inl (fun card hc => absurd hc List.not_mem_nil)
  | cons card cards ih =>
    rcases ih with hnone | ⟨front, exec, block, rfl, hexec, hblock⟩
    · by_cases h : cardKind card = .exec
      · exact .inr ⟨[], card, cards, rfl, h, hnone⟩
      · refine .inl (fun c hc => ?_)
        rcases List.mem_cons.1 hc with rfl | hc
        · exact h
        · exact hnone c hc
    · exact .inr ⟨card :: front, exec, block, rfl, hexec, hblock⟩

theorem noExec_concat {cards : List (List Char)} {card : List Char}
    (hcards : ∀ c ∈ cards, cardKind c ≠ .exec) (hcard : cardKind card ≠ .exec) :
    ∀ c ∈ cards ++ [card], cardKind c ≠ .exec := by
  intro c hc
  rcases List.mem_append.1 hc with hc | hc
  · exact hcards c hc
  · rw [List.mem_singleton.1 hc]
    exact hcard

/-- A card that opens no step changes the last step at most, and there only the
data definitions. -/
theorem stepsOf_concat {card : List Char} (hcard : cardKind card ≠ .exec)
    (cards : List (List Char)) :
    (stepsOf cards = [] ∧ stepsOf (cards ++ [card]) = []) ∨
    ∃ before step, stepsOf cards = before ++ [step] ∧
      stepsOf (cards ++ [card]) =
        before ++ [{ step with definitions := step.definitions ++ definitionsOf [card] }] := by
  rcases exists_last_exec cards with hnone | ⟨front, exec, block, rfl, hexec, hblock⟩
  · exact .inl ⟨stepsOf_eq_nil hnone, stepsOf_eq_nil (noExec_concat hnone hcard)⟩
  · -- the card lengthens the block of the last EXEC card
    have hlast : ∀ b : List (List Char), (∀ c ∈ b, cardKind c ≠ .exec) →
        stepsOf (exec :: b) = [stepOf exec b] := by
      intro b hb
      have hend : ∀ card ∈ ([] : List (List Char)).head?, cardKind card = .exec := by simp
      have hsteps := stepsOf_block hexec hb hend
      rwa [List.append_nil] at hsteps
    refine .inr ⟨stepsOf front, stepOf exec block, ?_, ?_⟩
    · rw [stepsOf_append_exec hexec, hlast block hblock]
    · rw [List.append_assoc, List.cons_append, stepsOf_append_exec hexec,
        hlast (block ++ [card]) (noExec_concat hblock hcard)]
      simp only [stepOf, definitionsOf_append]

theorem stepsOf_concat_exec {exec : List Char} (hexec : cardKind exec = .exec)
    (cards : List (List Char)) :
    stepsOf (cards ++ [exec]) = stepsOf cards ++ [Step.ofCard exec] := by
  rw [stepsOf_append_exec hexec, stepsOf, if_pos hexec]
  rfl

/-- The data definitions of all steps are the DD cards behind the first EXEC
card. -/
theorem definitions_stepsOf (cards : List (List Char)) :
    (stepsOf cards).flatMap Step.definitions = definitionsOf (cards.dropWhile staysInStep) := by
  induction cards with
  | nil => rfl
  | cons card cards ih =>
    by_cases h : cardKind card = .exec
    · have hdd : cardKind card ≠ .dd := by simp [h]
      have hhead : definitionsOf [card] = [] := by
        rw [definitionsOf, cardsOf_singleton_of_ne hdd, List.map_nil]
      have hdrop : (card :: cards).dropWhile staysInStep = [card] ++ cards := by
        rw [List.dropWhile_cons, staysInStep_eq_false h]
        rfl
      have hsplit := definitionsOf_append (cards.takeWhile staysInStep)
        (cards.dropWhile staysInStep)
      rw [List.takeWhile_append_dropWhile] at hsplit
      rw [stepsOf, if_pos h, List.flatMap_cons, ih, hdrop, definitionsOf_append, hhead,
        List.nil_append, hsplit]
      rfl
    · rw [stepsOf, if_neg h, ih, List.dropWhile_cons, staysInStep_eq_true h, if_pos rfl]

/-! ## The outline of the cards that have been read -/

/-- The outline says what the cards say, apart from warnings. -/
structure Reflects (cards : List (List Char)) (o : Outline) : Prop where
  job : o.job = (cardsOf .job cards).getLast?.map Job.ofCard
  steps : o.steps = stepsOf cards
  datasets : o.datasets = datasetsOf (stepsOf cards)
  warnings : o.warnings = []

theorem reflects_empty : Reflects [] .empty := ⟨rfl, rfl, rfl, rfl⟩

theorem cardsOf_concat_self {kind : CardKind} {card : List Char} (h : cardKind card = kind)
    (cards : List (List Char)) : cardsOf kind (cards ++ [card]) = cardsOf kind cards ++ [card] := by
  rw [cardsOf_append, cardsOf_singleton_self h]

theorem cardsOf_concat_of_ne {kind : CardKind} {card : List Char} (h : cardKind card ≠ kind)
    (cards : List (List Char)) : cardsOf kind (cards ++ [card]) = cardsOf kind cards := by
  rw [cardsOf_append, cardsOf_singleton_of_ne h, List.append_nil]

theorem datasetsOf_append (steps steps' : List Step) :
    datasetsOf (steps ++ steps') = datasetsOf steps ++ datasetsOf steps' :=
  List.flatMap_append ..

theorem datasetsOf_addDefinition (step : Step) (d : DataDefinition) :
    datasetsOf [{ step with definitions := step.definitions ++ [d] }] =
      datasetsOf [step] ++ d.dataset.toList := by
  cases h : d.dataset <;> simp [datasetsOf, h]

/-- A card that is neither an EXEC nor a DD card leaves the steps as they are. -/
theorem stepsOf_concat_of_ne {card : List Char} (hexec : cardKind card ≠ .exec)
    (hdd : cardKind card ≠ .dd) (cards : List (List Char)) :
    stepsOf (cards ++ [card]) = stepsOf cards := by
  have hnone : definitionsOf [card] = [] := by
    rw [definitionsOf, cardsOf_singleton_of_ne hdd, List.map_nil]
  rcases stepsOf_concat hexec cards with ⟨hsteps, hmore⟩ | ⟨before, step, hsteps, hmore⟩
  · rw [hsteps, hmore]
  · rw [hsteps, hmore, hnone, List.append_nil]

theorem reflects_addDefinition {cards : List (List Char)} {o : Outline} (h : Reflects cards o)
    {card : List Char} (hdd : cardKind card = .dd) :
    Reflects (cards ++ [card]) (o.addDefinition (DataDefinition.ofCard card)) := by
  have hexec : cardKind card ≠ .exec := by simp [hdd]
  have hjob : cardKind card ≠ .job := by simp [hdd]
  have hone : definitionsOf [card] = [DataDefinition.ofCard card] := by
    rw [definitionsOf, cardsOf_singleton_self hdd]
    rfl
  rcases stepsOf_concat hexec cards with ⟨hsteps, hmore⟩ | ⟨before, step, hsteps, hmore⟩
  · -- no step is open yet, so the card is dropped on both sides
    have hlast : o.steps.getLast? = none := by rw [h.steps, hsteps]; rfl
    have hsame : o.addDefinition (DataDefinition.ofCard card) = o := by
      simp only [Outline.addDefinition, hlast]
    rw [hsame]
    exact ⟨by rw [cardsOf_concat_of_ne hjob, h.job], by rw [h.steps, hsteps, hmore],
      by rw [h.datasets, hsteps, hmore], h.warnings⟩
  · -- the last step takes the definition, and its dataset becomes the last dataset
    have hlast : o.steps.getLast? = some step := by
      rw [h.steps, hsteps, List.getLast?_concat]
    have hbefore : o.steps.dropLast = before := by
      rw [h.steps, hsteps, List.dropLast_concat]
    rw [hone] at hmore
    constructor
    · simp only [Outline.addDefinition, hlast, cardsOf_concat_of_ne hjob, h.job]
    · simp only [Outline.addDefinition, hlast, hbefore, hmore, Step.addDefinition]
    · simp only [Outline.addDefinition, hlast, h.datasets, hsteps, hmore, datasetsOf_append,
        datasetsOf_addDefinition, List.append_assoc]
    · simp only [Outline.addDefinition, hlast, h.warnings]

theorem reflects_addCard {cards : List (List Char)} {o : Outline} (h : Reflects cards o)
    (card : List Char) : Reflects (cards ++ [card]) (o.addCard card) := by
  unfold Outline.addCard
  split
  next hjob =>
    refine ⟨?_, ?_, ?_, h.warnings⟩
    · rw [cardsOf_concat_self hjob, List.getLast?_concat]
      rfl
    · rw [stepsOf_concat_of_ne (by simp [hjob]) (by simp [hjob])]
      exact h.steps
    · rw [stepsOf_concat_of_ne (by simp [hjob]) (by simp [hjob])]
      exact h.datasets
  next hexec =>
    refine ⟨?_, ?_, ?_, h.warnings⟩
    · rw [cardsOf_concat_of_ne (by simp [hexec])]
      exact h.job
    · rw [stepsOf_concat_exec hexec, ← h.steps]
    · rw [stepsOf_concat_exec hexec, datasetsOf_append, ← h.datasets]
      exact (List.append_nil _).symm
  next hdd => exact reflects_addDefinition h hdd
  next hignored =>
    refine ⟨?_, ?_, ?_, h.warnings⟩
    · rw [cardsOf_concat_of_ne (by simp [hignored])]
      exact h.job
    · rw [stepsOf_concat_of_ne (by simp [hignored]) (by simp [hignored])]
      exact h.steps
    · rw [stepsOf_concat_of_ne (by simp [hignored]) (by simp [hignored])]
      exact h.datasets

theorem reflects_ofCards (cards : List (List Char)) : Reflects cards (.ofCards cards) := by
  -- from the last card on, as the outline is built by a left fold
  induction cards using List.reverseRecOn with
  | nil => exact reflects_empty
  | append_singleton cards card ih =>
    rw [Outline.ofCards, List.foldl_append]
    exact reflects_addCard ih card

/-! ## The outline of a deck -/

/-- The outline groups the cards: there is one step for each EXEC card, and the
DD cards between it and the next EXEC card are its data definitions, whatever
other cards stand between. -/
structure Groups (cards : List (List Char)) (o : Outline) : Prop where
  count : o.steps.length = (cardsOf .exec cards).length
  step : ∀ front exec block rest, cards = front ++ exec :: (block ++ rest) →
    cardKind exec = .exec → (∀ card ∈ block, cardKind card ≠ .exec) →
    (∀ card ∈ rest.head?, cardKind card = .exec) →
    o.steps[(cardsOf .exec front).length]? = some (stepOf exec block)
  owned : o.steps.flatMap Step.definitions = definitionsOf (cards.dropWhile staysInStep)
  datasets : o.datasets =
    o.steps.flatMap (fun step => step.definitions.filterMap DataDefinition.dataset)
  job : o.job = (cardsOf .job cards).getLast?.map Job.ofCard
  warnings : o.warnings = if cardsOf .job cards = [] then [Outline.noJobWarning] else []

theorem getElem?_stepsOf {front block rest : List (List Char)} {exec : List Char}
    (hexec : cardKind exec = .exec) (hblock : ∀ card ∈ block, cardKind card ≠ .exec)
    (hrest : ∀ card ∈ rest.head?, cardKind card = .exec) :
    (stepsOf (front ++ exec :: (block ++ rest)))[(cardsOf .exec front).length]? =
      some (stepOf exec block) := by
  rw [stepsOf_append_exec hexec, stepsOf_block hexec hblock hrest, ← length_stepsOf front,
    List.getElem?_append_right (Nat.le_refl _), Nat.sub_self, List.getElem?_cons_zero]

/-- Cards with an EXEC card among them are grouped by what the check gives. -/
theorem groups_of_reflects {cards : List (List Char)} {o : Outline} (h : Reflects cards o) :
    Groups cards (if o.job.isNone then { o with warnings := o.warnings ++ [Outline.noJobWarning] }
      else o) := by
  have hjob : o.job.isNone = true ↔ cardsOf .job cards = [] := by
    rw [h.job, Option.isNone_map, Option.isNone_iff_eq_none, List.getLast?_eq_none_iff]
  have hgroups : ∀ warnings, warnings = (if cardsOf .job cards = [] then [Outline.noJobWarning]
      else []) → Groups cards { o with warnings := warnings } := by
    intro warnings hwarnings
    refine ⟨?_, ?_, ?_, ?_, h.job, hwarnings⟩
    · rw [h.steps, length_stepsOf]
    · rintro front exec block rest rfl hexec hblock hrest
      rw [h.steps]
      exact getElem?_stepsOf hexec hblock hrest
    · rw [h.steps, definitions_stepsOf]
    · rw [h.datasets, h.steps, datasetsOf]
  by_cases hnone : cardsOf .job cards = []
  · rw [if_pos (hjob.2 hnone), h.warnings]
    exact hgroups _ (by rw [if_pos hnone]; rfl)
  · rw [if_neg (fun hn => hnone (hjob.1 hn))]
    exact hgroups o.warnings (by rw [if_neg hnone, h.warnings])

/-- A deck has no outline if no EXEC card stands in it. Otherwise it has one,
and that groups its cards. -/
theorem outline_groups_cards (deck : String) :
    (cardsOf .exec (cardLines deck.toList) = [] ∧ outline deck = .error .noExecSteps) ∨
    (cardsOf .exec (cardLines deck.toList) ≠ [] ∧
      ∃ o, outline deck = .ok o ∧ Groups (cardLines deck.toList) o) := by
  have h := reflects_ofCards (cards deck.toList)
  have hlen := length_stepsOf (cards deck.toList)
  rw [← h.steps] at hlen
  rw [← cards_eq_cardLines]
  unfold outline Outline.checked
  by_cases hnone : cardsOf .exec (cards deck.toList) = []
  · refine .inl ⟨hnone, ?_⟩
    rw [hnone] at hlen
    rw [List.eq_nil_of_length_eq_zero hlen]
    rfl
  · have hsteps : (Outline.ofCards (cards deck.toList)).steps.isEmpty = false := by
      rw [List.isEmpty_eq_false_iff]
      intro hempty
      rw [hempty] at hlen
      exact hnone (List.eq_nil_of_length_eq_zero hlen.symm)
    exact .inr ⟨hnone, _, by rw [hsteps]; rfl, groups_of_reflects h⟩

/-- A deck of two steps, with a DD card in front of them, a JOB card in the first
one, and the same dataset in both. -/
def twoSteps : String :=
  "//EARLY DD DSN=OLD\n//RUN EXEC PGM=PAY\r\n//PAY JOB CLASS=A  \nNO CARD\n" ++
    "//IN DD DSN=ALL\n//LIST EXEC PGM=PRINT\n//TEXT DD DSN=ALL"

/-- The outline of the deck of two steps. -/
def twoStepsOutline : Outline :=
  { job := some ⟨"PAY", some "A", none, none, "//PAY JOB CLASS=A"⟩
    steps := [
      ⟨"RUN", some "PAY", none, none, [⟨"IN", some "ALL", none, .dataset, "//IN DD DSN=ALL"⟩],
        "//RUN EXEC PGM=PAY"⟩,
      ⟨"LIST", some "PRINT", none, none,
        [⟨"TEXT", some "ALL", none, .dataset, "//TEXT DD DSN=ALL"⟩], "//LIST EXEC PGM=PRINT"⟩]
    datasets := ["ALL", "ALL"]
    warnings := [] }

/-- The DD card in front of the first step is in no step, and the JOB card does not
end the step in which it stands. -/
theorem outline_groups_twoSteps :
    (cardLines twoSteps.toList).map String.ofList =
      ["//EARLY DD DSN=OLD", "//RUN EXEC PGM=PAY", "//PAY JOB CLASS=A", "//IN DD DSN=ALL",
        "//LIST EXEC PGM=PRINT", "//TEXT DD DSN=ALL"] ∧
    outline twoSteps = .ok twoStepsOutline ∧
    Groups (cardLines twoSteps.toList) twoStepsOutline := by
  have hread : outline twoSteps = .ok twoStepsOutline := by decide +kernel
  refine ⟨by decide +kernel, hread, ?_⟩
  rcases outline_groups_cards twoSteps with ⟨-, hnone⟩ | ⟨-, o, ho, hgroups⟩
  · rw [hread] at hnone
    cases hnone
  · obtain rfl := Except.ok.inj (hread.symm.trans ho)
    exact hgroups

end Mainframe.Jcl
