import Mathlib.Data.List.Nodup
import Mainframe.Proofs.JoinedSources

/-
  Line numbers in the outline of a source.

  Every list of records is collected from the numbered lines, from top to
  bottom and with one record for a line at most. So the numbers of the records
  are some of the numbers of the lines, in the same order, and an id made of a
  number names one record only. Paragraphs are collected from the lines behind
  the first header of the procedure division.

  What is proved:
    1. `sublist_collect`: the numbers of collected records are a sublist of
       the numbers of the lines.
    2. `isLedger_of_sublist`: so they increase, stay among the lines, and make
       the ids distinct.
    3. `header_above`: a line that may name a paragraph stands below the first
       header, if it is no header itself.
    4. `outline_isNumbered`: the numbering of the outline of a source, put
       together from its lists.
-/

namespace Mainframe.Cobol

open Mainframe.Text

/-! ## Records in line order -/

section
variable {β : Type}

/-- The records stand on lines from the first one to the last one, each further
down than the one before it. -/
structure InLineOrder (lineOf : β → Nat) (last : Nat) (records : List β) : Prop where
  increasing : (records.map lineOf).Pairwise (· < ·)
  within : ∀ r ∈ records, 1 ≤ lineOf r ∧ lineOf r ≤ last

/-- The records stand in line order, and each has an id of its own: the stem
with the number of its line behind it. -/
structure IsLedger (stem : String) (idOf : β → String) (lineOf : β → Nat) (last : Nat)
    (records : List β) : Prop extends InLineOrder lineOf last records where
  ids : ∀ r ∈ records, idOf r = stem ++ toString (lineOf r)
  distinct : (records.map idOf).Nodup

theorem map_snd_numbered (before : Nat) (lines : List (List Char)) :
    (numbered before lines).map Prod.snd = List.range' (before + 1) lines.length :=
  List.zipIdx_map_snd (before + 1) lines

theorem sublist_collect {α : Type} (rule : List Char → Option α) {record : Nat → α → β}
    {lineOf : β → Nat} (hline : ∀ n a, lineOf (record n a) = n) (lines : List NumberedLine) :
    ((collect rule record lines).map lineOf).Sublist (lines.map Prod.snd) := by
  induction lines with
  | nil => exact List.Sublist.slnil
  | cons line lines ih =>
    rw [List.map_cons]
    cases hrule : rule line.1 with
    | none =>
      have hskip : collect rule record (line :: lines) = collect rule record lines := by
        simp [collect, hrule]
      rw [hskip]
      exact ih.cons line.2
    | some a =>
      have htake : collect rule record (line :: lines) =
          record line.2 a :: collect rule record lines := by
        simp [collect, hrule]
      rw [htake, List.map_cons, hline]
      exact ih.cons_cons line.2

theorem mem_collect {α : Type} {rule : List Char → Option α} {record : Nat → α → β}
    {lines : List NumberedLine} {r : β} :
    r ∈ collect rule record lines ↔
      ∃ line ∈ lines, ∃ a, rule line.1 = some a ∧ record line.2 a = r := by
  simp only [collect, List.mem_filterMap, Option.map_eq_some_iff]

/-- Numbers taken from those of the lines, in the same order. -/
theorem inLineOrder_of_sublist {lineOf : β → Nat} {records : List β} {lines : List (List Char)}
    (h : (records.map lineOf).Sublist ((numbered 0 lines).map Prod.snd)) :
    InLineOrder lineOf lines.length records := by
  rw [map_snd_numbered] at h
  constructor
  case increasing => exact (List.pairwise_lt_range' 1).sublist h
  case within =>
    intro r hr
    have hmem := List.mem_range'_1.1 (h.subset (List.mem_map_of_mem hr))
    omega

/-- A stem and a number make an id from which the number can be told. -/
theorem stem_append_injective (stem : String) :
    Function.Injective (fun n : Nat => stem ++ toString n) := by
  intro m n h
  have hdigits : (toString m).toList = (toString n).toList := by
    have hlists : stem.toList ++ (toString m).toList = stem.toList ++ (toString n).toList := by
      simpa only [String.toList_append] using congrArg String.toList h
    exact List.append_cancel_left hlists
  have hvalue := congrArg (fun digits => Nat.ofDigitChars 10 digits 0) hdigits
  simpa [Nat.toString_eq_repr, Nat.toList_repr] using hvalue

theorem isLedger_of_sublist {stem : String} {idOf : β → String} {lineOf : β → Nat}
    {records : List β} {lines : List (List Char)}
    (h : (records.map lineOf).Sublist ((numbered 0 lines).map Prod.snd))
    (hids : ∀ r ∈ records, idOf r = stem ++ toString (lineOf r)) :
    IsLedger stem idOf lineOf lines.length records := by
  have horder := inLineOrder_of_sublist h
  refine { horder with ids := hids, distinct := ?_ }
  have hmap : records.map idOf = (records.map lineOf).map (fun n => stem ++ toString n) := by
    rw [List.map_map]
    exact List.map_congr_left hids
  have hlines : (records.map lineOf).Nodup := horder.increasing.imp Nat.ne_of_lt
  rw [hmap]
  exact hlines.map (stem_append_injective stem)

end

/-! ## The header of the procedure division -/

theorem numbered_cons (before : Nat) (line : List Char) (lines : List (List Char)) :
    numbered before (line :: lines) = (line, before + 1) :: numbered (before + 1) lines := rfl

theorem getElem?_of_mem_numbered {lines : List (List Char)} {line : NumberedLine}
    (h : line ∈ numbered 0 lines) : lines[line.2 - 1]? = some line.1 :=
  (List.mk_mem_zipIdx_iff_le_and_getElem?_sub.1 h).2

theorem procedureLines_sublist (isOpen : Bool) (lines : List NumberedLine) :
    (procedureLines isOpen lines).Sublist lines := by
  cases isOpen with
  | true => exact List.Sublist.refl lines
  | false => exact List.dropWhile_sublist _

/-- A line that may name a paragraph stands below the first header, if it is no
header itself. -/
theorem header_above {before : Nat} {lines : List (List Char)} {line : NumberedLine}
    (h : line ∈ procedureLines false (numbered before lines))
    (hline : opensProcedure line.1 = false) :
    ∃ first, lines.findIdx? opensProcedure = some first ∧ before + first + 1 < line.2 := by
  induction lines generalizing before with
  | nil => cases h
  | cons top lines ih =>
    rw [numbered_cons] at h
    cases htop : opensProcedure top with
    | true =>
      -- the header is the first line, and the line is one of those behind it
      refine ⟨0, by simp [List.findIdx?_cons, htop], ?_⟩
      rcases List.mem_cons.1 ((procedureLines_sublist false _).subset h) with rfl | h
      · rw [htop] at hline
        cases hline
      · have hle := (List.mk_mem_zipIdx_iff_le_and_getElem?_sub.1 h).1
        omega
    | false =>
      have hskip : procedureLines false ((top, before + 1) :: numbered (before + 1) lines) =
          procedureLines false (numbered (before + 1) lines) := by
        simp [procedureLines, htop]
      rw [hskip] at h
      obtain ⟨first, hfirst, hlt⟩ := ih h
      refine ⟨first + 1, by simp [List.findIdx?_cons, htop, hfirst], ?_⟩
      omega

/-- The number is that of a line below the first header of the procedure
division, and of no header. -/
def IsBelowHeader (lines : List (List Char)) (n : Nat) : Prop :=
  ∃ first line, lines.findIdx? opensProcedure = some first ∧ first + 1 < n ∧
    lines[n - 1]? = some line ∧ opensProcedure line = false

theorem opensProcedure_of_paragraphName? {line name : List Char}
    (h : paragraphName? line = some name) : opensProcedure line = false := by
  unfold paragraphName? at h
  split at h
  next => cases h
  next hnot =>
    rw [Bool.not_eq_true, Bool.or_eq_false_iff] at hnot
    exact hnot.1

theorem isBelowHeader_of_mem {lines : List (List Char)} {p : Paragraph}
    (h : p ∈ paragraphs false (numbered 0 lines)) : IsBelowHeader lines p.line := by
  obtain ⟨line, hmem, name, hname, rfl⟩ := mem_collect.1 h
  have hline := opensProcedure_of_paragraphName? hname
  obtain ⟨first, hfirst, hlt⟩ := header_above hmem hline
  rw [Nat.zero_add] at hlt
  refine ⟨first, line.1, hfirst, hlt, ?_, hline⟩
  exact getElem?_of_mem_numbered ((procedureLines_sublist false _).subset hmem)

/-! ## Outlines -/

/-- The lists of an outline are numbered by the lines: each is in line order,
ids follow the numbers, the conditions are those of the IFs, and paragraphs
stand below the header of a division that is present. -/
structure IsNumbered (lines : List (List Char)) (o : Outline) : Prop where
  statements : IsLedger "STMT_" Statement.id Statement.line lines.length o.statements
  controlFlow : IsLedger "CF_" ControlFlow.id ControlFlow.line lines.length o.controlFlow
  fileOperations : InLineOrder FileOperation.line lines.length o.fileOperations
  performs : IsLedger "PERFORM_" Perform.id Perform.line lines.length o.performs
  paragraphs : IsLedger "PARA_" Paragraph.id Paragraph.line lines.length o.paragraphs
  conditions : o.conditions = o.controlFlow.filterMap (fun c => c.branch.condition?)
  belowHeader : ∀ p ∈ o.paragraphs,
    o.divisions.mark? .procedure = some true ∧ IsBelowHeader lines p.line

section
variable (source : String)

/-- What a rule finds in a source stands on the retained lines of the source. -/
theorem sublist_collect_sourceLines {α β : Type} (rule : List Char → Option α)
    {record : Nat → α → β} {lineOf : β → Nat} (hempty : rule [] = none)
    (hline : ∀ n a, lineOf (record n a) = n) :
    ((collect rule record (sourceLines source)).map lineOf).Sublist
      ((numbered 0 (retainedLines source.toList)).map Prod.snd) := by
  have hlines : collect rule record (sourceLines source) =
      collect rule record (numbered 0 (retainedLines source.toList)) :=
    collect_normalized rule record hempty 0 source
  rw [hlines]
  exact sublist_collect rule hline _

theorem isLedger_collect {α β : Type} (rule : List Char → Option α) {record : Nat → α → β}
    {stem : String} {idOf : β → String} {lineOf : β → Nat} (hempty : rule [] = none)
    (hline : ∀ n a, lineOf (record n a) = n)
    (hid : ∀ n a, idOf (record n a) = stem ++ toString n) :
    IsLedger stem idOf lineOf (retainedLines source.toList).length
      (collect rule record (sourceLines source)) := by
  apply isLedger_of_sublist (sublist_collect_sourceLines source rule hempty hline)
  intro r hr
  obtain ⟨line, -, a, -, rfl⟩ := mem_collect.1 hr
  rw [hid, hline]

theorem isLedger_statements :
    IsLedger "STMT_" Statement.id Statement.line (retainedLines source.toList).length
      (outline source).statements := by
  rw [statements_outline]
  exact isLedger_collect source action? rfl (fun n action => rfl) (fun n action => rfl)

theorem isLedger_controlFlow :
    IsLedger "CF_" ControlFlow.id ControlFlow.line (retainedLines source.toList).length
      (outline source).controlFlow := by
  rw [controlFlow_outline]
  exact isLedger_collect source branch? rfl (fun n branch => rfl) (fun n branch => rfl)

theorem inLineOrder_fileOperations :
    InLineOrder FileOperation.line (retainedLines source.toList).length
      (outline source).fileOperations := by
  rw [fileOperations_outline]
  exact inLineOrder_of_sublist
    (sublist_collect_sourceLines source fileVerb? rfl (fun n verb => rfl))

theorem isLedger_performs :
    IsLedger "PERFORM_" Perform.id Perform.line (retainedLines source.toList).length
      (outline source).performs := by
  rw [performs_outline]
  exact isLedger_collect source performTarget? rfl (fun n target => rfl) (fun n target => rfl)

theorem isLedger_paragraphs :
    IsLedger "PARA_" Paragraph.id Paragraph.line (retainedLines source.toList).length
      (outline source).paragraphs := by
  rw [paragraphs_outline, paragraphs_sourceLines]
  apply isLedger_of_sublist
  · have hsub := (procedureLines_sublist false (numbered 0 (retainedLines source.toList))).map
      Prod.snd
    exact (sublist_collect paragraphName? (fun n name => rfl) _).trans hsub
  · intro r hr
    obtain ⟨line, -, name, -, rfl⟩ := mem_collect.1 hr
    rfl

theorem conditions_eq_filterMap :
    (outline source).conditions =
      (outline source).controlFlow.filterMap (fun c => c.branch.condition?) := by
  rw [conditions_outline, controlFlow_outline]
  simp only [conditions, controlFlow, collect, List.filterMap_filterMap]
  congr 1
  funext line
  cases branch? line.1 <;> rfl

theorem hasDivision_of_isBelowHeader {n : Nat}
    (h : IsBelowHeader (retainedLines source.toList) n) :
    hasDivision (normalize source).toList .procedure = true := by
  obtain ⟨first, line, hfirst, -⟩ := h
  rw [hasDivision_normalize, List.any_eq_true]
  obtain ⟨hlt, hopens, -⟩ := List.findIdx?_eq_some_iff_getElem.1 hfirst
  exact ⟨_, List.getElem_mem hlt, hopens⟩

/-- The outline of a source is numbered by its retained lines, of which there
are no more than the source has lines. -/
theorem outline_isNumbered :
    (retainedLines source.toList).length ≤ (splitLines source.toList).length ∧
      IsNumbered (retainedLines source.toList) (outline source) := by
  refine ⟨length_retainedLines_le source.toList, ?_⟩
  constructor
  case statements => exact isLedger_statements source
  case controlFlow => exact isLedger_controlFlow source
  case fileOperations => exact inLineOrder_fileOperations source
  case performs => exact isLedger_performs source
  case paragraphs => exact isLedger_paragraphs source
  case conditions => exact conditions_eq_filterMap source
  case belowHeader =>
    intro p hp
    rw [paragraphs_outline, paragraphs_sourceLines] at hp
    have hbelow := isBelowHeader_of_mem hp
    have hpresent := hasDivision_of_isBelowHeader source hbelow
    obtain ⟨_, ho⟩ := outline_eq source
    refine ⟨?_, hbelow⟩
    rw [ho, Divisions.mark?_ofPresent, hpresent]
    rfl

end

end Mainframe.Cobol
