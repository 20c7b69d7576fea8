import Mathlib.Data.List.TakeWhile
import Mainframe.Report.Program
import Mainframe.Proofs.LineNumbers

/-
  Records listed under paragraphs, and the paragraph at a line.

  A report attributes lines to paragraphs twice. A call is made by the paragraph
  whose label is the last one at or above its line. The records that are listed
  under a paragraph are those strictly below its label and strictly above the
  next one. Labels stand in line order, so on a line without a label the two
  agree; a record that stands beside a label belongs to that paragraph for a
  call, and is listed nowhere.

  What is proved:
    1. `nextLabel_split` and `paragraphAt?_split`: both attributions, said of
       the paragraphs in front of and behind a paragraph.
    2. `mem_listedUnder_iff`: a record is listed under the paragraph at its
       line, unless it stands beside the label, and under no other.
    3. `followsCallers_iff`: the report on a source lists every record under the
       paragraph at its line, and says of no other paragraph that it has no
       logic, if and only if no record stands beside a label.
    4. `label_line_unlisted`: a paragraph that is said to have no logic, and a
       statement beside its label.
-/

namespace Mainframe.Report

open Cobol

/-! ## Labels in line order -/

section
variable {ps : List Paragraph}

/-- The labels stand on lines, each further down than the one before it. -/
def LabelsAscend (ps : List Paragraph) : Prop := (ps.map Paragraph.line).Pairwise (· < ·)

variable {before after : List Paragraph} {p : Paragraph}

theorem LabelsAscend.before_lt (h : LabelsAscend (before ++ p :: after)) :
    ∀ q ∈ before, q.line < p.line := by
  intro q hq
  rw [LabelsAscend, List.map_append, List.pairwise_append] at h
  exact h.2.2 q.line (List.mem_map_of_mem hq) p.line (by simp)

theorem LabelsAscend.lt_after (h : LabelsAscend (before ++ p :: after)) :
    ∀ q ∈ after, p.line < q.line := by
  intro q hq
  rw [LabelsAscend, List.map_append, List.pairwise_append, List.map_cons, List.pairwise_cons] at h
  exact h.2.1.1 q.line (List.mem_map_of_mem hq)

/-- The next label is that of the next paragraph, if there is one. -/
theorem nextLabel_split (h : LabelsAscend (before ++ p :: after)) :
    nextLabel (before ++ p :: after) p.line = (after.head?.map Paragraph.line).getD lastLine := by
  have hbefore : (before.map Paragraph.line).find? (fun l => decide (p.line < l)) = none := by
    rw [List.find?_eq_none]
    intro l hl
    obtain ⟨q, hq, rfl⟩ := List.mem_map.1 hl
    have hlt := h.before_lt q hq
    simp only [decide_eq_true_eq]
    omega
  rw [nextLabel, List.map_append, List.find?_append, hbefore, List.map_cons, Option.none_or,
    List.find?_cons_of_neg (by simp)]
  cases after with
  | nil => rfl
  | cons next after =>
    have hlt := h.lt_after next List.mem_cons_self
    rw [List.map_cons, List.find?_cons_of_pos (by simpa using hlt)]
    rfl

theorem le_of_paragraphAt? {n : Nat} (h : paragraphAt? ps n = some p) : p ∈ ps ∧ p.line ≤ n := by
  have hmem := List.mem_of_getLast? h
  have hle := List.mem_takeWhile_imp hmem
  exact ⟨(List.takeWhile_sublist _).subset hmem, by simpa using hle⟩

/-- A paragraph stands at the lines from its label on, up to the label of the
next paragraph. -/
theorem paragraphAt?_split (h : LabelsAscend (before ++ p :: after)) (n : Nat) :
    paragraphAt? (before ++ p :: after) n = some p ↔
      p.line ≤ n ∧ ∀ next ∈ after.head?, n < next.line := by
  have hfront (hp : p.line ≤ n) :
      (before ++ p :: after).takeWhile (fun q => decide (q.line ≤ n)) =
        before ++ p :: after.takeWhile (fun q => decide (q.line ≤ n)) := by
    have hbefore : ∀ q ∈ before, decide (q.line ≤ n) = true := by
      intro q hq
      have hlt := h.before_lt q hq
      exact decide_eq_true (by omega)
    rw [List.takeWhile_append_of_pos hbefore, List.takeWhile_cons_of_pos (by simpa using hp)]
  constructor
  · intro hat
    obtain ⟨-, hp⟩ := le_of_paragraphAt? hat
    refine ⟨hp, ?_⟩
    intro next hnext
    by_contra hle
    -- the next label would be at or above the line, and the last one further down than `p`
    obtain ⟨rest, rfl⟩ := List.head?_eq_some_iff.1 hnext
    rw [paragraphAt?, hfront hp, List.takeWhile_cons_of_pos (by simpa using hle)] at hat
    have hlast : p ∈ next :: rest.takeWhile (fun q => decide (q.line ≤ n)) := by
      apply List.mem_of_getLast?
      rw [← hat, List.getLast?_append_cons, List.getLast?_cons_cons]
    have hafter : p ∈ next :: rest :=
      (List.Sublist.cons_cons next (List.takeWhile_sublist _)).subset hlast
    exact absurd (h.lt_after p hafter) (Nat.lt_irrefl p.line)
  · intro hn
    have hafter : after.takeWhile (fun q => decide (q.line ≤ n)) = [] := by
      cases after with
      | nil => rfl
      | cons next after =>
        have hlt := hn.2 next rfl
        exact List.takeWhile_cons_of_neg (by simpa using hlt)
    rw [paragraphAt?, hfront hn.1, hafter]
    simp

/-- At a label stands the paragraph that it names. -/
theorem paragraphAt?_label (hps : LabelsAscend ps) (hp : p ∈ ps) :
    paragraphAt? ps p.line = some p := by
  obtain ⟨before, after, rfl⟩ := List.append_of_mem hp
  rw [paragraphAt?_split hps]
  refine ⟨Nat.le_refl _, ?_⟩
  intro next hnext
  exact hps.lt_after next (List.mem_of_mem_head? hnext)

/-- Between a label and the next one stands the paragraph of the label. -/
theorem between_labels_iff (hps : LabelsAscend ps) (hp : p ∈ ps) {n : Nat} (hn : n < lastLine) :
    (p.line < n ∧ n < nextLabel ps p.line) ↔ (paragraphAt? ps n = some p ∧ n ≠ p.line) := by
  obtain ⟨before, after, rfl⟩ := List.append_of_mem hp
  rw [paragraphAt?_split hps, nextLabel_split hps]
  cases after with
  | nil =>
    simp only [List.head?_nil, Option.map_none, Option.getD_none]
    simp
    omega
  | cons next after =>
    simp
    omega

/-- From the first label on, some paragraph stands at every line. -/
theorem exists_paragraphAt? {n : Nat} {first : Paragraph} (hfirst : first ∈ ps.head?)
    (hn : first.line ≤ n) : ∃ p, paragraphAt? ps n = some p := by
  obtain ⟨rest, rfl⟩ := List.head?_eq_some_iff.1 hfirst
  rw [paragraphAt?, List.takeWhile_cons_of_pos (by simpa using hn)]
  exact ⟨_, List.getLast?_eq_some_getLast (by simp)⟩

/-- Above the first label no paragraph stands. -/
theorem paragraphAt?_eq_none {n : Nat} (h : ∀ first ∈ ps.head?, n < first.line) :
    paragraphAt? ps n = none := by
  cases ps with
  | nil => rfl
  | cons first rest =>
    have hlt := h first rfl
    rw [paragraphAt?, List.takeWhile_cons_of_neg (by simpa using hlt)]
    rfl

/-- Where a paragraph stands, the first label is at or above the line. -/
theorem exists_first_le {n : Nat} (h : paragraphAt? ps n = some p) :
    ∃ first ∈ ps.head?, first.line ≤ n := by
  by_contra hnone
  rw [paragraphAt?_eq_none (fun first hfirst => ?_)] at h
  · cases h
  · by_contra hle
    exact hnone ⟨first, hfirst, by omega⟩

end

/-! ## Listed records -/

section
variable {α : Type} {lineOf : α → Nat} {ps : List Paragraph} {records : List α}

/-- A record is listed under the paragraph at its line, unless it stands beside
the label, and under no other. -/
theorem mem_listedUnder_iff (hps : LabelsAscend ps) {p : Paragraph} (hp : p ∈ ps) {r : α}
    (hr : lineOf r < lastLine) :
    r ∈ listedUnder ps p lineOf records ↔
      r ∈ records ∧ paragraphAt? ps (lineOf r) = some p ∧ lineOf r ≠ p.line := by
  rw [listedUnder, List.mem_filter, Bool.and_eq_true, decide_eq_true_eq, decide_eq_true_eq,
    between_labels_iff hps hp hr]

/-- The records are listed as calls are attributed: from the first label on,
each under the paragraph at its line and under no other, and above the first
label under none. -/
structure ListsByCaller (ps : List Paragraph) (lineOf : α → Nat) (records : List α) : Prop where
  placed : ∀ r ∈ records, ∀ first ∈ ps.head?, first.line ≤ lineOf r →
    ∃ p ∈ ps, paragraphAt? ps (lineOf r) = some p ∧
      ∀ q ∈ ps, r ∈ listedUnder ps q lineOf records ↔ q = p
  unplaced : ∀ r ∈ records, (∀ first ∈ ps.head?, lineOf r < first.line) →
    ∀ q ∈ ps, r ∉ listedUnder ps q lineOf records

theorem listsByCaller_iff_apart (hps : LabelsAscend ps)
    (hlines : ∀ r ∈ records, lineOf r < lastLine) :
    ListsByCaller ps lineOf records ↔ ∀ r ∈ records, ∀ p ∈ ps, lineOf r ≠ p.line := by
  constructor
  · intro h r hr p hp hbeside
    have hlabel : paragraphAt? ps (lineOf r) = some p := by
      rw [hbeside]
      exact paragraphAt?_label hps hp
    obtain ⟨first, hfirst, hle⟩ := exists_first_le hlabel
    obtain ⟨q, hq, hat, honly⟩ := h.placed r hr first hfirst hle
    -- the paragraph at the line is the one that is named there
    have hsame : q = p := Option.some.inj (hat.symm.trans hlabel)
    have hlisted := (honly q hq).2 rfl
    rw [mem_listedUnder_iff hps hq (hlines r hr), hsame] at hlisted
    exact hlisted.2.2 hbeside
  · intro h
    refine ⟨?_, ?_⟩
    · intro r hr first hfirst hle
      obtain ⟨p, hat⟩ := exists_paragraphAt? hfirst hle
      refine ⟨p, (le_of_paragraphAt? hat).1, hat, ?_⟩
      intro q hq
      rw [mem_listedUnder_iff hps hq (hlines r hr), hat, Option.some.injEq]
      exact ⟨fun hlisted => hlisted.2.1.symm, fun heq => ⟨hr, heq.symm, h r hr q hq⟩⟩
    · intro r hr habove q hq hlisted
      rw [mem_listedUnder_iff hps hq (hlines r hr), paragraphAt?_eq_none habove] at hlisted
      cases hlisted.2.1

end

/-! ## The report on a source -/

/-- What stands below the heading of a paragraph under which nothing is
listed. -/
def noLogicLine : String := "_No logic here_"

theorem statementLine_ne_noLogicLine (s : Statement) : statementLine s ≠ noLogicLine := by
  intro h
  have hhead := congrArg (fun t => t.toList.head?) h
  simp [statementLine, noLogicLine] at hhead

theorem branchLine_ne_noLogicLine (c : ControlFlow) : branchLine c ≠ noLogicLine := by
  intro h
  have hhead := congrArg (fun t => t.toList.head?) h
  simp [branchLine, noLogicLine] at hhead

/-- A paragraph is said to have no logic if and only if nothing is listed under
it. -/
theorem noLogicLine_mem_paragraphBody_iff {o : Cobol.Outline} {p : Paragraph} :
    noLogicLine ∈ paragraphBody o p ↔ statementsUnder o p = [] ∧ branchesUnder o p = [] := by
  let records := (statementsUnder o p).map statementLine ++ (branchesUnder o p).map branchLine
  have hrecords : noLogicLine ∉ records := by
    intro hmem
    rcases List.mem_append.1 hmem with hmem | hmem
    · obtain ⟨s, -, hs⟩ := List.mem_map.1 hmem
      exact statementLine_ne_noLogicLine s hs
    · obtain ⟨c, -, hc⟩ := List.mem_map.1 hmem
      exact branchLine_ne_noLogicLine c hc
  have hempty : records.isEmpty = true ↔ statementsUnder o p = [] ∧ branchesUnder o p = [] := by
    rw [List.isEmpty_iff, List.append_eq_nil_iff, List.map_eq_nil_iff, List.map_eq_nil_iff]
  show noLogicLine ∈ (if records.isEmpty then [noLogicLine] else records) ↔ _
  rw [← hempty]
  split
  next hnone => exact iff_of_true List.mem_cons_self hnone
  next hsome => exact iff_of_false hrecords hsome

/-- The report lists every statement and every branch under the paragraph at its
line, and says of a paragraph that it has no logic only if no record is
attributed to it. -/
structure FollowsCallers (o : Cobol.Outline) : Prop where
  statements : ListsByCaller o.paragraphs Statement.line o.statements
  branches : ListsByCaller o.paragraphs ControlFlow.line o.controlFlow
  noLogic : ∀ p ∈ o.paragraphs, noLogicLine ∈ paragraphBody o p →
    (∀ s ∈ o.statements, paragraphAt? o.paragraphs s.line ≠ some p) ∧
      ∀ c ∈ o.controlFlow, paragraphAt? o.paragraphs c.line ≠ some p

/-- If records are listed as calls are attributed, nothing is attributed to a
paragraph under which nothing is listed. -/
theorem ListsByCaller.not_attributed {α : Type} {lineOf : α → Nat} {ps : List Paragraph}
    {records : List α} (h : ListsByCaller ps lineOf records) {p : Paragraph}
    (hempty : listedUnder ps p lineOf records = []) :
    ∀ r ∈ records, paragraphAt? ps (lineOf r) ≠ some p := by
  intro r hr hat
  obtain ⟨first, hfirst, hle⟩ := exists_first_le hat
  obtain ⟨q, hq, hat', honly⟩ := h.placed r hr first hfirst hle
  have hsame : q = p := Option.some.inj (hat'.symm.trans hat)
  have hlisted := (honly q hq).2 rfl
  rw [hsame, hempty] at hlisted
  cases hlisted

theorem labelsAscend_outline (source : String) : LabelsAscend (outline source).paragraphs :=
  (isLedger_paragraphs source).increasing

/-- The lists of a report on a source with fewer than 2^64 - 1 lines follow the
callers if and only if no statement and no branch stands beside a label. -/
theorem followsCallers_iff {source : String}
    (hlines : (Text.splitLines source.toList).length < lastLine) :
    FollowsCallers (outline source) ↔
      ∀ p ∈ (outline source).paragraphs,
        (∀ s ∈ (outline source).statements, s.line ≠ p.line) ∧
          ∀ c ∈ (outline source).controlFlow, c.line ≠ p.line := by
  have hps := labelsAscend_outline source
  have hretained := Nat.lt_of_le_of_lt (length_retainedLines_le source.toList) hlines
  have hstatements := listsByCaller_iff_apart hps (fun s hs =>
    Nat.lt_of_le_of_lt ((isLedger_statements source).within s hs).2 hretained)
  have hbranches := listsByCaller_iff_apart hps (fun c hc =>
    Nat.lt_of_le_of_lt ((isLedger_controlFlow source).within c hc).2 hretained)
  constructor
  · intro h p hp
    exact ⟨fun s hs => hstatements.1 h.statements s hs p hp,
      fun c hc => hbranches.1 h.branches c hc p hp⟩
  · intro h
    have hs := hstatements.2 (fun s hs p hp => (h p hp).1 s hs)
    have hc := hbranches.2 (fun c hc p hp => (h p hp).2 c hc)
    refine ⟨hs, hc, ?_⟩
    intro p hp hnone
    obtain ⟨hnoStatement, hnoBranch⟩ := noLogicLine_mem_paragraphBody_iff.1 hnone
    exact ⟨hs.not_attributed hnoStatement, hc.not_attributed hnoBranch⟩

/-- A program with a label on every line of its own, a statement in front of the
first one and two labels in a row. -/
def labelsApart : String :=
  "PROCEDURE DIVISION.\nDISPLAY X.\nA.\nIF Y STOP RUN.\nB.\nC.\nGO TO B."

/-- The report on the program follows the callers. -/
theorem followsCallers_labelsApart :
    (Text.splitLines labelsApart.toList).length < lastLine ∧
      FollowsCallers (outline labelsApart) := by
  have hlines : (Text.splitLines labelsApart.toList).length < lastLine := by decide
  exact ⟨hlines, (followsCallers_iff hlines).2 (by decide +kernel)⟩

/-- A program with a statement beside its label. -/
def besideLabel : String := "PROCEDURE DIVISION.\nA. DISPLAY X."

/-- The statement beside the label is listed under no paragraph, and the
paragraph at its line is said to have no logic. -/
theorem label_line_unlisted :
    ∃ p ∈ (outline besideLabel).paragraphs, ∃ s ∈ (outline besideLabel).statements,
      paragraphAt? (outline besideLabel).paragraphs s.line = some p ∧
        (∀ q ∈ (outline besideLabel).paragraphs, s ∉ statementsUnder (outline besideLabel) q) ∧
        noLogicLine ∈ paragraphBody (outline besideLabel) p := by
  decide +kernel

end Mainframe.Report
