import Mathlib.Data.List.Forall2
import Mainframe.Report.Deck
import Mainframe.Proofs.FieldGrammar
import Mainframe.Proofs.ParagraphListing

/-
  The call graph in the report on a program.

  A report shows the calls twice: as a table with a row for each PERFORM, and as
  a flowchart with a line for each pair of caller and callee. The caller is
  found from the top, as the last of the paragraphs in front whose labels stand
  at or above the line. That is the last label at or above the line of them all,
  since labels stand in line order. Pairs are told apart by the names
  themselves, and written with the names of nodes.

  What is proved:
    1. `isFirstOccurrences_distinct`: a list without what has occurred before,
       in order of first occurrence.
    2. `isCaller_paragraphAt?`: the caller has the last label at or above the
       line.
    3. `isNodeName_nodeName`: what the name of a node is made of.
    4. `newline_not_mem_graphLines`: every line of the call graph is one line of
       the report.
    5. `callGraph_outline`: the report on a source, with its call graph.
-/

namespace Mainframe.Report

open Cobol Text

/-! ## First occurrences -/

section
variable {α : Type} [BEq α] [LawfulBEq α]

/-- The list holds what the other one holds, each element once and in order of
first occurrence there. -/
structure IsFirstOccurrences (as firsts : List α) : Prop where
  members : ∀ a, a ∈ firsts ↔ a ∈ as
  once : firsts.Nodup
  ordered : firsts.Pairwise (fun a b => as.idxOf a < as.idxOf b)

theorem isFirstOccurrences_distinct (as : List α) : IsFirstOccurrences as (distinct as) := by
  induction as with
  | nil => exact ⟨fun _ => Iff.rfl, List.nodup_nil, List.Pairwise.nil⟩
  | cons a as ih =>
    have hmem : ∀ b, b ∈ (distinct as).filter (fun b => !(b == a)) ↔ b ∈ as ∧ b ≠ a := by
      intro b
      rw [List.mem_filter, ih.members]
      simp
    constructor
    case members =>
      intro b
      rw [distinct, List.mem_cons, hmem, List.mem_cons]
      by_cases hb : b = a <;> simp [hb]
    case once =>
      rw [distinct, List.nodup_cons]
      exact ⟨fun h => ((hmem a).1 h).2 rfl, ih.once.filter _⟩
    case ordered =>
      have hlater : ∀ b, b ∈ as ∧ b ≠ a → (a :: as).idxOf b = as.idxOf b + 1 :=
        fun b hb => List.idxOf_cons_ne as (Ne.symm hb.2)
      rw [distinct, List.pairwise_cons]
      constructor
      · intro b hb
        rw [List.idxOf_cons_self, hlater b ((hmem b).1 hb)]
        exact Nat.succ_pos _
      · apply (ih.ordered.filter _).imp_of_mem
        intro b c hb hc hlt
        rw [hlater b ((hmem b).1 hb), hlater c ((hmem c).1 hc)]
        exact Nat.succ_lt_succ hlt

end

/-! ## Callers -/

/-- The paragraph has the last label at or above the line: any other label there
stands further up. -/
structure IsLastAbove (ps : List Paragraph) (n : Nat) (p : Paragraph) : Prop where
  listed : p ∈ ps
  above : p.line ≤ n
  last : ∀ q ∈ ps, q.line ≤ n → q = p ∨ q.line < p.line

/-- The name of the caller at a line: that of the paragraph with the last label
at or above the line, or MAIN if every label stands below. -/
inductive IsCaller (ps : List Paragraph) (n : Nat) : String → Prop
  | paragraph {p : Paragraph} (h : IsLastAbove ps n p) : IsCaller ps n p.name
  | main (h : ∀ p ∈ ps, n < p.line) : IsCaller ps n mainName

/-- Where the first label stands below a line, all of them do. -/
theorem LabelsAscend.below {ps : List Paragraph} (hps : LabelsAscend ps) {n : Nat}
    (h : ∀ first ∈ ps.head?, n < first.line) : ∀ p ∈ ps, n < p.line := by
  cases ps with
  | nil => simp
  | cons first others =>
    intro p hp
    have hfirst := h first rfl
    have hsplit : LabelsAscend ([] ++ first :: others) := hps
    rcases List.mem_cons.1 hp with rfl | hp
    · exact hfirst
    · exact Nat.lt_trans hfirst (hsplit.lt_after p hp)

theorem isLastAbove_of_paragraphAt? {ps : List Paragraph} (hps : LabelsAscend ps) {n : Nat}
    {p : Paragraph} (h : paragraphAt? ps n = some p) : IsLastAbove ps n p := by
  obtain ⟨hp, hle⟩ := le_of_paragraphAt? h
  refine ⟨hp, hle, ?_⟩
  obtain ⟨before, after, rfl⟩ := List.append_of_mem hp
  have hnext := ((paragraphAt?_split hps n).1 h).2
  have hafter : LabelsAscend after :=
    List.Pairwise.sublist (((List.sublist_cons_self p after).trans
      (List.sublist_append_right before _)).map Paragraph.line) hps
  intro q hq hqn
  rcases List.mem_append.1 hq with hq | hq
  · exact .inr (hps.before_lt q hq)
  · rcases List.mem_cons.1 hq with rfl | hq
    · exact .inl rfl
    · exact absurd (hafter.below hnext q hq) (Nat.not_lt.2 hqn)

/-- The caller that is found from the top has the last label at or above the
line. -/
theorem isCaller_paragraphAt? {ps : List Paragraph} (hps : LabelsAscend ps) (n : Nat) :
    IsCaller ps n (((paragraphAt? ps n).map Paragraph.name).getD mainName) := by
  cases hat : paragraphAt? ps n with
  | some p => exact .paragraph (isLastAbove_of_paragraphAt? hps hat)
  | none =>
    apply IsCaller.main
    apply hps.below
    intro first hfirst
    by_contra hle
    obtain ⟨p, hp⟩ := exists_paragraphAt? hfirst (Nat.not_lt.1 hle)
    rw [hat] at hp
    cases hp

/-! ## The lines of a call graph -/

/-- Who calls whom. -/
def Call.edge (c : Call) : String × String := (c.caller, c.callee)

/-- The row shows the PERFORM, with its caller. -/
structure IsRowOf (ps : List Paragraph) (p : Perform) (row : Call) : Prop where
  caller : IsCaller ps p.line row.caller
  callee : row.callee = p.target
  line : row.line = p.line

/-- The rows show the PERFORMs of the outline, in order, and the edges are those
of the rows, each once and in order of first occurrence. -/
structure IsCallGraph (o : Cobol.Outline) (rows : List Call) (es : List (String × String)) :
    Prop where
  shown : List.Forall₂ (IsRowOf o.paragraphs) o.performs rows
  drawn : IsFirstOccurrences (rows.map Call.edge) es

/-- The flowchart of the edges and the table of the rows. -/
def graphLines (rows : List Call) (es : List (String × String)) : List String :=
  ["## Call Graph", "", "```mermaid", "flowchart TD"] ++ es.map edgeLine
    ++ ["```", "", "| **From** | **To** | **Line** |", "|------|----|------|"] ++ rows.map callRow

/-- The lines of a report in front of the call graph. -/
def linesAboveCalls (time : String) (o : Cobol.Outline) : List String :=
  programSection time (.ofOutline o) ++ dataItemsSection o ++ paragraphsSection o
    ++ statementsSection (.ofOutline o) ++ conditionsSection o ++ filesSection (.ofOutline o)

/-- The lines of a report behind the call graph. -/
def linesBelowCalls (o : Cobol.Outline) : List String :=
  rule ++ unusedSection o ++ warningsSection (Summary.ofOutline o).warnings

theorem isCallGraph_of_labelsAscend {o : Cobol.Outline} (h : LabelsAscend o.paragraphs) :
    IsCallGraph o (calls o) (edges o) := by
  refine ⟨?_, isFirstOccurrences_distinct _⟩
  rw [calls, List.forall₂_map_right_iff, List.forall₂_same]
  exact fun p _ => ⟨isCaller_paragraphAt? h p.line, rfl, rfl⟩

theorem ofOutline_calls {o : Cobol.Outline} (h : o.performs ≠ []) (time : String) :
    ofOutline time (.cobol o) = unlines
      (linesAboveCalls time o ++ graphLines (calls o) (edges o) ++ linesBelowCalls o) := by
  have hsection : callsSection o = graphLines (calls o) (edges o) ++ rule := by
    rw [callsSection, if_neg (by simpa using h)]
    simp [graphLines]
  rw [ofOutline, program, programLines, hsection]
  simp only [linesAboveCalls, linesBelowCalls, List.append_assoc]

/-! ## The lines of a call graph in the report on a source -/

/-- The text may name a node: it holds alphanumeric characters and underscores,
at least one of them, and opens with no number. -/
structure IsNodeName (s : List Char) : Prop where
  nonempty : s ≠ []
  chars : ∀ c ∈ s, isAlphanumeric c = true ∨ c = '_'
  opens : OpensWithout isNumeric s

theorem isAlphanumeric_or_nodeChar (c : Char) :
    isAlphanumeric (nodeChar c) = true ∨ nodeChar c = '_' := by
  unfold nodeChar
  split
  next hc => simpa using hc
  next => exact .inr rfl

theorem isNodeName_guardNumber {s : List Char} (hne : s ≠ [])
    (hchars : ∀ c ∈ s, isAlphanumeric c = true ∨ c = '_') : IsNodeName (guardNumber s) := by
  obtain ⟨c, others, rfl⟩ := List.exists_cons_of_ne_nil hne
  rw [guardNumber]
  split
  next =>
    refine ⟨List.cons_ne_nil _ _, List.forall_mem_cons.2 ⟨.inr rfl, hchars⟩, ?_⟩
    intro d hd
    rw [← Option.some.inj hd]
    decide
  next hnumber =>
    refine ⟨hne, hchars, ?_⟩
    intro d hd
    rw [← Option.some.inj hd]
    exact Bool.eq_false_iff.2 hnumber

/-- Whatever the name, its node is named as the flowchart demands. -/
theorem isNodeName_nodeName (name : String) : IsNodeName (nodeName name).toList := by
  unfold nodeName
  split
  next =>
    have hletters : "UNKNOWN".toList.all isAlphanumeric = true := by decide
    exact ⟨by decide, fun c hc => .inl (List.all_eq_true.1 hletters c hc), by decide⟩
  next c others _ =>
    rw [String.toList_ofList]
    apply isNodeName_guardNumber
    · exact List.cons_ne_nil (nodeChar c) _
    · intro d hd
      obtain ⟨e, -, rfl⟩ := List.mem_map.1 hd
      exact isAlphanumeric_or_nodeChar e

theorem newline_not_mem_nodeName (name : String) : '\n' ∉ (nodeName name).toList := by
  intro hmem
  have hchar := (isNodeName_nodeName name).chars _ hmem
  exact absurd hchar (by decide)

theorem IsCaller.isName {ps : List Paragraph} (hps : ∀ p ∈ ps, IsName p.name.toList) {n : Nat}
    {name : String} (h : IsCaller ps n name) : IsName name.toList := by
  cases h with
  | paragraph h => exact hps _ h.listed
  | main => exact ⟨by decide, List.all_eq_true.1 (by decide)⟩

theorem newline_not_mem_edgeLine (e : String × String) : '\n' ∉ (edgeLine e).toList := by
  simp only [edgeLine, String.toList_append, List.mem_append, not_or]
  exact ⟨⟨⟨by decide, newline_not_mem_nodeName e.1⟩, by decide⟩, newline_not_mem_nodeName e.2⟩

theorem newline_not_mem_callRow {c : Call} (hcaller : IsName c.caller.toList)
    (hcallee : IsName c.callee.toList) : '\n' ∉ (callRow c).toList := by
  simp only [callRow, String.toList_append, List.mem_append, not_or]
  exact ⟨⟨⟨⟨⟨⟨by decide, hcaller.newline_not_mem⟩, by decide⟩, hcallee.newline_not_mem⟩,
    by decide⟩, newline_not_mem_toString c.line⟩, by decide⟩

theorem isName_of_mem_calls {o : Cobol.Outline} (hlabels : LabelsAscend o.paragraphs)
    (hparagraphs : ∀ p ∈ o.paragraphs, IsName p.name.toList)
    (hperforms : ∀ p ∈ o.performs, IsName p.target.toList) {c : Call} (h : c ∈ calls o) :
    IsName c.caller.toList ∧ IsName c.callee.toList := by
  obtain ⟨p, hp, rfl⟩ := List.mem_map.1 h
  exact ⟨(isCaller_paragraphAt? hlabels p.line).isName hparagraphs, hperforms p hp⟩

section
variable (source : String)

/-- Every line of the call graph is one line of the report. -/
theorem newline_not_mem_graphLines :
    ∀ line ∈ graphLines (calls (outline source)) (edges (outline source)), '\n' ∉ line.toList := by
  simp only [graphLines, List.forall_mem_append, List.forall_mem_map]
  refine ⟨⟨⟨by decide, fun e _ => newline_not_mem_edgeLine e⟩, by decide⟩, ?_⟩
  intro c hc
  obtain ⟨hcaller, hcallee⟩ := isName_of_mem_calls (labelsAscend_outline source)
    (fun p hp => (isSpelled_paragraphs source p hp).name)
    (fun p hp => isName_of_mem_performs source hp) hc
  exact newline_not_mem_callRow hcaller hcallee

/-- The report on a source with a PERFORM holds its call graph: a flowchart with
a line for each edge, and a table with a row for each PERFORM. -/
theorem callGraph_outline (h : (outline source).performs ≠ []) :
    IsCallGraph (outline source) (calls (outline source)) (edges (outline source)) ∧
      (∀ line ∈ graphLines (calls (outline source)) (edges (outline source)),
        '\n' ∉ line.toList) ∧
      ∀ time, ofOutline time (.cobol (outline source)) = unlines
        (linesAboveCalls time (outline source)
          ++ graphLines (calls (outline source)) (edges (outline source))
          ++ linesBelowCalls (outline source)) :=
  ⟨isCallGraph_of_labelsAscend (labelsAscend_outline source), newline_not_mem_graphLines source,
    ofOutline_calls h⟩

end

/-- A program that performs in front of its first label, beside that label and
twice below it. -/
def repeatedCalls : String :=
  "PROCEDURE DIVISION.\nPERFORM B.\nA. PERFORM B.\nPERFORM C-1.\nPERFORM B.\nB.\nC-1.\nSTOP RUN."

/-- The call that is repeated has two rows and one edge. -/
theorem callGraph_repeatedCalls :
    (outline repeatedCalls).performs ≠ [] ∧
      IsCallGraph (outline repeatedCalls)
        [⟨"MAIN", "B", 2⟩, ⟨"A", "B", 3⟩, ⟨"A", "C-1", 4⟩, ⟨"A", "B", 5⟩]
        [("MAIN", "B"), ("A", "B"), ("A", "C-1")] ∧
      ∃ above below, ofOutline "" (.cobol (outline repeatedCalls)) = unlines
        (above ++ ["## Call Graph", "", "```mermaid", "flowchart TD", "    MAIN --> B",
          "    A --> B", "    A --> C_1", "```", "", "| **From** | **To** | **Line** |",
          "|------|----|------|", "| **MAIN** | **B** | 2 |", "| **A** | **B** | 3 |",
          "| **A** | **C-1** | 4 |", "| **A** | **B** | 5 |"] ++ below) := by
  have hrows : calls (outline repeatedCalls) =
      [⟨"MAIN", "B", 2⟩, ⟨"A", "B", 3⟩, ⟨"A", "C-1", 4⟩, ⟨"A", "B", 5⟩] := by decide +kernel
  have hedges : edges (outline repeatedCalls) =
      [("MAIN", "B"), ("A", "B"), ("A", "C-1")] := by
    rw [edges, hrows]
    decide
  have hperforms : (outline repeatedCalls).performs ≠ [] := by
    intro hnone
    rw [calls, hnone] at hrows
    cases hrows
  obtain ⟨hgraph, -, hreport⟩ := callGraph_outline repeatedCalls hperforms
  rw [hrows, hedges] at hgraph hreport
  exact ⟨hperforms, hgraph, _, _, hreport ""⟩

end Mainframe.Report
