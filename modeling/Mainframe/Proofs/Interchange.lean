import Mainframe.Analysis
import Mainframe.Proofs.WrittenOutline

/-
  Interchange: what is written as JSON text is read back unchanged.

  Outlines, summaries and analyses are handed from one tool to another as text.
  Counts are 64-bit numbers there, so a value whose line numbers and counts are
  in that range loses nothing on the way, whatever texts it holds.

  What is proved:
    1. `Tally.ofJson?_toJson`, `Summary.ofJson?_toJson` and
       `Analysis.ofJson?_toJson`: each record is decoded from its written form.
    2. `interchange_lossless`: outlines, summaries and analyses are read back
       from their text, in either layout.
-/

namespace Mainframe

open Json

/-! ## Tallies -/

namespace Tally

theorem put_of_greater {name : String} {n : Nat} {es : List (String × Nat)}
    (h : ∀ e ∈ es, e.1 < name) : put name n es = es ++ [(name, n)] := by
  induction es with
  | nil => rfl
  | cons e es ih =>
    have he : e.1 < name := h e List.mem_cons_self
    have hnot : ¬name < e.1 := String.lt_asymm he
    have hne : e.1 ≠ name := fun heq => String.lt_irrefl name (heq ▸ he)
    rw [put, if_neg hnot, if_neg hne, ih (fun d hd => h d (List.mem_cons_of_mem e hd)),
      List.cons_append]

/-- Entries that ascend are appended one by one. -/
theorem foldlM_addMember {t : Tally} {es : List (String × Nat)}
    (h : (t.entries ++ es).Pairwise (fun a b => a.1 < b.1)) :
    ∃ t', (es.map (fun e => (e.1, Json.natural e.2))).foldlM addMember t = some t' ∧
      t'.entries = t.entries ++ es := by
  induction es generalizing t with
  | nil => exact ⟨t, rfl, by rw [List.append_nil]⟩
  | cons e es ih =>
    have hless : ∀ d ∈ t.entries, d.1 < e.1 :=
      fun d hd => (List.pairwise_append.1 h).2.2 d hd e List.mem_cons_self
    have hentries : (t.set e.1 e.2).entries = t.entries ++ [e] := put_of_greater hless
    obtain ⟨t', hfold, ht'⟩ := ih (t := t.set e.1 e.2) (by
      rwa [hentries, List.append_assoc, List.singleton_append])
    refine ⟨t', ?_, ?_⟩
    · rw [List.map_cons, List.foldlM_cons]
      exact hfold
    · rw [ht', hentries, List.append_assoc, List.singleton_append]

theorem ofJson?_toJson (t : Tally) : ofJson? t.toJson = some t := by
  obtain ⟨t', hfold, ht'⟩ := @foldlM_addMember empty t.entries t.ascending
  have heq : t' = t := by
    cases t
    cases t'
    simpa [empty] using ht'
  rw [toJson, ofJson?, hfold, heq]

theorem plain_toJson {t : Tally} (h : ∀ e ∈ t.entries, e.2 ≤ maxNatural) (room : Nat) :
    Plain (room + 1) t.toJson := by
  refine .object (fun m hm => ?_)
  obtain ⟨e, he, rfl⟩ := List.mem_map.1 hm
  exact .natural (h e he)

end Tally

/-! ## Summaries -/

namespace Summary

/-- Every count of the summary is a 64-bit number. -/
structure CountsFit (s : Summary) : Prop where
  dataItems : s.dataItems ≤ maxNatural
  statements : s.statements ≤ maxNatural
  statementTypes : ∀ e ∈ s.statementTypes.entries, e.2 ≤ maxNatural
  conditions : s.conditions ≤ maxNatural
  conditionals : s.conditionals ≤ maxNatural
  performStatements : s.performStatements ≤ maxNatural
  evaluates : s.evaluates ≤ maxNatural
  goTos : s.goTos ≤ maxNatural
  fileOperations : s.fileOperations ≤ maxNatural
  fileOperationTypes : ∀ e ∈ s.fileOperationTypes.entries, e.2 ≤ maxNatural
  paragraphs : s.paragraphs ≤ maxNatural
  performs : s.performs ≤ maxNatural

theorem ofJson?_toJson (s : Summary) : ofJson? s.toJson = some s := by
  have hslots := slots?_zip false fields
    [.string s.programId, .ofList (fun d => .string d.key) s.divisions, .natural s.dataItems,
      .natural s.statements, s.statementTypes.toJson, .natural s.conditions,
      .natural s.conditionals, .natural s.performStatements, .natural s.evaluates,
      .natural s.goTos, .natural s.fileOperations, s.fileOperationTypes.toJson,
      .natural s.paragraphs, .natural s.performs, .ofList .string s.warnings]
    (rfl : s.toJson = _) (by decide) rfl
  have hkey : ∀ d : Cobol.Division, keyword? Cobol.Division.ofKey? (.string d.key) = some d :=
    Cobol.Division.ofKey?_key
  have hdivisions := list?_ofList hkey s.divisions
  rw [ofJson?, hslots, Option.bind_eq_bind, Option.bind_some]
  -- field by field: simplifying all of them at once visits each rest twice
  refine (required_bind (a := s.programId) rfl _).trans ?_
  refine (required_bind hdivisions _).trans ?_
  refine (required_bind (a := s.dataItems) rfl _).trans ?_
  refine (required_bind (a := s.statements) rfl _).trans ?_
  refine (required_bind (Tally.ofJson?_toJson s.statementTypes) _).trans ?_
  refine (required_bind (a := s.conditions) rfl _).trans ?_
  refine (required_bind (a := s.conditionals) rfl _).trans ?_
  refine (required_bind (a := s.performStatements) rfl _).trans ?_
  refine (required_bind (a := s.evaluates) rfl _).trans ?_
  refine (required_bind (a := s.goTos) rfl _).trans ?_
  refine (required_bind (a := s.fileOperations) rfl _).trans ?_
  refine (required_bind (Tally.ofJson?_toJson s.fileOperationTypes) _).trans ?_
  refine (required_bind (a := s.paragraphs) rfl _).trans ?_
  refine (required_bind (a := s.performs) rfl _).trans ?_
  exact required_bind (list?_strings s.warnings) _

theorem plain_toJson {s : Summary} (hs : s.CountsFit) : Plain 2 s.toJson := by
  refine .object (fun m hm => ?_)
  simp only [List.mem_cons, List.not_mem_nil, or_false] at hm
  rcases hm with rfl | rfl | rfl | rfl | rfl | rfl | rfl | rfl | rfl | rfl | rfl | rfl | rfl |
    rfl | rfl
  · exact .string _
  · exact plain_ofList (fun d _ => .string d.key)
  · exact .natural hs.dataItems
  · exact .natural hs.statements
  · exact Tally.plain_toJson hs.statementTypes 0
  · exact .natural hs.conditions
  · exact .natural hs.conditionals
  · exact .natural hs.performStatements
  · exact .natural hs.evaluates
  · exact .natural hs.goTos
  · exact .natural hs.fileOperations
  · exact Tally.plain_toJson hs.fileOperationTypes 0
  · exact .natural hs.paragraphs
  · exact .natural hs.performs
  · exact plain_strings _

end Summary

/-! ## Analyses -/

namespace Analysis

/-- Every line number and every count in the analysis is a 64-bit number. -/
structure Fits (a : Analysis) : Prop where
  outline : a.outline.LinesFit
  summary : ∀ s, a.summary = some s → s.CountsFit

theorem ofJson?_toJson {a : Analysis} (ha : a.Fits) : ofJson? a.toJson = some a := by
  have hslots := slots?_zip false fields
    [.string a.language.name, a.outline.toJson, .ofOption Summary.toJson a.summary,
      .ofOption .string a.explanation] (rfl : a.toJson = _) (by decide) rfl
  have hroom : fits roomInOutline a.outline.toJson = true :=
    fits_of_plain ((Outline.plain_toJson ha.outline).mono (by decide))
  have houtline : outlineField? a.outline.toJson = some a.outline := by
    rw [outlineField?, if_pos hroom, Outline.ofJson?_toJson]
  have hsummary := optional_ofOption Summary.ofJson?_toJson
    (fun s => by simp [Summary.toJson]) a.summary
  rw [ofJson?, hslots]
  simp [required, keyword?, Language.ofName?_name, houtline, hsummary, optional_string]

theorem plain_toJson {a : Analysis} (ha : a.Fits) : Plain 6 a.toJson := by
  refine .object (fun m hm => ?_)
  simp only [List.mem_cons, List.not_mem_nil, or_false] at hm
  rcases hm with rfl | rfl | rfl | rfl
  · exact .string _
  · exact Outline.plain_toJson ha.outline
  · exact plain_ofOption (fun s hs => (Summary.plain_toJson (ha.summary s hs)).mono (by decide))
  · exact plain_ofOption (fun t _ => .string t)

end Analysis

/-! ## Texts -/

theorem Outline.ofText_toText {layout : Layout} (hl : layout.IsSpaced) {o : Outline}
    (ho : o.LinesFit) : Outline.ofText (o.toText layout) = .ok o := by
  have hplain : Plain maxDepth o.toJson := (Outline.plain_toJson ho).mono (by decide)
  rw [Outline.ofText, Outline.toText, read_text hl hplain]
  simp [Outline.ofJson?_toJson]

theorem interchange_lossless {layout : Layout} (hl : layout = .compact ∨ layout = .pretty) :
    (∀ o : Outline, o.LinesFit → Outline.ofText (o.toText layout) = .ok o) ∧
    (∀ s : Summary, s.CountsFit →
      decodeText? Summary.ofJson? (s.toJson.text layout) = some s) ∧
    (∀ a : Analysis, a.Fits →
      decodeText? Analysis.ofJson? (a.toJson.text layout) = some a) := by
  have hspaced : layout.IsSpaced := by
    rcases hl with rfl | rfl
    · exact isSpaced_compact
    · exact isSpaced_pretty
  refine ⟨fun o ho => Outline.ofText_toText hspaced ho, ?_, ?_⟩
  · intro s hs
    rw [decodeText?_text _ hspaced ((Summary.plain_toJson hs).mono (by decide)),
      Summary.ofJson?_toJson]
  · intro a ha
    rw [decodeText?_text _ hspaced ((Analysis.plain_toJson ha).mono (by decide)),
      Analysis.ofJson?_toJson ha]

/-- A program whose texts need every kind of escape, with a division that is
listed and marked `false`, and a statement on the last line that has a number. -/
def oddProgram : Cobol.Outline :=
  { Cobol.Outline.empty with
    programId := some "\"\\\n\x01\x7f \u2028"
    divisions := ⟨none, some false, none, some true⟩
    statements := [⟨"STMT_0", maxNatural, .stop⟩, ⟨"", 0, .move "\t" "/"⟩]
    controlFlow := [⟨"CF_7", 7, .goTo ""⟩] }

/-- A program and a deck without a job go to pretty text and back, alone and in
their analyses. -/
theorem interchange_of_oddProgram :
    (oddProgram.LinesFit ∧ (Summary.ofOutline oddProgram).CountsFit) ∧
    Outline.ofText ((Outline.cobol oddProgram).toText .pretty) = .ok (.cobol oddProgram) ∧
    decodeText? Summary.ofJson? ((Summary.ofOutline oddProgram).toJson.text .pretty) =
      some (Summary.ofOutline oddProgram) ∧
    decodeText? Analysis.ofJson?
        ((Analysis.ofOutline .cobol (.cobol oddProgram) none).toJson.text .pretty) =
      some (Analysis.ofOutline .cobol (.cobol oddProgram) none) ∧
    decodeText? Analysis.ofJson?
        ((Analysis.ofOutline .jcl (.jcl .empty) none).toJson.text .pretty) =
      some (Analysis.ofOutline .jcl (.jcl .empty) none) := by
  have hlines : oddProgram.LinesFit := by
    constructor <;> simp [oddProgram, Cobol.Outline.empty, maxNatural]
  have hcounts : (Summary.ofOutline oddProgram).CountsFit := by
    constructor <;> decide
  obtain ⟨houtline, hsummary, hanalysis⟩ := @interchange_lossless .pretty (.inr rfl)
  refine ⟨⟨hlines, hcounts⟩, houtline _ hlines, hsummary _ hcounts, hanalysis _ ⟨hlines, ?_⟩,
    hanalysis _ ⟨trivial, ?_⟩⟩
  · intro s hs
    exact Option.some.inj hs ▸ hcounts
  · intro s hs
    cases hs

end Mainframe
