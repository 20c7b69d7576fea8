import Mainframe.Report.Program
import Mainframe.Proofs.JoinedSources
import Mainframe.Proofs.LineNumbers
import Mainframe.Proofs.PhrasePlaces

/-
  Paragraphs that a report lists as unused, and the calls on the lines.

  A line calls a paragraph where PERFORM or GO TO stands apart in it with the
  paragraph's name behind. An outline does not hold every call: of a line it
  keeps the first PERFORM, and the first GO TO unless an IF, a PERFORM or an
  EVALUATE is the line's branch. A paragraph that is called in no other place
  is listed as unused.

  What is proved:
    1. `performTarget?_eq_some_iff` and `goTo?_eq_some_iff`: what is found on a
       line is its first call of the kind.
    2. `mem_unusedParagraphs_iff`: a paragraph is listed if and only if no line
       shows a call of it.
    3. `unused_uncalled_iff`: no paragraph that is called is listed if and only
       if every one that is called is shown.
    4. `called_but_unused`: a paragraph that is called behind an IF and listed.
-/

namespace Mainframe.Cobol

open Mainframe.Text

/-! ## Calls on a line -/

/-- The text starts with the keywords, each with a gap behind it, and then with
the name, up to a character that no name holds. -/
def StartsCall (name : List Char) : List (List Char) → List Char → Prop
  | [], s => ∃ rest, name ≠ [] ∧ (∀ c ∈ name, isNameChar c = true) ∧ s = name ++ rest ∧
      OpensWithout isNameChar rest
  | word :: words, s => ∃ gap rest, IsGap gap ∧ s = word ++ (gap ++ rest) ∧
      StartsCall name words rest

/-- The keywords, the first of which stands apart, call the name at the place. -/
def CallsAt (words : List (List Char)) (line : List Char) (n : Nat) (name : List Char) : Prop :=
  IsApart line n ∧ StartsCall name words (line.drop n)

/-- The keyword of a PERFORM. -/
def performWords : List (List Char) := ["PERFORM".toList]

/-- The keywords of a GO TO. -/
def goToWords : List (List Char) := ["GO".toList, "TO".toList]

/-- The line calls the name, by a PERFORM or a GO TO anywhere in it. -/
def Calls (line name : List Char) : Prop :=
  ∃ n, CallsAt performWords line n name ∨ CallsAt goToWords line n name

/-- The name is what the keywords call at the first place where they call
anything. -/
def CallsFirst (words : List (List Char)) (line name : List Char) : Prop :=
  ∃ n, CallsAt words line n name ∧ ∀ m < n, ∀ other, ¬ CallsAt words line m other

theorem isBlank_of_isNameChar {c : Char} (h : isNameChar c = true) : isBlank c = false := by
  rw [← Bool.not_eq_true]
  intro hblank
  have hall : ∀ n ∈ blankCodes, isNameChar (Char.ofNat n) = false := by decide +kernel
  have hc := hall c.toNat (mem_blankCodes_of_isBlank hblank)
  rw [Char.ofNat_toNat, h] at hc
  cases hc

theorem name?_fst_eq_some_iff {name s : List Char} :
    (name? isNameChar s).map Prod.fst = some name ↔ StartsCall name [] s := by
  rw [StartsCall, Option.map_eq_some_iff]
  constructor
  · rintro ⟨⟨_, rest⟩, h, rfl⟩
    exact ⟨rest, name?_eq_some_iff.1 h⟩
  · rintro ⟨rest, h⟩
    exact ⟨(name, rest), name?_eq_some_iff.2 h, rfl⟩

/-- A call starts with a name or a keyword, and neither with a blank. -/
theorem StartsCall.opensWithout {name : List Char} {words : List (List Char)}
    (hwords : ∀ word ∈ words, word ≠ [] ∧ OpensWithout isBlank word) {s : List Char}
    (h : StartsCall name words s) : OpensWithout isBlank s := by
  intro c hc
  cases words with
  | nil =>
    obtain ⟨rest, hne, hname, rfl, -⟩ := h
    rw [List.head?_append_of_ne_nil _ hne] at hc
    exact isBlank_of_isNameChar (hname c (List.mem_of_mem_head? hc))
  | cons word words =>
    obtain ⟨hne, hword⟩ := hwords word List.mem_cons_self
    obtain ⟨gap, rest, -, rfl, -⟩ := h
    rw [List.head?_append_of_ne_nil _ hne] at hc
    exact hword c hc

theorem gapName?_eq_some_iff {name s : List Char} :
    gapName? s = some name ↔
      ∃ gap rest, IsGap gap ∧ s = gap ++ rest ∧ StartsCall name [] rest := by
  simp only [gapName?, ← name?_fst_eq_some_iff]
  apply gap?_bind_eq_some_iff
  intro here other hother
  exact (name?_fst_eq_some_iff.1 hother).opensWithout (by simp)

theorem gapWord_gapName?_eq_some_iff {word name s : List Char} (hne : word ≠ [])
    (hword : OpensWithout isBlank word) :
    gapWord word gapName? s = some name ↔
      ∃ gap rest, IsGap gap ∧ s = gap ++ rest ∧ StartsCall name [word] rest := by
  have hcall : ∀ here other, (after? word here).bind gapName? = some other ↔
      StartsCall other [word] here := by
    intro here other
    simp only [Option.bind_eq_some_iff, after?_eq_some_iff, gapName?_eq_some_iff, StartsCall]
    constructor
    · rintro ⟨_, rfl, gap, rest, hgap, rfl, hname⟩
      exact ⟨gap, rest, hgap, rfl, hname⟩
    · rintro ⟨gap, rest, hgap, rfl, hname⟩
      exact ⟨gap ++ rest, rfl, gap, rest, hgap, rfl, hname⟩
  simp only [gapWord, ← hcall]
  apply gap?_bind_eq_some_iff
  intro here other hother
  exact ((hcall here other).1 hother).opensWithout (by simpa using ⟨hne, hword⟩)

/-- What is found behind a keyword is the first call, if the rest of the phrase
is a gap with the other keywords and a name behind it. -/
theorem findWord?_eq_some_iff_callsFirst {word : List Char} (hne : word ≠ [])
    {words : List (List Char)} {rest : List Char → Option (List Char)}
    (hrest : ∀ s name, rest s = some name ↔
      ∃ gap here, IsGap gap ∧ s = gap ++ here ∧ StartsCall name words here)
    {line name : List Char} :
    findWord? word rest line = some name ↔ CallsFirst (word :: words) line name := by
  have hplace : ∀ n other,
      FitsAt word rest line n other ↔ CallsAt (word :: words) line n other := by
    intro n other
    rw [FitsAt, CallsAt, StartsCall]
    apply and_congr_right
    intro _
    constructor
    · rintro ⟨tail, hdrop, htail⟩
      obtain ⟨gap, here, hgap, rfl, hcall⟩ := (hrest tail other).1 htail
      exact ⟨gap, here, hgap, hdrop, hcall⟩
    · rintro ⟨gap, here, hgap, hdrop, hcall⟩
      exact ⟨gap ++ here, hdrop, (hrest _ other).2 ⟨gap, here, hgap, rfl, hcall⟩⟩
  rw [findWord?_eq_some_iff hne, CallsFirst]
  simp only [hplace]

/-- The target that is found on a line is that of its first PERFORM. -/
theorem performTarget?_eq_some_iff {line name : List Char} :
    performTarget? line = some name ↔ CallsFirst performWords line name :=
  findWord?_eq_some_iff_callsFirst (by decide) (fun _ _ => gapName?_eq_some_iff)

/-- The target that is found on a line is that of its first GO TO. -/
theorem goTo?_eq_some_iff {line : List Char} {target : String} :
    goTo? line = some (.goTo target) ↔ CallsFirst goToWords line target.toList := by
  have hfind : findWord? "GO".toList (gapWord "TO".toList gapName?) line = some target.toList ↔
      CallsFirst goToWords line target.toList :=
    findWord?_eq_some_iff_callsFirst (by decide)
      (fun _ _ => gapWord_gapName?_eq_some_iff (by decide) (by decide))
  rw [← hfind, goTo?, Option.map_eq_some_iff]
  constructor
  · rintro ⟨name, hname, heq⟩
    rw [hname, ← Branch.goTo.inj heq, String.toList_ofList]
  · intro h
    exact ⟨target.toList, h, by rw [String.ofList_toList]⟩

/-! ## Calls that an outline holds -/

/-- The GO TO of a line is its branch if none of the other branches is found. -/
theorem branch?_eq_goTo_iff {line : List Char} {target : String} :
    branch? line = some (.goTo target) ↔
      conditional? line = none ∧ perform? line = none ∧ evaluate? line = none ∧
        goTo? line = some (.goTo target) := by
  have hconditional : conditional? line ≠ some (.goTo target) := by simp [conditional?]
  have hperform : perform? line ≠ some (.goTo target) := by simp [perform?]
  have hevaluate : evaluate? line ≠ some (.goTo target) := by simp [evaluate?]
  simp only [branch?, branchRules, List.findSome?_cons, List.findSome?_nil]
  cases hc : conditional? line with
  | some b => simpa [hc] using hconditional
  | none =>
    cases hp : perform? line with
    | some b => simpa [hp] using hperform
    | none =>
      cases he : evaluate? line with
      | some b => simpa [he] using hevaluate
      | none => cases goTo? line <;> simp

/-- The line shows a call of the name: its first PERFORM calls it, or its first
GO TO does and no other branch is found on the line. -/
def ShowsCall (line name : List Char) : Prop :=
  CallsFirst performWords line name ∨
    (conditional? line = none ∧ perform? line = none ∧ evaluate? line = none ∧
      CallsFirst goToWords line name)

theorem showsCall_iff {line : List Char} {target : String} :
    ShowsCall line target.toList ↔
      performTarget? line = some target.toList ∨ branch? line = some (.goTo target) := by
  rw [ShowsCall, performTarget?_eq_some_iff, branch?_eq_goTo_iff, goTo?_eq_some_iff]

end Mainframe.Cobol

namespace Mainframe.Report

open Cobol Text

/-- What a rule finds in a source is found on some retained line. -/
theorem exists_mem_collect_sourceLines {α β : Type} (rule : List Char → Option α)
    {record : Nat → α → β} (hempty : rule [] = none) {source : String} {p : β → Prop} {q : α → Prop}
    (hpq : ∀ n a, p (record n a) ↔ q a) :
    (∃ r ∈ collect rule record (sourceLines source), p r) ↔
      ∃ line ∈ retainedLines source.toList, ∃ a, rule line = some a ∧ q a := by
  have hlines : collect rule record (sourceLines source) =
      collect rule record (numbered 0 (retainedLines source.toList)) :=
    collect_normalized rule record hempty 0 source
  have hmap : (numbered 0 (retainedLines source.toList)).map Prod.fst =
      retainedLines source.toList := List.zipIdx_map_fst ..
  rw [hlines]
  constructor
  · rintro ⟨r, hr, hp⟩
    obtain ⟨line, hline, a, ha, rfl⟩ := mem_collect.1 hr
    have hmem : line.1 ∈ (numbered 0 (retainedLines source.toList)).map Prod.fst :=
      List.mem_map_of_mem hline
    rw [hmap] at hmem
    exact ⟨line.1, hmem, a, ha, (hpq line.2 a).1 hp⟩
  · rintro ⟨line, hline, a, ha, hq⟩
    rw [← hmap] at hline
    obtain ⟨⟨_, n⟩, hnumbered, rfl⟩ := List.mem_map.1 hline
    exact ⟨record n a, mem_collect.2 ⟨_, hnumbered, a, ha, rfl⟩, (hpq n a).2 hq⟩

theorem mem_goToTargets_iff {o : Cobol.Outline} {target : String} :
    target ∈ goToTargets o ↔ ∃ c ∈ o.controlFlow, c.branch = .goTo target := by
  rw [goToTargets, List.mem_filterMap]
  constructor
  · rintro ⟨c, hc, htarget⟩
    refine ⟨c, hc, ?_⟩
    split at htarget
    next other hbranch => rw [hbranch, Option.some.inj htarget]
    next => cases htarget
  · rintro ⟨c, hc, hbranch⟩
    exact ⟨c, hc, by rw [hbranch]⟩

/-- A report lists the paragraphs, the first one apart, of which no line shows a
call. -/
theorem mem_unusedParagraphs_iff {source : String} {p : Paragraph} :
    p ∈ unusedParagraphs (outline source) ↔
      p ∈ (outline source).paragraphs.drop 1 ∧
        ¬ ∃ line ∈ retainedLines source.toList, ShowsCall line p.name.toList := by
  have hperforms : p.name ∈ (outline source).performs.map Perform.target ↔
      ∃ line ∈ retainedLines source.toList, performTarget? line = some p.name.toList := by
    rw [performs_outline, List.mem_map]
    refine (exists_mem_collect_sourceLines performTarget?
      (q := fun target => target = p.name.toList) rfl ?_).trans (by simp)
    intro n target
    constructor
    · intro h
      rw [← h, String.toList_ofList]
    · rintro rfl
      exact String.ofList_toList
  have hgoTos : p.name ∈ goToTargets (outline source) ↔
      ∃ line ∈ retainedLines source.toList, branch? line = some (.goTo p.name) := by
    rw [mem_goToTargets_iff, controlFlow_outline]
    refine (exists_mem_collect_sourceLines branch?
      (q := fun branch => branch = .goTo p.name) rfl (fun n branch => Iff.rfl)).trans (by simp)
  rw [unusedParagraphs, List.mem_filter, Bool.not_eq_true', Bool.or_eq_false_iff]
  apply and_congr_right
  intro _
  simp only [← Bool.not_eq_true, List.contains_iff_mem, hperforms, hgoTos, showsCall_iff]
  grind

/-- A report lists no paragraph that is called if and only if, of every
paragraph but the first, some line shows a call as soon as some line calls it. -/
theorem unused_uncalled_iff (source : String) :
    (∀ p ∈ unusedParagraphs (outline source),
        ∀ line ∈ retainedLines source.toList, ¬ Calls line p.name.toList) ↔
      ∀ p ∈ (outline source).paragraphs.drop 1,
        (∃ line ∈ retainedLines source.toList, Calls line p.name.toList) →
          ∃ line ∈ retainedLines source.toList, ShowsCall line p.name.toList := by
  constructor
  · rintro h p hp ⟨line, hline, hcalls⟩
    by_cases hshown : ∃ line ∈ retainedLines source.toList, ShowsCall line p.name.toList
    · exact hshown
    · exact absurd hcalls (h p (mem_unusedParagraphs_iff.2 ⟨hp, hshown⟩) line hline)
  · intro h p hp line hline hcalls
    obtain ⟨hparagraph, hhidden⟩ := mem_unusedParagraphs_iff.1 hp
    exact hhidden (h p hparagraph ⟨line, hline, hcalls⟩)

/-- A program that goes to its second paragraph, if a condition holds. -/
def guardedJump : String := "PROCEDURE DIVISION.\nA.\nIF X GO TO B.\nB.\nSTOP RUN."

/-- The second paragraph of the program is listed as unused, and the line with
the condition calls it. -/
theorem called_but_unused :
    ∃ p ∈ unusedParagraphs (outline guardedJump),
      unusedLine p ∈ unusedSection (outline guardedJump) ∧
      ∃ line ∈ retainedLines guardedJump.toList, Calls line p.name.toList := by
  have hunused : unusedParagraphs (outline guardedJump) = [⟨"PARA_4", "B", 4⟩] := by
    decide +kernel
  have hlisted : unusedLine ⟨"PARA_4", "B", 4⟩ ∈ unusedSection (outline guardedJump) := by
    rw [unusedSection, hunused]
    decide +kernel
  have hline : "IF X GO TO B.".toList ∈ retainedLines guardedJump.toList := by decide +kernel
  have hcalls : CallsAt goToWords "IF X GO TO B.".toList 5 "B".toList := by
    refine ⟨by decide, " ".toList, "TO B.".toList, by decide, rfl, " ".toList, "B.".toList,
      by decide, rfl, ".".toList, by decide, List.all_eq_true.1 (by decide), rfl, by decide⟩
  exact ⟨_, hunused ▸ List.mem_singleton_self _, hlisted, _, hline, 5, .inr hcalls⟩

end Mainframe.Report
