import Mathlib.Logic.Relation
import Mainframe.Proofs.NormalizedText

/-
  Edits of a source that change nothing but its layout.

  A comment may be put between any two lines, blanks may follow a line, letters
  may change case, and a line of text may be given a sequence area. Every such
  edit leaves the retained lines as they were, line by line, and so the numbers
  of the lines too. Hence edits may follow one another in any order.

  What is proved:
    1. `retained?_comment`, `retained?_append_blanks`, `retained?_map_toUpper`
       and `retained?_sequenceArea`: what is retained of an edited line.
    2. `retainedLines_of_edit`: one edit keeps the retained lines.
    3. `outline_of_edits`: any number of edits keeps the outline.
-/

namespace Mainframe.Text

/-! ## Trimmed texts -/

theorem trimEnd_map {f : Char → Char} (hf : ∀ c, isBlank (f c) = isBlank c) (s : List Char) :
    trimEnd (s.map f) = (trimEnd s).map f := by
  induction s with
  | nil => rfl
  | cons c s ih =>
    rw [List.map_cons, trimEnd_cons, trimEnd_cons, ih, hf, List.isEmpty_map]
    split
    next => rfl
    next => rw [List.map_cons]

theorem trimStart_map {f : Char → Char} (hf : ∀ c, isBlank (f c) = isBlank c) (s : List Char) :
    trimStart (s.map f) = (trimStart s).map f := by
  have hcomp : isBlank ∘ f = isBlank := funext hf
  rw [trimStart, List.dropWhile_map, hcomp, trimStart]

theorem trimStart_append_blanks {blanks : List Char} (h : ∀ c ∈ blanks, isBlank c = true)
    (s : List Char) : trimStart (blanks ++ s) = trimStart s :=
  List.dropWhile_append_of_pos h

theorem exists_trimStart_eq (s : List Char) :
    ∃ blanks, (∀ c ∈ blanks, isBlank c = true) ∧ s = blanks ++ trimStart s := by
  refine ⟨s.takeWhile isBlank, ?_, List.takeWhile_append_dropWhile.symm⟩
  intro c hc
  exact List.all_eq_true.1 List.all_takeWhile c hc

/-! ## Letters in either case -/

/-- Only small letters of ASCII have another capital. -/
theorem toUpper_of_not_ascii {c : Char} (h : ¬ c.toNat < 128) : c.toUpper = c := by
  unfold Char.toUpper
  rw [dif_neg]
  rintro ⟨-, hle⟩
  have hle' : c.toNat ≤ 122 := UInt32.le_iff_toNat_le.1 hle
  omega

/-- What does not depend on the case of an ASCII letter does not depend on the
case of any character. -/
theorem apply_toUpper {α : Type} {f : Char → α}
    (hascii : ∀ n < 128, f (Char.ofNat n).toUpper = f (Char.ofNat n)) (c : Char) :
    f c.toUpper = f c := by
  by_cases hc : c.toNat < 128
  · exact of_ascii (p := fun c => f c.toUpper = f c) hascii hc
  · rw [toUpper_of_not_ascii hc]

theorem isBlank_toUpper (c : Char) : isBlank c.toUpper = isBlank c :=
  apply_toUpper (by decide +kernel) c

theorem isDigit_toUpper (c : Char) : c.toUpper.isDigit = c.isDigit :=
  apply_toUpper (f := Char.isDigit) (by decide +kernel) c

theorem isAsterisk_toUpper (c : Char) : (c.toUpper == '*') = (c == '*') :=
  apply_toUpper (f := fun c => c == '*') (by decide +kernel) c

theorem upperChars_toUpper (c : Char) : upperChars c.toUpper = upperChars c :=
  apply_toUpper (by decide +kernel) c

theorem isBlank_of_isDigit {c : Char} (h : c.isDigit = true) : isBlank c = false := by
  have hall : ∀ n < 128, (Char.ofNat n).isDigit = true → isBlank (Char.ofNat n) = false := by
    decide +kernel
  have hascii : c.toNat < 128 := by
    simp only [Char.isDigit, Bool.and_eq_true, decide_eq_true_eq] at h
    have hle : c.toNat ≤ 57 := UInt32.le_iff_toNat_le.1 h.2
    omega
  exact of_ascii (p := fun c => c.isDigit = true → isBlank c = false) hall hascii h

theorem uppercase_map_toUpper (s : List Char) : uppercase (s.map Char.toUpper) = uppercase s := by
  rw [uppercase, List.flatMap_map]
  congr 1
  exact funext upperChars_toUpper

end Mainframe.Text

namespace Mainframe.Cobol

open Mainframe.Text

/-! ## What is retained of a line -/

/-- The text is an asterisk with blanks in front and anything behind. -/
def HasLeadingAsterisk (s : List Char) : Prop :=
  ∃ blanks rest, (∀ c ∈ blanks, isBlank c = true) ∧ s = blanks ++ '*' :: rest

/-- The text is a sequence area, six digits, with at least one more character
behind it. -/
def HasSequenceArea (s : List Char) : Prop :=
  ∃ area c rest, area.length = 6 ∧ (∀ d ∈ area, d.isDigit = true) ∧ s = area ++ c :: rest

theorem isComment_iff {s : List Char} : isComment s = true ↔ HasLeadingAsterisk s := by
  rw [isComment, beq_iff_eq]
  constructor
  · intro h
    obtain ⟨rest, hrest⟩ := List.head?_eq_some_iff.1 h
    obtain ⟨blanks, hblanks, hs⟩ := exists_trimStart_eq s
    exact ⟨blanks, rest, hblanks, by rw [← hrest]; exact hs⟩
  · rintro ⟨blanks, rest, hblanks, rfl⟩
    rw [trimStart_append_blanks hblanks]
    rfl

theorem dropSequenceArea_append {area s : List Char} (hlen : area.length = 6)
    (hdigits : ∀ d ∈ area, d.isDigit = true) (hne : s ≠ []) : dropSequenceArea (area ++ s) = s := by
  have hlonger : 6 < (area ++ s).length := by
    have hpos := List.length_pos_iff.2 hne
    rw [List.length_append]
    omega
  have htake : (area ++ s).take 6 = area := List.take_left' hlen
  have hall : area.all Char.isDigit = true := List.all_eq_true.2 hdigits
  rw [dropSequenceArea, htake, hall, decide_eq_true hlonger, Bool.and_true, if_pos rfl,
    List.drop_left' hlen]

theorem dropSequenceArea_of_not {s : List Char} (h : ¬ HasSequenceArea s) :
    dropSequenceArea s = s := by
  unfold dropSequenceArea
  split
  next hcut =>
    rw [Bool.and_eq_true, decide_eq_true_eq] at hcut
    have hrest : s.drop 6 ≠ [] := by
      rw [Ne, List.drop_eq_nil_iff]
      omega
    obtain ⟨c, rest, hs⟩ := List.exists_cons_of_ne_nil hrest
    have harea : (s.take 6).length = 6 := by
      rw [List.length_take]
      omega
    refine absurd ⟨s.take 6, c, rest, harea, List.all_eq_true.1 hcut.2, ?_⟩ h
    rw [← hs, List.take_append_drop]
  next => rfl

/-- A comment stays one whatever stands at its end. -/
theorem retained?_comment {line : List Char} (h : HasLeadingAsterisk line) :
    retained? line = none := by
  obtain ⟨blanks, rest, hblanks, rfl⟩ := h
  have htail : trimEnd ('*' :: rest) = '*' :: trimEnd rest :=
    trimEnd_cons_of_not_blank (by decide) rest
  have hne : trimEnd ('*' :: rest) ≠ [] := by
    rw [htail]
    exact List.cons_ne_nil '*' (trimEnd rest)
  have hcomment : isComment (trimEnd (blanks ++ '*' :: rest)) = true := by
    rw [trimEnd_append_of_ne_nil blanks hne, htail]
    exact isComment_iff.2 ⟨blanks, trimEnd rest, hblanks, rfl⟩
  rw [retained?, hcomment, if_pos rfl]

theorem retained?_append_blanks (line : List Char) {blanks : List Char}
    (h : ∀ c ∈ blanks, isBlank c = true) : retained? (line ++ blanks) = retained? line := by
  rw [retained?, trimEnd_append_blanks line h, retained?]

theorem isComment_map_toUpper (s : List Char) : isComment (s.map Char.toUpper) = isComment s := by
  rw [isComment, trimStart_map isBlank_toUpper, List.head?_map, isComment]
  cases (trimStart s).head? with
  | none => rfl
  | some c => exact isAsterisk_toUpper c

theorem dropSequenceArea_map_toUpper (s : List Char) :
    dropSequenceArea (s.map Char.toUpper) = (dropSequenceArea s).map Char.toUpper := by
  have hdigits : ((s.map Char.toUpper).take 6).all Char.isDigit = (s.take 6).all Char.isDigit := by
    rw [← List.map_take, List.all_map]
    congr 1
    exact funext isDigit_toUpper
  rw [dropSequenceArea, hdigits, List.length_map, dropSequenceArea, ← List.map_drop]
  split
  next => rfl
  next => rfl

/-- A line is retained in upper case, so the case of its letters is lost. -/
theorem retained?_map_toUpper (line : List Char) :
    retained? (line.map Char.toUpper) = retained? line := by
  rw [retained?, trimEnd_map isBlank_toUpper, isComment_map_toUpper,
    dropSequenceArea_map_toUpper, uppercase_map_toUpper, retained?]

/-- A sequence area in front of text that has none of its own is cut off again. -/
theorem retained?_sequenceArea {area line : List Char} (hlen : area.length = 6)
    (hdigits : ∀ d ∈ area, d.isDigit = true) (htext : trimEnd line ≠ [])
    (hcomment : ¬ HasLeadingAsterisk (trimEnd line)) (harea : ¬ HasSequenceArea (trimEnd line)) :
    retained? (area ++ line) = retained? line := by
  have hfirst : isComment (area ++ trimEnd line) = false := by
    obtain ⟨d, digits, rfl⟩ : ∃ d digits, area = d :: digits :=
      List.exists_cons_of_ne_nil (List.length_pos_iff.1 (by omega))
    have hd : d.isDigit = true := hdigits d List.mem_cons_self
    have hstar : d ≠ '*' := by
      rintro rfl
      cases hd
    rw [isComment, List.cons_append, trimStart_cons_of_not_blank (isBlank_of_isDigit hd)]
    simpa using hstar
  have hplain : isComment (trimEnd line) = false := by
    rw [← Bool.not_eq_true, isComment_iff]
    exact hcomment
  rw [retained?, trimEnd_append_of_ne_nil area htext, hfirst,
    dropSequenceArea_append hlen hdigits htext, retained?, hplain, dropSequenceArea_of_not harea]

/-! ## Edits -/

/-- A line is written in another way: with more blanks behind it, with letters
in another case, or with a sequence area in front. Only text that is no comment
and has no sequence area of its own is given one. -/
inductive Rewritten : List Char → List Char → Prop where
  | blanks (line blanks : List Char) (hblanks : ∀ c ∈ blanks, isBlank c = true) :
      Rewritten line (line ++ blanks)
  | letters (line line' : List Char) (hletters : line'.map Char.toUpper = line.map Char.toUpper) :
      Rewritten line line'
  | sequenceArea (area line : List Char) (hlen : area.length = 6)
      (hdigits : ∀ d ∈ area, d.isDigit = true) (htext : trimEnd line ≠ [])
      (hcomment : ¬ HasLeadingAsterisk (trimEnd line))
      (harea : ¬ HasSequenceArea (trimEnd line)) : Rewritten line (area ++ line)

/-- The lines after one edit: a comment is put somewhere, or a line is written
in another way. -/
inductive Edit : List (List Char) → List (List Char) → Prop where
  | insert (above : List (List Char)) (comment : List Char) (below : List (List Char))
      (hcomment : HasLeadingAsterisk comment) : Edit (above ++ below) (above ++ comment :: below)
  | rewrite (above : List (List Char)) {line line' : List Char} (below : List (List Char))
      (hline : Rewritten line line') : Edit (above ++ line :: below) (above ++ line' :: below)

/-- The second source is the first one after an edit of its lines. No line of a
source holds a line feed, so none is put into a comment or among blanks. -/
def IsEdited (s t : String) : Prop := Edit (splitLines s.toList) (splitLines t.toList)

theorem retained?_of_rewritten {line line' : List Char} (h : Rewritten line line') :
    retained? line' = retained? line := by
  cases h with
  | blanks _ blanks hblanks => exact retained?_append_blanks line hblanks
  | letters _ _ hletters =>
    rw [← retained?_map_toUpper line', hletters, retained?_map_toUpper]
  | sequenceArea area _ hlen hdigits htext hcomment harea =>
    exact retained?_sequenceArea hlen hdigits htext hcomment harea

theorem filterMap_retained?_of_edit {lines lines' : List (List Char)} (h : Edit lines lines') :
    lines'.filterMap retained? = lines.filterMap retained? := by
  cases h with
  | insert above comment below hcomment =>
    rw [List.filterMap_append, List.filterMap_append,
      List.filterMap_cons_none (retained?_comment hcomment)]
  | rewrite above below hline =>
    rw [List.filterMap_append, List.filterMap_append, List.filterMap_cons, List.filterMap_cons,
      retained?_of_rewritten hline]

theorem retainedLines_of_edit {s t : String} (h : IsEdited s t) :
    retainedLines t.toList = retainedLines s.toList :=
  filterMap_retained?_of_edit h

theorem outline_of_edit {s t : String} (h : IsEdited s t) : outline t = outline s := by
  rw [outline, normalize, retainedLines_of_edit h, outline, normalize]

/-- Layout is no part of what a source says: its outline, with every line number
in it, is the same after any number of edits. -/
theorem outline_of_edits {s t : String} (h : Relation.ReflTransGen IsEdited s t) :
    outline t = outline s := by
  induction h with
  | refl => rfl
  | tail _ hstep ih => rw [outline_of_edit hstep, ih]

/-- The source that has the lines. -/
def ofLines (lines : List (List Char)) : String := String.ofList (joinLines lines)

theorem splitLines_ofLines {lines : List (List Char)} (hne : lines ≠ [])
    (h : ∀ line ∈ lines, '\n' ∉ line) : splitLines (ofLines lines).toList = lines := by
  rw [ofLines, String.toList_ofList, splitLines_joinLines hne h]

theorem Edit.ne_nil {lines lines' : List (List Char)} (h : Edit lines lines') : lines' ≠ [] := by
  cases h <;> simp

/-- Lines without a line feed are edited in the source as they are on their own. -/
theorem isEdited_ofLines {lines lines' : List (List Char)} (hne : lines ≠ [])
    (h : Edit lines lines') (hlines : ∀ line ∈ lines, '\n' ∉ line)
    (hlines' : ∀ line ∈ lines', '\n' ∉ line) : IsEdited (ofLines lines) (ofLines lines') := by
  rw [IsEdited, splitLines_ofLines hne hlines, splitLines_ofLines h.ne_nil hlines']
  exact h

/-- A listing as it was typed in, with a line of just six digits. -/
def typedLines : List (List Char) := ["main.".toList, "123456".toList, "STOP RUN.".toList]

/-- The listing with letters in the other case, a sequence area, a comment, and
a carriage return and a wide space behind a line. -/
def printedLines : List (List Char) :=
  ["Main.\r\u3000".toList, " * note".toList, "000100123456".toList, "STOP RUN.".toList]

/-- One edit of each kind leads from the typed listing to the printed one. -/
theorem outline_of_printedLines :
    Relation.ReflTransGen IsEdited (ofLines typedLines) (ofLines printedLines) ∧
      outline (ofLines printedLines) = outline (ofLines typedLines) := by
  have hletters := isEdited_ofLines (by decide) (.rewrite [] ["123456".toList, "STOP RUN.".toList]
    (.letters "main.".toList "Main.".toList (by decide))) (by decide) (by decide)
  have hnumber : Rewritten "123456".toList ("000100".toList ++ "123456".toList) := by
    apply Rewritten.sequenceArea _ _ (by decide) (List.all_eq_true.1 (by decide)) (by decide)
    · rw [← isComment_iff]
      decide
    · rintro ⟨area, c, rest, hlen, -, h⟩
      have hlong := congrArg List.length h
      rw [List.length_append, List.length_cons, hlen] at hlong
      have hshort : (trimEnd "123456".toList).length = 6 := by decide
      omega
  have harea := isEdited_ofLines (by decide)
    (.rewrite ["Main.".toList] ["STOP RUN.".toList] hnumber) (by decide) (by decide)
  have hcomment := isEdited_ofLines (by decide)
    (.insert ["Main.".toList] " * note".toList ["000100123456".toList, "STOP RUN.".toList]
      ⟨" ".toList, " note".toList, List.all_eq_true.1 (by decide), rfl⟩) (by decide) (by decide)
  have hblanks := isEdited_ofLines (by decide)
    (.rewrite [] [" * note".toList, "000100123456".toList, "STOP RUN.".toList]
      (.blanks "Main.".toList "\r\u3000".toList (List.all_eq_true.1 (by decide))))
    (by decide) (by decide)
  have hedits : Relation.ReflTransGen IsEdited (ofLines typedLines) (ofLines printedLines) :=
    (((Relation.ReflTransGen.single hletters).tail harea).tail hcomment).tail hblanks
  exact ⟨hedits, outline_of_edits hedits⟩

end Mainframe.Cobol
