import Mainframe.Proofs.FieldGrammar

/-
  The program id of two sources with a line feed between them.

  The program id is the name behind the first header that has one. A header
  without a name is passed over, unless nothing but blanks follows it: the gap
  behind it goes on over the ends of lines, so it takes the name at the start of
  the lines below. But such a header is the last one of its text. So a program
  id in front of it stays what it is, and it does not grow longer either, as a
  name holds no line feed.

  What is proved:
    1. `gapName?_append_newline`: the name behind a gap is the same with more
       lines below, unless the gap goes on to the end of the text.
    2. `programId?_append`: the program id of a text with more lines below, if
       no header at its end is unfinished.
    3. `programId_joined`: the program id of two joined sources.
-/

namespace Mainframe.Text

/-! ## Looking for a word -/

/-- A word fits at the front, or it is looked for behind the first character. -/
theorem find?_cons {α : Type} (word : List Char) (rest : List Char → Option α) (c : Char)
    (s : List Char) :
    find? word rest (c :: s) = ((after? word (c :: s)).bind rest).or (find? word rest s) := by
  have hflag : leftmost (fun _ here => (after? word here).bind rest) (isWordChar c) s =
      find? word rest s := by
    cases s <;> rfl
  rw [find?, leftmost, hflag]
  cases (after? word (c :: s)).bind rest <;> rfl

theorem takeWhile_append_cons {p : Char → Bool} {c : Char} (hc : p c = false) (s t : List Char) :
    (s ++ c :: t).takeWhile p = s.takeWhile p := by
  induction s with
  | nil => rw [List.nil_append, List.takeWhile_cons_of_neg (by simp [hc]), List.takeWhile_nil]
  | cons d s ih => rw [List.cons_append, List.takeWhile_cons, List.takeWhile_cons, ih]

/-- A name ends in front of a character that may not stand in it. -/
theorem name?_fst_append {allowed : Char → Bool} {c : Char} (hc : allowed c = false)
    (s t : List Char) :
    (name? allowed (s ++ c :: t)).map Prod.fst = (name? allowed s).map Prod.fst := by
  rw [name?, name?, takeWhile_append_cons hc]
  cases s.takeWhile allowed <;> rfl

theorem joinLines_append {lines below : List (List Char)} (hne : lines ≠ []) (hbelow : below ≠ []) :
    joinLines (lines ++ below) = joinLines lines ++ '\n' :: joinLines below := by
  induction lines with
  | nil => exact absurd rfl hne
  | cons line lines ih =>
    cases lines with
    | nil =>
      obtain ⟨next, others, rfl⟩ := List.exists_cons_of_ne_nil hbelow
      rw [List.singleton_append, joinLines_cons_cons, joinLines_singleton]
    | cons next others =>
      have hrest := ih (List.cons_ne_nil next others)
      rw [List.cons_append, List.cons_append, joinLines_cons_cons, ← List.cons_append, hrest,
        joinLines_cons_cons, List.append_assoc, List.cons_append]

end Mainframe.Text

namespace Mainframe.Cobol

open Mainframe.Text

/-! ## Headers -/

/-- The header in front of a program id. -/
def idHeader : List Char := "PROGRAM-ID.".toList

/-- The text ends with a header and blanks. -/
def EndsUnfinished (s : List Char) : Prop :=
  ∃ blanks, allBlank blanks = true ∧ idHeader ++ blanks <:+ s

theorem gapName?_of_allBlank {s : List Char} (h : allBlank s = true) : gapName? s = none := by
  cases s with
  | nil => rfl
  | cons c s =>
    have hdrop : s.dropWhile isBlank = [] :=
      List.dropWhile_eq_nil_iff.2 (fun d hd => List.all_eq_true.1 h d (List.mem_cons_of_mem c hd))
    rw [gapName?, gap?, hdrop]
    split <;> rfl

/-- The name behind a gap is the same with more lines below, unless the gap goes
on to the end of the text. -/
theorem gapName?_append_newline {s : List Char} (h : allBlank s = false) (t : List Char) :
    gapName? (s ++ '\n' :: t) = gapName? s := by
  cases s with
  | nil => cases h
  | cons c s =>
    rw [List.cons_append, gapName?, gapName?, gap?, gap?]
    cases hc : isBlank c with
    | false => rfl
    | true =>
      have hrest : (s.dropWhile isBlank).isEmpty = false := by
        rw [← Bool.not_eq_true, List.isEmpty_iff, List.dropWhile_eq_nil_iff]
        intro hblank
        have hall : allBlank (c :: s) = true :=
          List.all_eq_true.2 (List.forall_mem_cons.2 ⟨hc, hblank⟩)
        rw [hall] at h
        cases h
      rw [if_pos rfl, if_pos rfl, Option.bind_some, Option.bind_some, List.dropWhile_append, hrest,
        if_neg Bool.false_ne_true]
      exact name?_fst_append (by decide) _ t

/-- Behind the start of an unfinished header there is no other header. -/
theorem programId?_of_unfinished {c : Char} {s blanks : List Char}
    (h : c :: s = idHeader ++ blanks) (hblanks : allBlank blanks = true) : programId? s = none := by
  have hs : s = idHeader.tail ++ blanks := (List.cons.inj h).2
  rw [Option.eq_none_iff_forall_ne_some]
  intro id hid
  have hinside : idHeader <:+: s := contains_iff.1 (contains_of_find? hid)
  have hmem : 'P' ∈ s := hinside.subset (by decide)
  rw [hs, List.mem_append] at hmem
  rcases hmem with hmem | hmem
  · exact absurd hmem (by decide)
  · exact absurd (List.all_eq_true.1 hblanks 'P' hmem) (by decide)

/-- The program id of a text with more lines below is that of the text, if it
has one, and that of the lines below otherwise, if no header at the end of the
text is unfinished. -/
theorem programId?_append {s : List Char} (h : programId? s = none → ¬ EndsUnfinished s)
    (t : List Char) : programId? (s ++ '\n' :: t) = (programId? s).or (programId? t) := by
  induction s with
  | nil => exact find?_cons _ _ _ _
  | cons c s ih =>
    have hwhole : programId? (c :: s ++ '\n' :: t) =
        (((after? idHeader (c :: s)).map (fun rest => rest ++ '\n' :: t)).bind gapName?).or
          (programId? (s ++ '\n' :: t)) := by
      rw [← after?_append_separator (by decide)]
      exact find?_cons _ _ _ _
    have hfront : programId? (c :: s) =
        ((after? idHeader (c :: s)).bind gapName?).or (programId? s) := find?_cons _ _ _ _
    have hsuffix : EndsUnfinished s → EndsUnfinished (c :: s) := by
      rintro ⟨blanks, hblanks, hend⟩
      exact ⟨blanks, hblanks, hend.trans (List.suffix_cons c s)⟩
    cases hafter : after? idHeader (c :: s) with
    | none =>
      rw [hafter, Option.bind_none, Option.none_or] at hfront
      rw [hfront] at h
      rw [hwhole, hfront, hafter, Option.map_none, Option.bind_none, Option.none_or]
      exact ih (fun hnone hend => h hnone (hsuffix hend))
    | some rest =>
      have hheader : c :: s = idHeader ++ rest := after?_eq_some_iff.1 hafter
      rw [hafter, Option.bind_some] at hfront
      cases hblank : allBlank rest with
      | true =>
        -- the header is unfinished, so there is no program id
        rw [gapName?_of_allBlank hblank, programId?_of_unfinished hheader hblank] at hfront
        have hend : EndsUnfinished (c :: s) := ⟨rest, hblank, hheader ▸ List.suffix_refl _⟩
        exact absurd hend (h hfront)
      | false =>
        rw [hwhole, hfront, hafter, Option.map_some, Option.bind_some,
          gapName?_append_newline hblank]
        cases hname : gapName? rest with
        | some id => rfl
        | none =>
          rw [hname, Option.none_or] at hfront
          rw [hfront] at h
          rw [Option.none_or, Option.none_or]
          exact ih (fun hnone hend => h hnone (hsuffix hend))

/-! ## Sources -/

theorem programId?_joinLines_append {lines : List (List Char)}
    (h : programId? (joinLines lines) = none → ¬ EndsUnfinished (joinLines lines))
    (below : List (List Char)) :
    programId? (joinLines (lines ++ below)) =
      (programId? (joinLines lines)).or (programId? (joinLines below)) := by
  have hempty : programId? (joinLines []) = none := rfl
  by_cases hlines : lines = []
  · rw [hlines, List.nil_append, hempty, Option.none_or]
  · by_cases hbelow : below = []
    · rw [hbelow, List.append_nil, hempty, Option.or_none]
    · rw [joinLines_append hlines hbelow, programId?_append h]

/-- The program id of two joined sources is that of the first, if it has one,
and that of the second otherwise, if no header at the end of the first is
unfinished. -/
theorem programId_outline_joined {s : String}
    (h : programId? (normalize s).toList = none → ¬ EndsUnfinished (normalize s).toList)
    (t : String) :
    (outline (s ++ "\n" ++ t)).programId = (outline s).programId.or (outline t).programId := by
  rw [normalize, String.toList_ofList] at h
  simp only [programId_outline, normalize, String.toList_ofList]
  rw [retainedLines_joined, programId?_joinLines_append h, Option.map_or]

/-- A program id is not changed by the source below. A source without a header
leaves it to the source below. -/
theorem programId_joined (s t : String) :
    (∀ id, (outline s).programId = some id →
      (outline (s ++ "\n" ++ t)).programId = some id) ∧
    (¬ idHeader <:+: (normalize s).toList →
      (outline (s ++ "\n" ++ t)).programId = (outline t).programId) := by
  constructor
  · intro id hid
    have hsome : programId? (normalize s).toList ≠ none := by
      intro hnone
      rw [programId_outline, hnone] at hid
      cases hid
    rw [programId_outline_joined (fun hnone => absurd hnone hsome), hid, Option.some_or]
  · intro hheader
    have hnone : programId? (normalize s).toList = none := by
      rw [Option.eq_none_iff_forall_ne_some]
      intro id hid
      exact hheader (contains_iff.1 (contains_of_find? hid))
    have hfinished : ¬ EndsUnfinished (normalize s).toList := by
      rintro ⟨blanks, -, hend⟩
      exact hheader ((List.prefix_append idHeader blanks).isInfix.trans hend.isInfix)
    rw [programId_outline_joined (fun _ => hfinished), programId_outline s, hnone, Option.map_none,
      Option.none_or]

/-- A header without a name in front of a name, and one with a name on the line
below a comment. -/
def twoHeaders : String := "PROGRAM-ID. 'X'\nPROGRAM-ID.\n* WHAT IT IS CALLED\n  PAY-7"

/-- The name of the header is not written on the line. -/
def headerBelow : String := "PROGRAM-ID\n* WHAT IT IS CALLED"

/-- A text that could go on with a name, or with a header. -/
def continuation : String := "-OLD. PROGRAM-ID. REST."

theorem programId_joined_twoHeaders :
    (outline twoHeaders).programId = some "PAY-7" ∧
      (outline (twoHeaders ++ "\n" ++ continuation)).programId = some "PAY-7" ∧
      ¬ idHeader <:+: (normalize headerBelow).toList ∧
      (outline (headerBelow ++ "\n" ++ continuation)).programId = some "REST" := by
  have hid : (outline twoHeaders).programId = some "PAY-7" := by decide +kernel
  have hrest : (outline continuation).programId = some "REST" := by decide +kernel
  have hheader : ¬ idHeader <:+: (normalize headerBelow).toList := by
    rw [← contains_iff]
    decide +kernel
  have hbelow := (programId_joined headerBelow continuation).2 hheader
  rw [hrest] at hbelow
  exact ⟨hid, (programId_joined twoHeaders continuation).1 _ hid, hheader, hbelow⟩

-- an unfinished header takes the name from the source below
example : (outline "PROGRAM-ID.").programId = none ∧
    (outline ("PROGRAM-ID." ++ "\n" ++ "PAY-7. PROGRAM-ID. REST.")).programId = some "PAY-7" := by
  decide +kernel

end Mainframe.Cobol
