import Mainframe.Proofs.PerformViews
import Mainframe.Proofs.WholeKeywords

/-
  File verbs and the runs of word characters on a line.

  A keyword is made of word characters, so where it stands apart from them it is
  one of the runs into which the line is cut, as a whole. To look for keywords
  from left to right comes to the same as to go through the runs and take the
  first one that is a keyword, and no keyword is found inside a longer one, such
  as WRITE inside REWRITE.

  The keyword may be looked for as a text and be made a verb afterwards. Each
  text that is looked for is the keyword of some verb, so this never fails.

  What is proved:
    1. `isCutIntoRuns_runs`: the runs of a line are the longest ones, in order.
    2. `verbAt?_eq_ofKeyword?`: the file verb at the front of a text is the one
       that the word characters there name.
    3. `fileVerb?_eq_findSome?`: the file verb of a line is that of the first
       run that names one.
    4. `fileKeyword?_eq_map`: the keyword that is looked for as a text is that
       of the file verb.
    5. `fileOperations_by_runs`: the use of a file on a line of a source.
-/

namespace Mainframe.Text

/-! ## Runs -/

section
variable {p : Char → Bool}

theorem runs_of_pos {c : Char} (hc : p c = true) (s : List Char) :
    runs p (c :: s) = (c :: s).takeWhile p :: runs p ((c :: s).dropWhile p) := by
  have hcut : (c :: s).takeWhile p ++ (c :: s).dropWhile p = c :: s :=
    List.takeWhile_append_dropWhile
  have hne : (c :: s).takeWhile p ≠ [] := by
    rw [List.takeWhile_cons_of_pos hc]
    exact List.cons_ne_nil c _
  have hruns := runs_append hne (List.all_eq_true.1 List.all_takeWhile)
    (opensWithout_dropWhile p (c :: s))
  rwa [hcut] at hruns

theorem runs_of_neg {c : Char} (hc : p c = false) (s : List Char) :
    runs p (c :: s) = runs p s := by
  rw [runs_cons, hc, if_neg Bool.false_ne_true]

theorem extendRuns_of_neg {d : Char} (hd : p d = false) (c : Char) (s : List Char)
    (rs : List (List Char)) : extendRuns p c (d :: s) rs = [c] :: rs := by
  cases rs <;> simp [extendRuns, hd]

/-- Where a text is cut outside the class, its runs are those of the parts. -/
theorem runs_append_of_endsWithout {front : List Char} (hfront : EndsWithout p front)
    (rest : List Char) : runs p (front ++ rest) = runs p front ++ runs p rest := by
  induction front with
  | nil => rfl
  | cons c front ih =>
    have hrest := ih (hfront.of_suffix (List.suffix_cons c front))
    cases hc : p c with
    | false => rw [List.cons_append, runs_of_neg hc, runs_of_neg hc, hrest]
    | true =>
      cases front with
      | nil =>
        -- a character of the class does not stand at the end
        rw [hfront c rfl] at hc
        cases hc
      | cons d front =>
        rw [List.cons_append, runs_cons, runs_cons, hrest, if_pos hc, if_pos hc]
        cases hd : p d with
        | false => rw [List.cons_append, extendRuns_of_neg hd, extendRuns_of_neg hd,
            List.cons_append]
        | true =>
          rw [runs_of_pos hd, List.cons_append]
          simp [extendRuns, hd]

/-- A run stands between two places outside the class, or at an end of the
text. -/
theorem split_of_mem_runs {s run : List Char} (h : run ∈ runs p s) :
    ∃ front tail, s = front ++ (run ++ tail) ∧ EndsWithout p front ∧ OpensWithout p tail := by
  induction hn : s.length using Nat.strong_induction_on generalizing s with
  | _ n ih =>
    cases s with
    | nil => cases h
    | cons c s =>
      cases hc : p c with
      | false =>
        rw [runs_of_neg hc] at h
        obtain ⟨front, tail, rfl, hfront, htail⟩ := ih s.length (by simp [← hn]) h rfl
        refine ⟨c :: front, tail, rfl, ?_, htail⟩
        cases front with
        | nil => simpa [EndsWithout] using hc
        | cons d front => simpa [EndsWithout] using hfront
      | true =>
        have hcut : (c :: s).takeWhile p ++ (c :: s).dropWhile p = c :: s :=
          List.takeWhile_append_dropWhile
        have hopens := opensWithout_dropWhile p (c :: s)
        rw [runs_of_pos hc] at h
        rcases List.mem_cons.1 h with rfl | h
        · exact ⟨[], _, hcut.symm, by simp [EndsWithout], hopens⟩
        · have hshort : ((c :: s).dropWhile p).length < n := by
            rw [← hn, List.dropWhile_cons_of_pos hc, List.length_cons]
            exact Nat.lt_succ_of_le (List.dropWhile_suffix p).length_le
          obtain ⟨front, tail, hrest, hfront, htail⟩ := ih _ hshort h rfl
          refine ⟨(c :: s).takeWhile p ++ front, tail, ?_, ?_, htail⟩
          · rw [List.append_assoc, ← hrest, hcut]
          · -- the next run does not stand right behind the first one
            obtain ⟨hne, hrun⟩ := mem_runs h
            obtain ⟨d, others, rfl⟩ := List.exists_cons_of_ne_nil hne
            cases front with
            | nil =>
              rw [hrest] at hopens
              have hd := hopens d rfl
              rw [hrun d List.mem_cons_self] at hd
              cases hd
            | cons e front =>
              intro g hg
              rw [List.getLast?_append_cons] at hg
              exact hfront g hg

/-- The line is cut into its runs: these are the texts of characters of the
class that stand alone in it, and their characters are those of the class in
their order. -/
structure IsCutIntoRuns (p : Char → Bool) (line : List Char) (rs : List (List Char)) : Prop where
  longest : ∀ run, run ∈ rs ↔
    run ≠ [] ∧ (∀ c ∈ run, p c = true) ∧ ∃ n, StandsAlone p run line n
  inOrder : rs.flatten = line.filter p

theorem mem_runs_iff {line run : List Char} :
    run ∈ runs p line ↔
      run ≠ [] ∧ (∀ c ∈ run, p c = true) ∧ ∃ n, StandsAlone p run line n := by
  constructor
  · intro h
    obtain ⟨hne, hrun⟩ := mem_runs h
    obtain ⟨front, tail, rfl, hfront, htail⟩ := split_of_mem_runs h
    refine ⟨hne, hrun, front.length, ?_, tail, ?_, htail⟩
    · rwa [List.take_left]
    · rw [List.drop_left]
  · rintro ⟨hne, hrun, n, hbefore, tail, hdrop, htail⟩
    have hline : line.take n ++ (run ++ tail) = line := by
      rw [← hdrop, List.take_append_drop]
    rw [← hline, runs_append_of_endsWithout hbefore, runs_append hne hrun htail]
    exact List.mem_append_right _ List.mem_cons_self

theorem flatten_extendRuns (c : Char) (s : List Char) (rs : List (List Char)) :
    (extendRuns p c s rs).flatten = c :: rs.flatten := by
  unfold extendRuns
  split
  next => split <;> rfl
  next => rfl

theorem flatten_runs (line : List Char) : (runs p line).flatten = line.filter p := by
  induction line with
  | nil => rfl
  | cons c s ih =>
    cases hc : p c with
    | true => rw [runs_cons, if_pos hc, flatten_extendRuns, ih, List.filter_cons_of_pos hc]
    | false => rw [runs_of_neg hc, ih, List.filter_cons_of_neg (by simp [hc])]

theorem isCutIntoRuns_runs (p : Char → Bool) (line : List Char) :
    IsCutIntoRuns p line (runs p line) :=
  ⟨fun _ => mem_runs_iff, flatten_runs line⟩

/-- A word that stands alone does not begin behind the first character of
another word of the class and in front of its end. -/
theorem StandsAlone.not_inside {word other s : List Char} {n m : Nat}
    (h : StandsAlone p word s n) (hother : ∀ c ∈ other, p c = true)
    (hat : other <+: s.drop m) : ¬ (m < n ∧ n < m + other.length) := by
  rintro ⟨hlt, hbound⟩
  obtain ⟨i, rfl⟩ := Nat.exists_eq_add_of_lt hlt
  have hi : i < other.length := by omega
  -- the character just before the place belongs to the other word
  obtain ⟨tail, htail⟩ := hat
  have hchar : s[m + i]? = some other[i] := by
    rw [← List.getElem?_drop, ← htail, List.getElem?_append_left hi, List.getElem?_eq_getElem hi]
  have hfree := h.before _ (mem_getLast?_take hchar)
  rw [hother _ (List.getElem_mem hi)] at hfree
  cases hfree

end

/-! ## What is found from left to right -/

/-- What is found may be changed in the end. -/
theorem leftmost_map {α β : Type} (f : α → β) (accept : Bool → List Char → Option α)
    (inWord : Bool) (s : List Char) :
    leftmost (fun inWord here => (accept inWord here).map f) inWord s =
      (leftmost accept inWord s).map f := by
  induction s generalizing inWord with
  | nil => rfl
  | cons c s ih =>
    rw [leftmost, leftmost]
    cases accept inWord (c :: s) with
    | some found => rfl
    | none => exact ih (isWordChar c)

end Mainframe.Text

namespace Mainframe.Cobol

open Mainframe.Text

/-! ## The first run that is a keyword -/

/-- The file verb that the text names. -/
def verbOf? (run : List Char) : Option FileVerb := FileVerb.ofKeyword? (String.ofList run)

theorem verbOf?_eq_some_iff {run : List Char} {v : FileVerb} :
    verbOf? run = some v ↔ run = v.keyword.toList := by
  constructor
  · intro h
    have hkeyword : (v.keyword == String.ofList run) = true :=
      List.find?_some (p := fun w : FileVerb => w.keyword == String.ofList run) h
    rw [beq_iff_eq.1 hkeyword, String.toList_ofList]
  · rintro rfl
    rw [verbOf?, String.ofList_toList, FileVerb.ofKeyword?_keyword]

/-- None of the runs is a keyword. -/
def NoKeyword (rs : List (List Char)) : Prop := ∀ run ∈ rs, ∀ v : FileVerb, run ≠ v.keyword.toList

theorem noKeyword_iff {rs : List (List Char)} : NoKeyword rs ↔ ∀ run ∈ rs, verbOf? run = none := by
  simp only [NoKeyword, Option.eq_none_iff_forall_ne_some, ne_eq, verbOf?_eq_some_iff]

/-- At the front of a text, a file verb is what the word characters there name. -/
theorem startsWithVerb_eq (here : List Char) (v : FileVerb) :
    startsWithVerb here v = (v.keyword == String.ofList (here.takeWhile isWordChar)) := by
  rw [Bool.eq_iff_iff, startsWithVerb_iff, beq_iff_eq, ← String.toList_inj, String.toList_ofList]
  constructor
  · rintro ⟨tail, rfl, htail⟩
    exact (takeWhile_append_of_opensWithout v.isWordChar_keyword htail).1.symm
  · intro hkeyword
    rw [hkeyword]
    exact ⟨here.dropWhile isWordChar, List.takeWhile_append_dropWhile.symm,
      opensWithout_dropWhile isWordChar here⟩

theorem verbAt?_eq_ofKeyword? (here : List Char) :
    verbAt? false here = verbOf? (here.takeWhile isWordChar) := by
  have hsame : startsWithVerb here =
      fun v => v.keyword == String.ofList (here.takeWhile isWordChar) :=
    funext (startsWithVerb_eq here)
  rw [verbAt?, hsame]
  rfl

/-- Behind a word character the rest of the run is passed over. -/
theorem leftmost_verbAt? (inWord : Bool) (s : List Char) :
    leftmost verbAt? inWord s =
      (runs isWordChar (if inWord then s.dropWhile isWordChar else s)).findSome? verbOf? := by
  induction s generalizing inWord with
  | nil => cases inWord <;> rfl
  | cons c s ih =>
    have hinside := ih true
    have hnext := ih false
    rw [if_pos rfl] at hinside
    rw [if_neg Bool.false_ne_true] at hnext
    cases hc : isWordChar c with
    | true =>
      have hdrop : (c :: s).dropWhile isWordChar = s.dropWhile isWordChar :=
        List.dropWhile_cons_of_pos hc
      cases inWord with
      | true =>
        have hnone : verbAt? true (c :: s) = none := rfl
        rw [if_pos rfl, hdrop, leftmost, hnone, hc]
        exact hinside
      | false =>
        -- the run that starts here is a keyword, or its other characters are passed over
        rw [if_neg Bool.false_ne_true, runs_of_pos hc, List.findSome?_cons, hdrop, leftmost,
          verbAt?_eq_ofKeyword?, hc, hinside]
        cases verbOf? ((c :: s).takeWhile isWordChar) <;> rfl
    | false =>
      have hnone : verbAt? inWord (c :: s) = none := by
        cases inWord with
        | true => rfl
        | false =>
          rw [verbAt?_eq_ofKeyword?, List.takeWhile_cons_of_neg (by simp [hc])]
          rfl
      have hruns : runs isWordChar (if inWord then (c :: s).dropWhile isWordChar else c :: s) =
          runs isWordChar s := by
        rw [List.dropWhile_cons_of_neg (by simp [hc]), ite_self, runs_of_neg hc]
      rw [leftmost, hnone, hc, hruns]
      exact hnext

/-- The file verb of a line is that of its first run that is a keyword. -/
theorem fileVerb?_eq_findSome? (line : List Char) :
    fileVerb? line = (runs isWordChar line).findSome? verbOf? :=
  leftmost_verbAt? false line

/-! ## Keywords as texts -/

/-- The keywords that are looked for, in the order in which they are tried. -/
def fileKeywords : List String := ["OPEN", "READ", "WRITE", "CLOSE", "DELETE", "REWRITE"]

/-- The keyword at the front of a text, with no word character behind it. -/
def keywordAt? (inWord : Bool) (here : List Char) : Option String :=
  if inWord then none
  else fileKeywords.find? (fun word =>
    match after? word.toList here with
    | some rest => !startsInWord rest
    | none => false)

/-- The first keyword on a line that stands alone, as a text. -/
def fileKeyword? (line : List Char) : Option String := leftmost keywordAt? false line

theorem keywordAt?_eq_map (inWord : Bool) (here : List Char) :
    keywordAt? inWord here = (verbAt? inWord here).map FileVerb.keyword := by
  have hkeywords : fileKeywords = FileVerb.all.map FileVerb.keyword := rfl
  rw [keywordAt?, verbAt?, hkeywords, List.find?_map]
  cases inWord <;> rfl

theorem fileKeyword?_eq_map (line : List Char) :
    fileKeyword? line = (fileVerb? line).map FileVerb.keyword := by
  have hplaces : keywordAt? = fun inWord here => (verbAt? inWord here).map FileVerb.keyword := by
    funext inWord here
    exact keywordAt?_eq_map inWord here
  rw [fileKeyword?, hplaces]
  exact leftmost_map FileVerb.keyword verbAt? false line

/-! ## The use of a file on a line -/

/-- The file verb of a line is determined by its runs of word characters: it is
that of the first run that is a keyword, and missing if none is. The keyword
that is looked for as a text names it, and does not begin inside another one. -/
structure IsReadByRuns (line : List Char) (found : Option FileVerb) : Prop where
  cut : IsCutIntoRuns isWordChar line (runs isWordChar line)
  first : ∀ v, found = some v ↔ ∃ before behind,
    runs isWordChar line = before ++ v.keyword.toList :: behind ∧ NoKeyword before
  absent : found = none ↔ NoKeyword (runs isWordChar line)
  named : ∀ word, fileKeyword? line = some word →
    ∃ v, FileVerb.ofKeyword? word = some v ∧ found = some v
  unnamed : fileKeyword? line = none → found = none
  outside : ∀ v, found = some v → ∃ n, IsFirstVerb v line n ∧
    ∀ (w : FileVerb) m, w.keyword.toList <+: line.drop m →
      ¬ (m < n ∧ n < m + w.keyword.toList.length)

theorem isReadByRuns_fileVerb? (line : List Char) : IsReadByRuns line (fileVerb? line) := by
  constructor
  case cut => exact isCutIntoRuns_runs isWordChar line
  case first =>
    intro v
    rw [fileVerb?_eq_findSome?, List.findSome?_eq_some_iff]
    constructor
    · rintro ⟨before, run, behind, hruns, hrun, hbefore⟩
      rw [verbOf?_eq_some_iff.1 hrun] at hruns
      exact ⟨before, behind, hruns, noKeyword_iff.2 hbefore⟩
    · rintro ⟨before, behind, hruns, hbefore⟩
      exact ⟨before, _, behind, hruns, verbOf?_eq_some_iff.2 rfl, noKeyword_iff.1 hbefore⟩
  case absent => rw [fileVerb?_eq_findSome?, List.findSome?_eq_none_iff, noKeyword_iff]
  case named =>
    intro word hword
    rw [fileKeyword?_eq_map] at hword
    obtain ⟨v, hv, rfl⟩ := Option.map_eq_some_iff.1 hword
    exact ⟨v, FileVerb.ofKeyword?_keyword v, hv⟩
  case unnamed =>
    intro hnone
    rw [fileKeyword?_eq_map] at hnone
    exact Option.map_eq_none_iff.1 hnone
  case outside =>
    intro v hv
    obtain ⟨n, hfirst⟩ := fileVerb?_eq_some_iff.1 hv
    exact ⟨n, hfirst, fun w m hat => hfirst.stands.not_inside w.isWordChar_keyword hat⟩

/-- The uses of files that are recorded for a line. -/
def usesOn (o : Outline) (n : Nat) : List FileOperation :=
  o.fileOperations.filter (fun r => r.line == n)

theorem usesOn_outline {source : String} {n : Nat} {line : List Char}
    (h : IsLine (normalizedLines source) n line) :
    usesOn (outline source) n = (fileVerb? line).toList.map (fun v => ⟨v, n⟩) := by
  have hmem : ∀ r ∈ (outline source).fileOperations, r.line = n → fileVerb? line = some r.verb := by
    intro r hr hn
    obtain ⟨other, hother, k, hfirst⟩ := isFirstVerb_fileOperations source hr
    rw [hn] at hother
    rw [h.unique hother]
    exact fileVerb?_eq_some_iff.2 ⟨k, hfirst⟩
  cases hverb : fileVerb? line with
  | none =>
    rw [usesOn, List.filter_eq_nil_iff.2]
    · rfl
    · intro r hr hn
      have hsome := hmem r hr (beq_iff_eq.1 hn)
      rw [hverb] at hsome
      cases hsome
  | some v =>
    obtain ⟨k, hfirst⟩ := fileVerb?_eq_some_iff.1 hverb
    have hrecord := mem_fileOperations_of_isFirstVerb source h hfirst
    have hone := (inLineOrder_fileOperations source).filter_line hrecord
    dsimp only at hone
    rw [usesOn, hone]
    rfl

/-- The file verb of every line is determined by its runs of word characters,
and it is what is recorded for the line, if the line stands in a source. -/
theorem fileOperations_by_runs (source : String) (n : Nat) (line : List Char) :
    ∃ found, IsReadByRuns line found ∧
      (IsLine (normalizedLines source) n line →
        usesOn (outline source) n = found.toList.map (fun v => ⟨v, n⟩)) :=
  ⟨fileVerb? line, isReadByRuns_fileVerb? line, usesOn_outline⟩

/-- A statement with keywords inside longer words: behind a letter outside ASCII,
behind an underscore, and one inside the other. -/
def overlappingKeywords : String := "MOVE.\nÉREAD OPEN_ REWRITE-X WRITE."

theorem fileOperations_overlappingKeywords :
    IsLine (normalizedLines overlappingKeywords) 2 "ÉREAD OPEN_ REWRITE-X WRITE.".toList ∧
      usesOn (outline overlappingKeywords) 2 = [⟨.rewrites, 2⟩] := by
  have hline : IsLine (normalizedLines overlappingKeywords) 2
      "ÉREAD OPEN_ REWRITE-X WRITE.".toList := ⟨by decide, by decide +kernel⟩
  obtain ⟨found, hread, huses⟩ := fileOperations_by_runs overlappingKeywords 2
    "ÉREAD OPEN_ REWRITE-X WRITE.".toList
  have hruns : runs isWordChar "ÉREAD OPEN_ REWRITE-X WRITE.".toList =
      ["ÉREAD".toList, "OPEN_".toList] ++ FileVerb.rewrites.keyword.toList ::
        ["X".toList, "WRITE".toList] := by decide +kernel
  have hbefore : NoKeyword ["ÉREAD".toList, "OPEN_".toList] := noKeyword_iff.2 (by decide +kernel)
  have hfound : found = some .rewrites := (hread.first _).2 ⟨_, _, hruns, hbefore⟩
  rw [hfound] at huses
  exact ⟨hline, huses hline⟩

end Mainframe.Cobol
