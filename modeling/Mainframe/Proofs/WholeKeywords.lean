import Mainframe.Text.Alphanumeric
import Mainframe.Proofs.FieldGrammar

/-
  File verbs as whole words.

  A file verb is taken where no word character stands before or behind it. A
  hyphen is no word character, but the words of a program have hyphens in them,
  so what is taken can be a part of a longer word: of a name such as READ-COUNT,
  or of the end of a scope, END-READ. The other cases are ruled out, since a
  letter or a digit is a word character.

  What is proved:
    1. `fileVerb?_eq_some_iff`: the file verb of a line is the first one that
       stands apart from word characters.
    2. `fileOperations_whole_iff`: the file verbs of a source are whole words of
       their lines if and only if each one with a hyphen beside it also stands
       elsewhere in its line as a whole word.
    3. `operation_inside_name`: a use of a file that is read out of a name.
-/

namespace Mainframe.Text

/-- The word stands at the place, and no character of the class stands just
before or behind it. -/
structure StandsAlone (p : Char → Bool) (word line : List Char) (n : Nat) : Prop where
  before : EndsWithout p (line.take n)
  behind : ∃ tail, line.drop n = word ++ tail ∧ OpensWithout p tail

/-- Whether the word stands alone at the place. -/
def standsAlone (p : Char → Bool) (word line : List Char) (n : Nat) : Bool :=
  (line.take n).getLast?.all (fun c => !p c)
    && (after? word (line.drop n)).any (fun tail => tail.head?.all (fun c => !p c))

theorem standsAlone_iff {p : Char → Bool} {word line : List Char} {n : Nat} :
    standsAlone p word line n = true ↔ StandsAlone p word line n := by
  simp only [standsAlone, Bool.and_eq_true, Option.all_eq_true, Option.any_eq_true,
    after?_eq_some_iff, Bool.not_eq_true']
  exact ⟨fun h => ⟨h.1, h.2⟩, fun h => ⟨h.before, h.behind⟩⟩

instance (p : Char → Bool) (word line : List Char) (n : Nat) :
    Decidable (StandsAlone p word line n) :=
  decidable_of_iff _ standsAlone_iff

theorem StandsAlone.le_length {p : Char → Bool} {word line : List Char} {n : Nat}
    (h : StandsAlone p word line n) (hne : word ≠ []) : n ≤ line.length := by
  obtain ⟨tail, hdrop, -⟩ := h.behind
  exact le_length_of_drop_eq hne hdrop

/-- A word is all that stands at its place up to a character outside the class,
so there is no other one. -/
theorem StandsAlone.word_eq {p : Char → Bool} {word line : List Char} {n : Nat}
    (h : StandsAlone p word line n) (hword : ∀ c ∈ word, p c = true) :
    word = (line.drop n).takeWhile p := by
  obtain ⟨tail, hdrop, htail⟩ := h.behind
  rw [hdrop, (takeWhile_append_of_opensWithout hword htail).1]

/-- A letter, a digit or a hyphen: what the words of a program are made of. The
letters and digits are the word characters that are alphanumeric. -/
def isWordPart (c : Char) : Bool := (isWordChar c && isAlphanumeric c) || c == '-'

/-- A hyphen stands just before or behind the word at the place. -/
def HyphenBeside (word line : List Char) (n : Nat) : Prop :=
  '-' ∈ (line.take n).getLast? ∨ ∃ tail, line.drop n = word ++ '-' :: tail

/-- What stands apart from word characters is a whole word, unless a hyphen
stands beside it. -/
theorem StandsAlone.whole {word line : List Char} {n : Nat}
    (h : StandsAlone isWordChar word line n) (hhyphen : ¬ HyphenBeside word line n) :
    StandsAlone isWordPart word line n := by
  have hpart : ∀ c, isWordChar c = false → c ≠ '-' → isWordPart c = false := by
    intro c hc hne
    rw [isWordPart, hc, Bool.false_and, Bool.false_or, beq_eq_false_iff_ne.2 hne]
  constructor
  case before =>
    intro c hc
    apply hpart c (h.before c hc)
    rintro rfl
    exact hhyphen (.inl hc)
  case behind =>
    obtain ⟨tail, hdrop, htail⟩ := h.behind
    refine ⟨tail, hdrop, fun c hc => hpart c (htail c hc) ?_⟩
    rintro rfl
    obtain ⟨rest, rfl⟩ := List.head?_eq_some_iff.1 hc
    exact hhyphen (.inr ⟨rest, hdrop⟩)

end Mainframe.Text

namespace Mainframe.Cobol

open Mainframe.Text

/-! ## The file verb of a line -/

/-- The file verb stands apart from word characters at the place, and none does
at a place before it. -/
structure IsFirstVerb (v : FileVerb) (line : List Char) (n : Nat) : Prop where
  stands : StandsAlone isWordChar v.keyword.toList line n
  first : ∀ m < n, ∀ w : FileVerb, ¬ StandsAlone isWordChar w.keyword.toList line m

theorem FileVerb.keyword_ne_nil (v : FileVerb) : v.keyword.toList ≠ [] := by
  cases v <;> decide

theorem FileVerb.isWordChar_keyword (v : FileVerb) :
    ∀ c ∈ v.keyword.toList, isWordChar c = true := by
  apply List.all_eq_true.1
  cases v <;> decide

/-- At most one file verb stands apart from word characters at a place. -/
theorem FileVerb.eq_of_standsAlone {v w : FileVerb} {line : List Char} {n : Nat}
    (hv : StandsAlone isWordChar v.keyword.toList line n)
    (hw : StandsAlone isWordChar w.keyword.toList line n) : v = w := by
  have heq := (hv.word_eq v.isWordChar_keyword).trans (hw.word_eq w.isWordChar_keyword).symm
  exact FileVerb.keyword_inj (String.toList_inj.1 heq)

/-- Whether the file verb is at the front of a text, and no word character
behind it. -/
def startsWithVerb (here : List Char) (v : FileVerb) : Bool :=
  match after? v.keyword.toList here with
  | some rest => !startsInWord rest
  | none => false

theorem startsInWord_eq_false_iff {s : List Char} :
    startsInWord s = false ↔ OpensWithout isWordChar s := by
  cases s <;> simp [startsInWord, OpensWithout]

theorem startsWithVerb_iff {here : List Char} {v : FileVerb} :
    startsWithVerb here v = true ↔
      ∃ tail, here = v.keyword.toList ++ tail ∧ OpensWithout isWordChar tail := by
  simp only [← after?_eq_some_iff, ← startsInWord_eq_false_iff, startsWithVerb]
  cases after? v.keyword.toList here <;> simp

/-- The file verb at the front of a text. -/
def verbAt? (inWord : Bool) (here : List Char) : Option FileVerb :=
  if inWord then none else FileVerb.all.find? (startsWithVerb here)

theorem verbAt?_eq_some_iff {v : FileVerb} {line : List Char} {n : Nat} :
    verbAt? (wordBefore false line n) (line.drop n) = some v ↔
      StandsAlone isWordChar v.keyword.toList line n := by
  have hstands : ∀ w, IsApart line n → startsWithVerb (line.drop n) w = true →
      StandsAlone isWordChar w.keyword.toList line n :=
    fun w hapart hw => ⟨hapart, startsWithVerb_iff.1 hw⟩
  rw [verbAt?]
  split
  next hword =>
    constructor
    · rintro ⟨⟩
    · intro h
      have hfree : wordBefore false line n = false := wordBefore_eq_false_iff.2 h.before
      rw [hword] at hfree
      cases hfree
  next hfree =>
    have hapart : IsApart line n := wordBefore_eq_false_iff.1 (Bool.eq_false_iff.2 hfree)
    constructor
    · exact fun h => hstands v hapart (List.find?_some h)
    · intro h
      have hv : startsWithVerb (line.drop n) v = true := startsWithVerb_iff.2 h.behind
      have hsome : (FileVerb.all.find? (startsWithVerb (line.drop n))).isSome :=
        List.find?_isSome.2 ⟨v, v.mem_all, hv⟩
      obtain ⟨w, hw⟩ := Option.isSome_iff_exists.1 hsome
      have hsame : w = v := FileVerb.eq_of_standsAlone (hstands w hapart (List.find?_some hw)) h
      rw [hw, hsame]

/-- The file verb of a line is the first one that stands apart from word
characters. -/
theorem fileVerb?_eq_some_iff {v : FileVerb} {line : List Char} :
    fileVerb? line = some v ↔ ∃ n, IsFirstVerb v line n := by
  have hplaces : fileVerb? line = leftmost verbAt? false line := rfl
  rw [hplaces, leftmost_eq_first_iff (fun n w => verbAt?_eq_some_iff)
    (fun n w h => h.le_length w.keyword_ne_nil)]
  constructor
  · rintro ⟨n, hstands, hfirst⟩
    exact ⟨n, hstands, hfirst⟩
  · rintro ⟨n, hstands, hfirst⟩
    exact ⟨n, hstands, hfirst⟩

/-! ## The file verbs of a source -/

section
variable (source : String)

/-- The lines of the normalized source. -/
def normalizedLines : List (List Char) := splitLines (normalize source).toList

/-- Every use of a file is recorded with a keyword that is a whole word of its
line. -/
def RecordsWholeWords : Prop :=
  ∀ r ∈ (outline source).fileOperations, ∃ line, IsLine (normalizedLines source) r.line line ∧
    ∃ n, StandsAlone isWordPart r.verb.keyword.toList line n

theorem isFirstVerb_fileOperations {r : FileOperation}
    (h : r ∈ (outline source).fileOperations) :
    ∃ line, IsLine (normalizedLines source) r.line line ∧ ∃ n, IsFirstVerb r.verb line n := by
  rw [fileOperations_outline, fileOperations, mem_collect] at h
  obtain ⟨line, hline, v, hfound, rfl⟩ := h
  exact ⟨line.1, isLine_of_mem_numbered hline, fileVerb?_eq_some_iff.1 hfound⟩

theorem mem_fileOperations_of_isFirstVerb {v : FileVerb} {k n : Nat} {line : List Char}
    (hline : IsLine (normalizedLines source) k line) (hfirst : IsFirstVerb v line n) :
    ⟨v, k⟩ ∈ (outline source).fileOperations := by
  rw [fileOperations_outline, fileOperations, mem_collect]
  exact ⟨(line, k), mem_numbered_of_isLine hline, v, fileVerb?_eq_some_iff.2 ⟨n, hfirst⟩, rfl⟩

/-- Every use of a file is recorded with the first keyword of its line that
stands apart from word characters. The keywords are whole words if and only if
each of them that has a hyphen beside it is a whole word elsewhere in its line. -/
theorem fileOperations_whole_iff :
    (∀ r ∈ (outline source).fileOperations,
      ∃ line, IsLine (normalizedLines source) r.line line ∧ ∃ n, IsFirstVerb r.verb line n) ∧
    (RecordsWholeWords source ↔
      ∀ line ∈ normalizedLines source, ∀ v n, IsFirstVerb v line n →
        HyphenBeside v.keyword.toList line n →
          ∃ m, StandsAlone isWordPart v.keyword.toList line m) := by
  refine ⟨fun r hr => isFirstVerb_fileOperations source hr, ?_, ?_⟩
  · intro hwhole line hmem v n hfirst _
    obtain ⟨k, hk, rfl⟩ := List.getElem_of_mem hmem
    have hline : IsLine (normalizedLines source) (k + 1) (normalizedLines source)[k] :=
      ⟨Nat.le_add_left 1 k, List.getElem?_eq_getElem hk⟩
    obtain ⟨line, hsame, hstands⟩ :=
      hwhole _ (mem_fileOperations_of_isFirstVerb source hline hfirst)
    rwa [Option.some.inj (hline.2.symm.trans hsame.2)]
  · intro hhyphens r hr
    obtain ⟨line, hline, n, hfirst⟩ := isFirstVerb_fileOperations source hr
    refine ⟨line, hline, ?_⟩
    by_cases hhyphen : HyphenBeside r.verb.keyword.toList line n
    · exact hhyphens line (List.mem_of_getElem? hline.2) r.verb n hfirst hhyphen
    · exact ⟨n, hfirst.stands.whole hhyphen⟩

end

/-- A statement that resets a counter. -/
def resetCounter : String := "MOVE 0 TO READ-COUNT."

/-- The statement uses no file, but a READ is recorded. -/
theorem operation_inside_name :
    (outline resetCounter).fileOperations = [⟨.reads, 1⟩] ∧ ¬ RecordsWholeWords resetCounter := by
  have hrecord : (outline resetCounter).fileOperations = [⟨.reads, 1⟩] := by decide +kernel
  have hlines : normalizedLines resetCounter = [resetCounter.toList] := by decide +kernel
  have hnever : ∀ n ≤ resetCounter.toList.length,
      ¬ StandsAlone isWordPart FileVerb.reads.keyword.toList resetCounter.toList n := by
    decide +kernel
  refine ⟨hrecord, fun hwhole => ?_⟩
  rw [RecordsWholeWords, hrecord, hlines] at hwhole
  obtain ⟨line, hline, n, hstands⟩ := hwhole _ List.mem_cons_self
  obtain rfl : resetCounter.toList = line := Option.some.inj hline.2
  exact hnever n (hstands.le_length FileVerb.reads.keyword_ne_nil) hstands

end Mainframe.Cobol
