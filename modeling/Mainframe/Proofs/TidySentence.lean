import Mainframe.Proofs.PhraseFields
import Mainframe.Proofs.TidyProgram

/-
  What the rules find on a line of a tidy program.

  A line is quiet about every keyword but the one it starts with, so the rule of
  that keyword is the only one that can find anything, and the rules that are
  tried before it do not get in its way.

  What is proved:
    1. `Sentence.quiet`: a sentence is quiet about all keywords but its own.
    2. `action?_sentence`, `branch?_sentence` and `performTarget?_sentence`:
       what is found on the line of a sentence.
    3. `paragraphName?_sentence` and `paragraphName?_label`: a label names a
       paragraph, and a sentence does not.
-/

namespace Mainframe.Cobol.Tidy

open Mainframe.Text

/-! ## Words -/

/-- What a name character is and is not. -/
theorem nameChar_facts {c : Char} (h : isNameChar c = true) :
    isTokenChar c = true ∧ c ≠ '.' ∧ c ≠ '=' ∧ (isWordChar c = true ∨ c = '-') := by
  have hall : ∀ n < 128, isNameChar (Char.ofNat n) = true →
      isTokenChar (Char.ofNat n) = true ∧ Char.ofNat n ≠ '.' ∧ Char.ofNat n ≠ '=' ∧
        (isWordChar (Char.ofNat n) = true ∨ Char.ofNat n = '-') := by
    decide +kernel
  have hfacts := hall c.toNat (toNat_lt_of_isNameChar h) (by rwa [Char.ofNat_toNat])
  rwa [Char.ofNat_toNat] at hfacts

namespace Word

theorem isToken (w : Word) : IsToken w.chars :=
  ⟨w.nonempty, fun c hc => (nameChar_facts (w.allowed c hc)).1⟩

theorem stop_not_mem (w : Word) : '.' ∉ w.chars := by
  intro h
  exact (nameChar_facts (w.allowed '.' h)).2.1 rfl

theorem not_blank (w : Word) : ∀ c ∈ w.chars, isBlank c = false := w.isToken.not_blank

/-- A word ends with no keyword, so a gap behind it opens no phrase. -/
theorem not_endsApart (w : Word) {k : List Char} (hk : k ∈ keywords) :
    endsApart k false w.chars = false := by
  have hyphen : ∀ k ∈ keywords, '-' ∉ k := by decide +kernel
  apply endsApart_of_pieces (hyphen k hk)
  · exact fun c hc => (nameChar_facts (w.allowed c hc)).2.2.2
  · exact fun hmem => w.noKeyword k hmem hk

end Word

theorem isToken_stopped {tok : List Char} (h : IsToken tok) : IsToken (stopped tok) :=
  h.append (by decide)

/-! ## Sentences are quiet -/

/-- The first tokens of sentences. -/
def openers : List (List Char) := "STOP".toList :: keywords

/-- The tokens that stand between the words of a sentence, and the one that ends
STOP RUN. -/
def fillers : List (List Char) :=
  ["TO".toList, "BY".toList, "GIVING".toList, "=".toList, "+".toList, ">".toList, "RUN.".toList]

/-- A token that a sentence may have behind its first. -/
inductive IsOperand : List Char → Prop where
  | filler {tok : List Char} (h : tok ∈ fillers) : IsOperand tok
  | word (w : Word) : IsOperand w.chars
  | stopped (w : Word) : IsOperand (stopped w.chars)

theorem Sentence.tokens_shape (s : Sentence) :
    ∃ first ∈ openers, ∃ next rest, s.tokens = first :: next :: rest ∧
      ∀ tok ∈ next :: rest, IsOperand tok := by
  cases s <;> refine ⟨_, ?_, _, _, rfl, ?_⟩ <;> try decide
  all_goals
    simp only [List.forall_mem_cons, List.not_mem_nil, false_implies, implies_true, and_true]
  case display w => exact .stopped w
  case accept w => exact .stopped w
  case move v w => exact ⟨.word v, .filler (by decide), .stopped w⟩
  case compute u v w =>
    exact ⟨.word u, .filler (by decide), .word v, .filler (by decide), .stopped w⟩
  case add u v w => exact ⟨.word u, .word v, .filler (by decide), .stopped w⟩
  case multiply u v w =>
    exact ⟨.word u, .filler (by decide), .word v, .filler (by decide), .stopped w⟩
  case stop => exact .filler (by decide)
  case ifGreater v w => exact ⟨.word v, .filler (by decide), .word w⟩
  case perform w => exact .stopped w
  case evaluate w => exact .word w
  case goTo w => exact ⟨.filler (by decide), .stopped w⟩

theorem IsOperand.isToken {tok : List Char} (h : IsOperand tok) : IsToken tok := by
  have hfill : ∀ tok ∈ fillers, IsToken tok := by decide +kernel
  cases h with
  | filler h => exact hfill tok h
  | word w => exact w.isToken
  | stopped w => exact isToken_stopped w.isToken

theorem Sentence.isToken (s : Sentence) : ∀ tok ∈ s.tokens, IsToken tok := by
  have hopen : ∀ tok ∈ openers, IsToken tok := by decide +kernel
  obtain ⟨first, hfirst, next, rest, hs, hrest⟩ := s.tokens_shape
  rw [hs]
  intro tok htok
  rcases List.mem_cons.1 htok with rfl | htok
  · exact hopen tok hfirst
  · exact (hrest tok htok).isToken

/-- What a line needs to know about the keywords. -/
theorem keyword_facts {k : List Char} (hk : k ∈ keywords) : IsToken k ∧ '.' ∉ k := by
  have hall : ∀ k ∈ keywords, IsToken k ∧ '.' ∉ k := by decide +kernel
  exact hall k hk

/-- A line is quiet about a keyword if no token but the last ends with it. -/
theorem quiet_of_keyword {k : List Char} (hk : k ∈ keywords) {toks : List (List Char)}
    (htoks : ∀ tok ∈ toks, IsToken tok)
    (hends : ∀ tok ∈ toks.dropLast, endsApart k false tok = false) : Quiet k (spell toks) := by
  have htoken := (keyword_facts hk).1
  exact quiet_spell htoken.nonempty htoken.blank_not_mem htoks hends

/-- No keyword stands in front of a full stop that a gap follows. -/
theorem not_endsApart_stopped {k : List Char} (hk : k ∈ keywords) (tok : List Char) :
    endsApart k false (stopped tok) = false := by
  obtain ⟨hk, hstop⟩ := keyword_facts hk
  rw [Bool.eq_false_iff]
  intro hends
  rcases List.suffix_concat_iff.1 (suffix_of_endsApart hends) with rfl | ⟨front, rfl, -⟩
  · exact hk.nonempty rfl
  · exact hstop (List.mem_concat_self ..)

theorem IsOperand.not_endsApart {tok k : List Char} (h : IsOperand tok) (hk : k ∈ keywords) :
    endsApart k false tok = false := by
  have hfill : ∀ k ∈ keywords, ∀ tok ∈ fillers, endsApart k false tok = false := by
    decide +kernel
  cases h with
  | filler h => exact hfill k hk tok h
  | word w => exact w.not_endsApart hk
  | stopped w => exact not_endsApart_stopped hk w.chars

/-- A sentence is quiet about every keyword but the one that opens it. -/
theorem Sentence.quiet (s : Sentence) {first : List Char} {rest : List (List Char)}
    (hs : s.tokens = first :: rest) {k : List Char} (hk : k ∈ keywords) (hne : first ≠ k) :
    Quiet k (spell s.tokens) := by
  have hopen : ∀ k ∈ keywords, ∀ tok ∈ openers, tok ≠ k → endsApart k false tok = false := by
    decide +kernel
  apply quiet_of_keyword hk s.isToken
  intro tok htok
  obtain ⟨first', hfirst, next, others, hs', hrest⟩ := s.tokens_shape
  rw [hs'] at hs htok
  obtain ⟨rfl, -⟩ := List.cons.inj hs
  -- the token opens the sentence, or stands behind its opener
  rcases List.mem_cons.1 (List.dropLast_subset _ htok) with rfl | htok
  · exact hopen k hk tok hfirst hne
  · exact (hrest tok htok).not_endsApart hk

/-! ## Rules on quiet lines -/

section
variable {line : List Char}

theorem map_findWord?_of_quiet {α β : Type} {word : List Char} {rest : List Char → Option α}
    {f : α → β} (hrest : NeedsGap rest) (h : Quiet word line) :
    (findWord? word rest line).map f = none := by
  rw [findWord?_of_quiet hrest h]
  rfl

theorem display?_of_quiet (h : Quiet "DISPLAY".toList line) : display? line = none :=
  map_findWord?_of_quiet (needsGap_spaced _) h

theorem accept?_of_quiet (h : Quiet "ACCEPT".toList line) : accept? line = none :=
  map_findWord?_of_quiet needsGap_gapName? h

theorem move?_of_quiet (h : Quiet "MOVE".toList line) : move? line = none :=
  map_findWord?_of_quiet (needsGap_spaced _) h

theorem compute?_of_quiet (h : Quiet "COMPUTE".toList line) : compute? line = none :=
  map_findWord?_of_quiet (needsGap_spaced _) h

theorem add?_of_quiet (h : Quiet "ADD".toList line) : add? line = none :=
  map_findWord?_of_quiet (needsGap_spaced _) h

theorem multiply?_of_quiet (h : Quiet "MULTIPLY".toList line) : multiply? line = none :=
  map_findWord?_of_quiet (needsGap_spaced _) h

theorem conditional?_of_quiet (h : Quiet "IF".toList line) : conditional? line = none :=
  map_findWord?_of_quiet (needsGap_spaced _) h

theorem perform?_of_quiet (h : Quiet "PERFORM".toList line) : perform? line = none :=
  map_findWord?_of_quiet (needsGap_spaced _) h

theorem evaluate?_of_quiet (h : Quiet "EVALUATE".toList line) : evaluate? line = none :=
  map_findWord?_of_quiet (needsGap_spaced _) h

theorem goTo?_of_quiet (h : Quiet "GO".toList line) : goTo? line = none :=
  map_findWord?_of_quiet (needsGap_gapWord _ _) h

theorem performTarget?_of_quiet (h : Quiet "PERFORM".toList line) : performTarget? line = none :=
  findWord?_of_quiet needsGap_gapName? h

theorem action?_of_quiet (h : ∀ k ∈ statementKeywords, Quiet k line)
    (hstop : contains "STOP RUN".toList line = false) : action? line = none := by
  have hstop? : stop? line = none := by rw [stop?, hstop]; rfl
  simp only [action?, statementRules, List.findSome?_cons, List.findSome?_nil,
    display?_of_quiet (h _ (by decide)), accept?_of_quiet (h _ (by decide)),
    move?_of_quiet (h _ (by decide)), compute?_of_quiet (h _ (by decide)),
    add?_of_quiet (h _ (by decide)), multiply?_of_quiet (h _ (by decide)), hstop?]

theorem branch?_of_quiet (h : ∀ k ∈ branchKeywords, Quiet k line) : branch? line = none := by
  simp only [branch?, branchRules, List.findSome?_cons, List.findSome?_nil,
    conditional?_of_quiet (h _ (by decide)), perform?_of_quiet (h _ (by decide)),
    evaluate?_of_quiet (h _ (by decide)), goTo?_of_quiet (h _ (by decide))]

theorem stop_run_not_mem {toks : List (List Char)} (htoks : ∀ tok ∈ toks, IsToken tok)
    (h : NoPair "STOP".toList "RUN".toList toks) :
    contains "STOP RUN".toList (spell toks) = false := by
  have hpair : "STOP RUN".toList = "STOP".toList ++ ' ' :: "RUN".toList := by decide
  rw [hpair]
  exact contains_pair_spell (by decide) (by decide) htoks h

end

end Mainframe.Cobol.Tidy
