import Mainframe.Proofs.TidyReading

/-
  The lines of a tidy program.

  Every line is retained as it is: it is spelled, and it starts with neither an
  asterisk nor a sequence area. The lines in front of the procedure division are
  inert, which means that no rule finds anything there; only the pair of words
  that opens the division and the pair that stops the run could come about
  across a blank, and no two neighbours on these lines make either.

  What is proved:
    1. `retained?_item` and `retained?_variable`: what normalizing leaves of an
       item and of a declaration.
    2. `Program.inert_preamble`: the lines in front of the procedure division
       are inert.
    3. `normalize_source`: a tidy program is its own normalized text.
-/

namespace Mainframe.Cobol.Tidy

open Mainframe.Text

/-! ## Every line is retained as it is -/

/-- Whether the character starts neither a sequence area nor a comment. -/
def startsText (c : Char) : Bool := !c.isDigit && c != '*'

/-- A spelled line is retained as it is if it starts with text. -/
theorem retained?_of_first {first : List Char} {rest : List (List Char)}
    (htoks : ∀ tok ∈ first :: rest, IsToken tok) (hfirst : first.head?.any startsText = true) :
    retained? (spell (first :: rest)) = some (spell (first :: rest)) := by
  obtain ⟨c, tok, rfl⟩ :=
    List.exists_cons_of_ne_nil (htoks first List.mem_cons_self).nonempty
  have hc : startsText c = true := hfirst
  simp only [startsText, Bool.and_eq_true, Bool.not_eq_true', bne_iff_ne] at hc
  apply retained?_spell htoks hc.2
  rw [spell_cons_char]
  simp [hc.1]

theorem Picture.isToken (pic : Picture) : IsToken pic.chars := by
  refine ⟨pic.nonempty, ?_⟩
  intro c hc
  have h := pic.allowed c hc
  rw [isPictureChar, Bool.and_eq_true] at h
  exact h.1

theorem exists_digits_of_isLevel {w : List Char} (h : isLevel w = true) :
    ∃ a b, w = [a, b] ∧ a.isDigit = true ∧ b.isDigit = true := by
  unfold isLevel at h
  split at h
  next a b =>
    rw [Bool.and_eq_true] at h
    exact ⟨a, b, rfl, h.1, h.2⟩
  next => cases h

theorem Level.exists_digits (l : Level) :
    ∃ a b, l.chars = [a, b] ∧ a.isDigit = true ∧ b.isDigit = true :=
  exists_digits_of_isLevel l.isLevel

theorem isTokenChar_of_isDigit {c : Char} (h : c.isDigit = true) : isTokenChar c = true := by
  have hname : isNameChar c = true := by simp [isNameChar, h]
  exact (nameChar_facts hname).1

theorem Level.isToken (l : Level) : IsToken l.chars := by
  obtain ⟨a, b, hchars, ha, hb⟩ := l.exists_digits
  rw [hchars]
  refine ⟨by simp, ?_⟩
  intro c hc
  rcases List.mem_cons.1 hc with rfl | hc
  · exact isTokenChar_of_isDigit ha
  · rw [List.mem_singleton.1 hc]
    exact isTokenChar_of_isDigit hb

theorem Variable.isToken (v : Variable) : ∀ tok ∈ v.tokens, IsToken tok := by
  simp only [Variable.tokens, List.forall_mem_cons, List.not_mem_nil, false_implies,
    implies_true, and_true]
  exact ⟨v.level.isToken, v.name.isToken, by decide,
    isToken_stopped v.picture.isToken⟩

theorem retained?_variable (v : Variable) : retained? (spell v.tokens) = some (spell v.tokens) := by
  obtain ⟨a, b, hchars, ha, -⟩ := v.level.exists_digits
  have htoks := v.isToken
  rw [Variable.tokens, hchars] at htoks ⊢
  apply retained?_spell htoks
  · rintro rfl
    cases ha
  · -- the blank behind the level stands where a sequence area has a digit
    rw [spell_cons_cons]
    simp [show Char.isDigit ' ' = false by decide]

theorem startsText_of_isUpper {c : Char} (h : c.isUpper = true) : startsText c = true := by
  have hall : ∀ n < 128, (Char.ofNat n).isUpper = true → startsText (Char.ofNat n) = true := by
    decide +kernel
  have hname : isNameChar c = true := by simp [isNameChar, h]
  exact of_ascii (p := fun c => c.isUpper = true → startsText c = true) hall
    (toNat_lt_of_isNameChar hname) h

theorem startsText_label (name : Label) : (stopped name.chars).head?.any startsText = true := by
  obtain ⟨c, hc, hupper⟩ := name.startsWithLetter
  rw [stopped, List.head?_append, hc]
  exact startsText_of_isUpper hupper

theorem Item.isToken (item : Item) : ∀ tok ∈ item.tokens, IsToken tok := by
  cases item with
  | label name =>
    intro tok htok
    rw [List.mem_singleton.1 htok]
    exact isToken_stopped name.isToken
  | sentence s => exact s.isToken

theorem retained?_item (item : Item) :
    retained? (spell item.tokens) = some (spell item.tokens) := by
  have htoks := item.isToken
  cases item with
  | label name => exact retained?_of_first htoks (startsText_label name)
  | sentence s =>
    have hopen : ∀ tok ∈ openers, tok.head?.any startsText = true := by decide
    obtain ⟨first, hfirst, next, rest, hs, -⟩ := s.tokens_shape
    simp only [Item.tokens] at htoks ⊢
    rw [hs] at htoks ⊢
    exact retained?_of_first htoks (hopen first hfirst)

/-! ## Lines in front of the procedure division -/

/-- Nothing is found on the line, and it does not open the procedure division. -/
structure Inert (toks : List (List Char)) : Prop where
  isToken : ∀ tok ∈ toks, IsToken tok
  retained : retained? (spell toks) = some (spell toks)
  quiet : ∀ k ∈ keywords, Quiet k (spell toks)
  noStop : contains "STOP RUN".toList (spell toks) = false
  notOpen : opensProcedure (spell toks) = false

/-- A line of two tokens is inert if its first is nothing that a rule looks for. -/
theorem inert_pair {first last : List Char} (hfirst : IsToken first) (hlast : IsToken last)
    (hhead : first.head?.any startsText = true)
    (hends : ∀ k ∈ keywords, endsApart k false first = false)
    (hstop : ¬ "STOP".toList <:+ first) (hopen : ¬ "PROCEDURE".toList <:+ first) :
    Inert [first, last] := by
  have htoks : ∀ tok ∈ [first, last], IsToken tok := by
    intro tok htok
    rcases List.mem_cons.1 htok with rfl | htok
    · exact hfirst
    · rw [List.mem_singleton.1 htok]
      exact hlast
  constructor
  case isToken => exact htoks
  case retained => exact retained?_of_first htoks hhead
  case quiet =>
    intro k hk
    apply quiet_of_keyword hk htoks
    intro tok htok
    rw [List.mem_singleton.1 htok]
    exact hends k hk
  case noStop => exact stop_run_not_mem htoks ⟨fun h => absurd h hstop, trivial⟩
  case notOpen => exact notOpen_of_noPair htoks ⟨fun h => absurd h hopen, trivial⟩

/-- A level is made of digits, so it does not end with a letter. -/
theorem not_suffix_level (l : Level) {word : List Char}
    (h : word.any (fun c => !c.isDigit) = true) : ¬ word <:+ l.chars := by
  intro hsuffix
  obtain ⟨c, hc, hletter⟩ := List.any_eq_true.1 h
  rw [Bool.not_eq_true'] at hletter
  obtain ⟨a, b, hchars, ha, hb⟩ := l.exists_digits
  have hmem : c ∈ [a, b] := hchars ▸ hsuffix.subset hc
  rcases List.mem_cons.1 hmem with rfl | hmem
  · rw [ha] at hletter
    cases hletter
  · rw [List.mem_singleton.1 hmem, hb] at hletter
    cases hletter

theorem inert_variable (v : Variable) : Inert v.tokens := by
  constructor
  case isToken => exact v.isToken
  case retained => exact retained?_variable v
  case quiet =>
    have hletter : ∀ k ∈ keywords, k.any (fun c => !c.isDigit) = true := by decide
    have hpic : ∀ k ∈ keywords, endsApart k false "PIC".toList = false := by decide +kernel
    intro k hk
    apply quiet_of_keyword hk v.isToken
    simp only [Variable.tokens, List.dropLast, List.forall_mem_cons, List.not_mem_nil,
      false_implies, implies_true, and_true]
    refine ⟨?_, v.name.not_endsApart hk, hpic k hk⟩
    rw [Bool.eq_false_iff]
    exact fun h => not_suffix_level v.level (hletter k hk) (suffix_of_endsApart h)
  case noStop =>
    apply stop_run_not_mem v.isToken
    refine ⟨fun h => absurd h (not_suffix_level _ (by decide)), fun _ => by decide, ?_, trivial⟩
    exact fun h => absurd h (by decide)
  case notOpen =>
    apply notOpen_of_noPair v.isToken
    refine ⟨fun h => absurd h (not_suffix_level _ (by decide)), fun _ => by decide, ?_, trivial⟩
    exact fun h => absurd h (by decide)

theorem Program.inert_preamble (p : Program) : ∀ toks ∈ p.preamble, Inert toks := by
  have hdivision : IsToken "DIVISION.".toList := by decide
  intro toks htoks
  rcases List.mem_append.1 htoks with hheader | hvariable
  · simp only [Program.headers, List.mem_cons, List.not_mem_nil, or_false] at hheader
    rcases hheader with rfl | rfl | rfl | rfl
    · exact inert_pair (by decide) hdivision (by decide) (by decide +kernel)
        (by decide) (by decide)
    · exact inert_pair (by decide) (isToken_stopped p.programId.isToken) (by decide)
        (by decide +kernel) (by decide) (by decide)
    · exact inert_pair (by decide) hdivision (by decide) (by decide +kernel)
        (by decide) (by decide)
    · exact inert_pair (by decide) (by decide) (by decide)
        (by decide +kernel) (by decide) (by decide)
  · obtain ⟨v, -, rfl⟩ := List.mem_map.1 hvariable
    exact inert_variable v

section
variable {toks : List (List Char)} (h : Inert toks)
include h

theorem Inert.action? : Cobol.action? (spell toks) = none :=
  action?_of_quiet (fun k hk => h.quiet k (List.mem_append_left _ hk)) h.noStop

theorem Inert.branch? : Cobol.branch? (spell toks) = none :=
  branch?_of_quiet (fun k hk => h.quiet k (List.mem_append_right _ hk))

theorem Inert.performTarget? : Cobol.performTarget? (spell toks) = none :=
  performTarget?_of_quiet (h.quiet _ (by decide))

end

/-! ## The normalized text -/

/-- The header of the procedure division. -/
def procedureHeader : List Char := spell ["PROCEDURE".toList, "DIVISION.".toList]

/-- What stands behind the last line: an empty line if it is ended. -/
def ending (ended : Bool) : List (List Char) := if ended then [[]] else []

/-- The lines of the procedure division. -/
def Program.bodyLines (p : Program) (ended : Bool) : List (List Char) :=
  procedureHeader :: (p.items.map (fun item => spell item.tokens) ++ ending ended)

theorem Program.lines_eq (p : Program) (ended : Bool) :
    p.lines ++ ending ended = p.preamble.map spell ++ p.bodyLines ended := by
  simp [lines, procedure, bodyLines, procedureHeader, Function.comp_def]

/-- Every line is kept apart from the next, and retained as it is. -/
theorem retained?_line (p : Program) (ended : Bool) :
    ∀ line ∈ p.lines ++ ending ended, '\n' ∉ line ∧ retained? line = some line := by
  intro line hline
  rw [p.lines_eq, Program.bodyLines] at hline
  rcases List.mem_append.1 hline with hpre | hbody
  · obtain ⟨toks, htoks, rfl⟩ := List.mem_map.1 hpre
    have hinert := p.inert_preamble toks htoks
    exact ⟨newline_not_mem_spell hinert.isToken, hinert.retained⟩
  · rcases List.mem_cons.1 hbody with rfl | hbody
    · decide +kernel
    · rcases List.mem_append.1 hbody with hitem | hend
      · obtain ⟨item, -, rfl⟩ := List.mem_map.1 hitem
        exact ⟨newline_not_mem_spell item.isToken, retained?_item item⟩
      · cases ended with
        | false => cases hend
        | true => rw [List.mem_singleton.1 hend]; decide

theorem splitLines_source (p : Program) (ended : Bool) :
    splitLines (p.source ended).toList = p.lines ++ ending ended := by
  rw [Program.source, String.toList_ofList]
  apply splitLines_joinLines
  · simp [Program.lines, Program.procedure]
  · exact fun line hline => (retained?_line p ended line hline).1

theorem filterMap_retained? {lines : List (List Char)}
    (h : ∀ line ∈ lines, retained? line = some line) : lines.filterMap retained? = lines := by
  induction lines with
  | nil => rfl
  | cons line lines ih =>
    rw [List.filterMap_cons, h line List.mem_cons_self]
    simp only [ih (fun l hl => h l (List.mem_cons_of_mem line hl))]

theorem normalize_source (p : Program) (ended : Bool) :
    normalize (p.source ended) = p.source ended := by
  have hretained : retainedLines (p.source ended).toList = p.lines ++ ending ended := by
    rw [retainedLines, splitLines_source]
    exact filterMap_retained? (fun line hline => (retained?_line p ended line hline).2)
  rw [normalize, hretained]
  rfl

end Mainframe.Cobol.Tidy
