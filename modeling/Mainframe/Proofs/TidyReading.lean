import Mainframe.Proofs.TidySentence

/-
  What the rules find on the line of a sentence.

  Each form of sentence is read by the rule of its keyword: the keyword opens
  the line, the fields behind it are its words, and the rules that are tried
  before find the line quiet.

  What is proved:
    1. `action?_sentence` and `branch?_sentence`: the statement and the branch
       on the line of a sentence.
    2. `performTarget?_sentence`: the paragraph that it calls.
    3. `paragraphName?_sentence` and `paragraphName?_label`: a sentence names no
       paragraph, and a label names its own.
-/

namespace Mainframe.Cobol.Tidy

open Mainframe.Text

/-! ## The rule of each keyword -/

theorem word_stop (w : Word) : spaced atStop (' ' :: stopped w.chars) = some (w.chars, ()) :=
  spaced_stop w.nonempty w.not_blank w.stop_not_mem

theorem word_name (w : Word) : gapName? (' ' :: stopped w.chars) = some w.chars :=
  gapName?_append w.nonempty w.allowed w.not_blank (by decide) []

/-- A word as the first of two fields, with a filler in front of the second. -/
theorem word_joined {α : Type} (w : Word) (filler : List Char) {tail : List Char}
    {rest : List Char → Option α} {a : α} (hfiller : IsToken filler)
    (hrest : rest (' ' :: tail) = some a) :
    spaced (gapWord filler rest) (' ' :: (w.chars ++ ' ' :: (filler ++ ' ' :: tail))) =
      some (w.chars, a) := by
  apply spaced_token w.nonempty w.not_blank
  · rw [gapWord_append hfiller.nonempty hfiller.not_blank]
    exact hrest
  · exact fun c hc t => gapWord_cons (w.not_blank c hc) t

theorem text_append (v w : Word) (filler : String) :
    String.ofList (v.chars ++ (filler.toList ++ w.chars)) = v.text ++ filler ++ w.text := by
  rw [String.ofList_append, String.ofList_append, String.ofList_toList, ← String.append_assoc]
  rfl

theorem display?_tokens (w : Word) :
    display? (spell (Sentence.display w).tokens) = some (.display w.text) := by
  have hstop : either atStop atEnd ['.'] = some () := rfl
  have hfield : spaced (either atStop atEnd) (' ' :: stopped w.chars) = some (w.chars, ()) := by
    apply spaced_token w.nonempty w.not_blank hstop
    intro c hc t
    rw [either, atStop_cons (fun heq => w.stop_not_mem (heq ▸ hc))]
    rfl
  simp only [Sentence.tokens, spell_cons_cons, spell_singleton]
  rw [display?, findWord?_append hfield]
  rfl

theorem accept?_tokens (w : Word) :
    accept? (spell (Sentence.accept w).tokens) = some (.accept w.text) := by
  simp only [Sentence.tokens, spell_cons_cons, spell_singleton]
  rw [accept?, findWord?_append (word_name w)]
  rfl

theorem move?_tokens (v w : Word) :
    move? (spell (Sentence.move v w).tokens) = some (.move v.text w.text) := by
  have hfields := word_joined v "TO".toList (by decide) (word_stop w)
  simp only [Sentence.tokens, spell_cons_cons, spell_singleton]
  rw [move?, findWord?_append hfields]
  rfl

theorem compute?_tokens (u v w : Word) :
    compute? (spell (Sentence.compute u v w).tokens) =
      some (.compute u.text (v.text ++ " + " ++ w.text)) := by
  have hstop : '.' ∉ v.chars ++ (" + ".toList ++ w.chars) := by
    simp [v.stop_not_mem, w.stop_not_mem]
  have hexpression : padded atStop (' ' :: (v.chars ++ (" + ".toList ++ w.chars) ++ ['.'])) =
      some (v.chars ++ (" + ".toList ++ w.chars), ()) := by
    apply padded_field
    · rw [List.append_assoc]
      exact head?_append_not_blank v.nonempty v.not_blank _
    · exact field_stop (by simp) hstop
  have htarget : spaced (equals (padded atStop))
      (' ' :: (u.chars ++ ' ' :: '=' :: ' ' :: (v.chars ++ (" + ".toList ++ w.chars) ++ ['.']))) =
      some (u.chars, v.chars ++ (" + ".toList ++ w.chars), ()) := by
    apply spaced_token u.nonempty u.not_blank
    · rw [equals_append]
      exact hexpression
    · exact fun c hc t =>
        equals_cons (u.not_blank c hc) (nameChar_facts (u.allowed c hc)).2.2.1 t
  have hline : spell (Sentence.compute u v w).tokens = "COMPUTE".toList ++
      ' ' :: (u.chars ++ ' ' :: '=' :: ' ' :: (v.chars ++ (" + ".toList ++ w.chars) ++ ['.'])) := by
    simp [Sentence.tokens, spell_cons_cons, spell_singleton, stopped]
  rw [compute?, hline, findWord?_append htarget, Option.map_some, text_append]
  rfl

/-- Two words with a blank between them as one field, in front of GIVING. The
second word is not GIVING itself, so the field does not end before it. -/
theorem words_joined {α : Type} (u v : Word) {tail : List Char} {rest : List Char → Option α}
    {a : α} (hgap : NeedsGap rest) (hrest : rest (' ' :: tail) = some a) :
    spaced (gapWord "GIVING".toList rest)
      (' ' :: (u.chars ++ (' ' :: v.chars) ++ ' ' :: ("GIVING".toList ++ ' ' :: tail))) =
      some (u.chars ++ ' ' :: v.chars, a) := by
  have hgiving : IsToken "GIVING".toList := by decide
  have hne : v.chars ≠ "GIVING".toList := by
    intro heq
    have hmem : "GIVING".toList ∈ connectives := by decide
    exact v.noConnective (heq ▸ hmem)
  have hsecond : gapWord "GIVING".toList rest
      (' ' :: (v.chars ++ ' ' :: ("GIVING".toList ++ ' ' :: tail))) = none :=
    gapWord_token hgap hgiving.blank_not_mem v.nonempty v.not_blank hne
  rw [spaced_field (by
    rw [List.append_assoc]
    exact head?_append_not_blank u.nonempty u.not_blank _)]
  apply field_append (by simp)
  · rw [gapWord_append hgiving.nonempty hgiving.not_blank]
    exact hrest
  · intro short long hs hshort hlong
    -- the field would have to end inside the first word, behind it, or inside the second
    rcases List.append_eq_append_iff.1 hs with ⟨as, -, hv⟩ | ⟨bs, hu, hlong'⟩
    · cases as with
      | nil =>
        rw [List.nil_append] at hv
        rw [← hv]
        exact hsecond
      | cons d as =>
        rw [List.cons_append] at hv
        obtain ⟨c, t, rfl⟩ := List.exists_cons_of_ne_nil hlong
        apply gapWord_cons
        apply v.not_blank
        rw [(List.cons.inj hv).2]
        simp
    · cases bs with
      | nil =>
        rw [List.nil_append] at hlong'
        rw [hlong']
        exact hsecond
      | cons d bs =>
        rw [hlong']
        apply gapWord_cons
        apply u.not_blank
        rw [hu]
        simp

theorem add?_tokens (u v w : Word) :
    add? (spell (Sentence.add u v w).tokens) =
      some (.add (u.text ++ " " ++ v.text) w.text) := by
  have hfields := words_joined u v (needsGap_spaced atStop) (word_stop w)
  have hline : spell (Sentence.add u v w).tokens = "ADD".toList ++
      ' ' :: (u.chars ++ (' ' :: v.chars) ++
        ' ' :: ("GIVING".toList ++ ' ' :: stopped w.chars)) := by
    simp [Sentence.tokens, spell_cons_cons, spell_singleton]
  rw [add?, hline, findWord?_append hfields, Option.map_some]
  congr 2
  exact text_append u v " "

theorem multiply?_tokens (u v w : Word) :
    multiply? (spell (Sentence.multiply u v w).tokens) =
      some (.multiply u.text v.text w.text) := by
  have hsecond := word_joined v "GIVING".toList (by decide) (word_stop w)
  have hfields := word_joined u "BY".toList (by decide) hsecond
  simp only [Sentence.tokens, spell_cons_cons, spell_singleton]
  rw [multiply?, findWord?_append hfields]
  rfl

theorem conditional?_tokens (v w : Word) :
    conditional? (spell (Sentence.ifGreater v w).tokens) =
      some (.conditional (v.text ++ " > " ++ w.text)) := by
  have hthen : contains "THEN".toList (v.chars ++ (" > ".toList ++ w.chars)) = false := by
    have hblank : ' ' ∉ "THEN".toList := by decide
    show contains "THEN".toList (v.chars ++ ' ' :: (['>'] ++ ' ' :: w.chars)) = false
    rw [contains_append_separator hblank, contains_append_separator hblank, v.noThen, w.noThen]
    decide
  have hfield : spaced (either (atWord "THEN".toList) atEnd)
      (' ' :: (v.chars ++ (" > ".toList ++ w.chars))) =
      some (v.chars ++ (" > ".toList ++ w.chars), ()) := by
    rw [spaced_field (head?_append_not_blank v.nonempty v.not_blank _)]
    exact field_without (by simp) hthen
  have hline : spell (Sentence.ifGreater v w).tokens = "IF".toList ++
      ' ' :: (v.chars ++ (" > ".toList ++ w.chars)) := by
    simp [Sentence.tokens, spell_cons_cons, spell_singleton]
  rw [conditional?, hline, findWord?_append hfield, Option.map_some, text_append]

theorem perform?_tokens (w : Word) :
    perform? (spell (Sentence.perform w).tokens) = some (.perform w.text) := by
  simp only [Sentence.tokens, spell_cons_cons, spell_singleton]
  rw [perform?, findWord?_append (word_stop w)]
  rfl

theorem evaluate?_tokens (w : Word) :
    evaluate? (spell (Sentence.evaluate w).tokens) = some (.evaluate w.text) := by
  simp only [Sentence.tokens, spell_cons_cons, spell_singleton]
  rw [evaluate?, findWord?_append (spaced_end w.nonempty w.not_blank)]
  rfl

theorem goTo?_tokens (w : Word) :
    goTo? (spell (Sentence.goTo w).tokens) = some (.goTo w.text) := by
  have htarget : gapWord "TO".toList gapName? (' ' :: ("TO".toList ++ ' ' :: stopped w.chars)) =
      some w.chars := by
    have hto : IsToken "TO".toList := by decide
    rw [gapWord_append hto.nonempty hto.not_blank]
    exact word_name w
  simp only [Sentence.tokens, spell_cons_cons, spell_singleton]
  rw [goTo?, findWord?_append htarget]
  rfl

/-! ## Statements, branches and calls -/

/-- The words of a branch do not stand next to each other, so no STOP RUN comes
about in one, and no statement is found. -/
theorem action?_of_branch (s : Sentence) {first : List Char} {rest : List (List Char)}
    (hs : s.tokens = first :: rest) (hfirst : first ∈ branchKeywords)
    (hpair : NoPair "STOP".toList "RUN".toList s.tokens) : action? (spell s.tokens) = none := by
  have hapart : ∀ k ∈ statementKeywords, ∀ b ∈ branchKeywords, b ≠ k := by decide
  apply action?_of_quiet
  · intro k hk
    exact s.quiet hs (List.mem_append_left _ hk) (hapart k hk first hfirst)
  · exact stop_run_not_mem s.isToken hpair

theorem branch?_of_statement (s : Sentence) {first : List Char} {rest : List (List Char)}
    (hs : s.tokens = first :: rest) (hfirst : first ∉ branchKeywords) :
    branch? (spell s.tokens) = none := by
  apply branch?_of_quiet
  intro k hk
  apply s.quiet hs (List.mem_append_right _ hk)
  rintro rfl
  exact hfirst hk

theorem action?_sentence (s : Sentence) : action? (spell s.tokens) = s.action := by
  -- the rules are tried in the order of the first seven forms
  cases s with
  | display w =>
    have hrule := display?_tokens w
    simp only [action?, statementRules, List.findSome?_cons, hrule, Sentence.action]
  | accept w =>
    have hrule := accept?_tokens w
    have hquiet := fun k => (Sentence.accept w).quiet (k := k) rfl
    simp only [action?, statementRules, List.findSome?_cons, hrule, Sentence.action,
      display?_of_quiet (hquiet _ (by decide) (by decide))]
  | move v w =>
    have hrule := move?_tokens v w
    have hquiet := fun k => (Sentence.move v w).quiet (k := k) rfl
    simp only [action?, statementRules, List.findSome?_cons, hrule, Sentence.action,
      display?_of_quiet (hquiet _ (by decide) (by decide)),
      accept?_of_quiet (hquiet _ (by decide) (by decide))]
  | compute u v w =>
    have hrule := compute?_tokens u v w
    have hquiet := fun k => (Sentence.compute u v w).quiet (k := k) rfl
    simp only [action?, statementRules, List.findSome?_cons, hrule, Sentence.action,
      display?_of_quiet (hquiet _ (by decide) (by decide)),
      accept?_of_quiet (hquiet _ (by decide) (by decide)),
      move?_of_quiet (hquiet _ (by decide) (by decide))]
  | add u v w =>
    have hrule := add?_tokens u v w
    have hquiet := fun k => (Sentence.add u v w).quiet (k := k) rfl
    simp only [action?, statementRules, List.findSome?_cons, hrule, Sentence.action,
      display?_of_quiet (hquiet _ (by decide) (by decide)),
      accept?_of_quiet (hquiet _ (by decide) (by decide)),
      move?_of_quiet (hquiet _ (by decide) (by decide)),
      compute?_of_quiet (hquiet _ (by decide) (by decide))]
  | multiply u v w =>
    have hrule := multiply?_tokens u v w
    have hquiet := fun k => (Sentence.multiply u v w).quiet (k := k) rfl
    simp only [action?, statementRules, List.findSome?_cons, hrule, Sentence.action,
      display?_of_quiet (hquiet _ (by decide) (by decide)),
      accept?_of_quiet (hquiet _ (by decide) (by decide)),
      move?_of_quiet (hquiet _ (by decide) (by decide)),
      compute?_of_quiet (hquiet _ (by decide) (by decide)),
      add?_of_quiet (hquiet _ (by decide) (by decide))]
  | stop => decide
  | ifGreater v w =>
    apply action?_of_branch _ rfl (by decide)
    exact ⟨fun h => absurd h (by decide), fun _ => by decide,
      fun h => absurd h (by decide), trivial⟩
  | perform w =>
    apply action?_of_branch _ rfl (by decide)
    exact ⟨fun h => absurd h (by decide), trivial⟩
  | evaluate w =>
    apply action?_of_branch _ rfl (by decide)
    exact ⟨fun h => absurd h (by decide), trivial⟩
  | goTo w =>
    apply action?_of_branch _ rfl (by decide)
    exact ⟨fun h => absurd h (by decide), fun h => absurd h (by decide), trivial⟩

theorem branch?_sentence (s : Sentence) : branch? (spell s.tokens) = s.branch := by
  cases s with
  | ifGreater v w =>
    have hrule := conditional?_tokens v w
    simp only [branch?, branchRules, List.findSome?_cons, hrule, Sentence.branch]
  | perform w =>
    have hrule := perform?_tokens w
    have hquiet := fun k => (Sentence.perform w).quiet (k := k) rfl
    simp only [branch?, branchRules, List.findSome?_cons, hrule, Sentence.branch,
      conditional?_of_quiet (hquiet _ (by decide) (by decide))]
  | evaluate w =>
    have hrule := evaluate?_tokens w
    have hquiet := fun k => (Sentence.evaluate w).quiet (k := k) rfl
    simp only [branch?, branchRules, List.findSome?_cons, hrule, Sentence.branch,
      conditional?_of_quiet (hquiet _ (by decide) (by decide)),
      perform?_of_quiet (hquiet _ (by decide) (by decide))]
  | goTo w =>
    have hrule := goTo?_tokens w
    have hquiet := fun k => (Sentence.goTo w).quiet (k := k) rfl
    simp only [branch?, branchRules, List.findSome?_cons, hrule, Sentence.branch,
      conditional?_of_quiet (hquiet _ (by decide) (by decide)),
      perform?_of_quiet (hquiet _ (by decide) (by decide)),
      evaluate?_of_quiet (hquiet _ (by decide) (by decide))]
  | display w => exact branch?_of_statement _ rfl (by decide)
  | accept w => exact branch?_of_statement _ rfl (by decide)
  | move v w => exact branch?_of_statement _ rfl (by decide)
  | compute u v w => exact branch?_of_statement _ rfl (by decide)
  | add u v w => exact branch?_of_statement _ rfl (by decide)
  | multiply u v w => exact branch?_of_statement _ rfl (by decide)
  | stop => decide

theorem performTarget?_sentence (s : Sentence) :
    performTarget? (spell s.tokens) = s.callee.map Word.chars := by
  have hperform : "PERFORM".toList ∈ keywords := by decide
  cases s with
  | perform w =>
    simp only [Sentence.tokens, spell_cons_cons, spell_singleton]
    rw [performTarget?, findWord?_append (word_name w)]
    rfl
  | stop => decide
  | _ => exact performTarget?_of_quiet (Sentence.quiet _ rfl hperform (by decide))

/-! ## Labels -/

/-- What a line starts with is no label if a blank follows. -/
theorem label?_of_blank {first more : List Char} (hne : first ≠ [])
    (hname : ∀ c ∈ first, isNameChar c = true) : label? (first ++ ' ' :: more) = none := by
  have hblank : ∀ c ∈ first, isBlank c = false := fun c hc =>
    isBlank_of_isTokenChar (nameChar_facts (hname c hc)).1
  rw [label?, trimStart_append hne hblank, name?_append hne hname (by decide)]
  cases first with
  | nil => rfl
  | cons c t => simp

theorem paragraphName?_sentence (s : Sentence) : paragraphName? (spell s.tokens) = none := by
  have hopen : ∀ tok ∈ openers, tok ≠ [] ∧ tok.all isNameChar = true := by decide
  obtain ⟨first, hfirst, next, rest, hs, -⟩ := s.tokens_shape
  have hlabel : label? (spell s.tokens) = none := by
    rw [hs, spell_cons_cons]
    exact label?_of_blank (hopen first hfirst).1 (List.all_eq_true.1 (hopen first hfirst).2)
  rw [paragraphName?, hlabel]
  split <;> rfl

theorem label?_stopped (name : Label) : label? (stopped name.chars) = some name.chars := by
  obtain ⟨c, hc, hupper⟩ := name.startsWithLetter
  rw [stopped, label?, trimStart_append name.nonempty name.not_blank,
    name?_append name.nonempty name.allowed (by decide)]
  cases hchars : name.chars with
  | nil => exact absurd hchars name.nonempty
  | cons d t =>
    rw [hchars] at hc
    obtain rfl : d = c := Option.some.inj hc
    simp [hupper]

theorem notOpen_of_noPair {toks : List (List Char)} (htoks : ∀ tok ∈ toks, IsToken tok)
    (h : NoPair "PROCEDURE".toList "DIVISION".toList toks) :
    opensProcedure (spell toks) = false := by
  have hpair : Division.procedure.header.toList =
      "PROCEDURE".toList ++ ' ' :: "DIVISION".toList := by decide
  rw [opensProcedure, hpair]
  exact contains_pair_spell (by decide) (by decide) htoks h

theorem paragraphName?_label (name : Label) :
    paragraphName? (spell [stopped name.chars]) = some name.chars := by
  have hopens : opensProcedure (spell [stopped name.chars]) = false := by
    apply notOpen_of_noPair
    · intro tok htok
      rw [List.mem_singleton.1 htok]
      exact isToken_stopped name.isToken
    · trivial
  have hsection : contains "SECTION".toList (stopped name.chars) = false := by
    have hstop : '.' ∉ "SECTION".toList := by decide
    rw [stopped, contains_append_separator hstop, name.noSection]
    decide
  rw [paragraphName?, hopens, spell_singleton, hsection, label?_stopped]
  simpa [Option.filter] using name.noScopeEnd

end Mainframe.Cobol.Tidy
