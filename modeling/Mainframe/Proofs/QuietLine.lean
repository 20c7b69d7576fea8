import Mainframe.Text.Search
import Mainframe.Proofs.SpelledLine

/-
  Lines on which a keyword is not found.

  A rule that looks for a keyword with a gap behind it can only find it where a
  token ends with the keyword and no word character stands before it there.
  `Quiet` says that a line has no such place.

  What is proved:
    1. `quiet_spell`: a spelled line is quiet about a keyword if no token but
       the last ends with it.
    2. `findWord?_of_quiet`: on a quiet line nothing is found behind the keyword
       that needs a gap.
    3. `endsApart_of_pieces`: a token of name characters ends with a keyword
       only if the keyword is one of its parts between hyphens.
    4. `contains_pair_spell`: two halves with a blank between them stand in a
       line only if two neighbouring tokens end and start with them.
-/

namespace Mainframe.Text

/-! ## Keywords with a gap behind them -/

/-- No place in the line has the keyword at a word start and a gap behind it. -/
def Quiet (word line : List Char) : Prop := findWord? word gap? line = none

/-- Whether the token ends with the word and no word character stands before it
there. -/
def endsApart (word : List Char) : Bool → List Char → Bool
  | _, [] => false
  | inWord, c :: s => (!inWord && c :: s == word) || endsApart word (isWordChar c) s

theorem suffix_of_endsApart {word tok : List Char} {inWord : Bool}
    (h : endsApart word inWord tok = true) : word <:+ tok := by
  induction tok generalizing inWord with
  | nil => cases h
  | cons c tok ih =>
    rw [endsApart, Bool.or_eq_true, Bool.and_eq_true, beq_iff_eq] at h
    rcases h with ⟨-, rfl⟩ | h
    · exact List.suffix_refl _
    · exact List.suffix_cons_iff.2 (.inr (ih h))

/-- What `findWord?` accepts at one place. -/
def atWordStart {α : Type} (word : List Char) (rest : List Char → Option α) (inWord : Bool)
    (here : List Char) : Option α :=
  if inWord then none else (after? word here).bind rest

theorem findWord?_eq {α : Type} (word : List Char) (rest : List Char → Option α)
    (s : List Char) : findWord? word rest s = leftmost (atWordStart word rest) false s := rfl

theorem leftmost_cons {α : Type} {accept : Bool → List Char → Option α} {inWord : Bool} {c : Char}
    {s : List Char} (h : accept inWord (c :: s) = none) :
    leftmost accept inWord (c :: s) = leftmost accept (isWordChar c) s := by
  rw [leftmost, h]

theorem gap?_of_not_blank {s : List Char} (h : ∀ c ∈ s.head?, isBlank c = false) :
    gap? s = none := by
  cases s with
  | nil => rfl
  | cons c s => simp [gap?, h c rfl]

/-- A word that does not hold the separator ends where it stands, or before. -/
theorem exists_of_append_eq {word rest s t : List Char} {separator : Char} (h : separator ∉ word)
    (heq : word ++ rest = s ++ separator :: t) :
    ∃ more, s = word ++ more ∧ rest = more ++ separator :: t := by
  rcases List.append_eq_append_iff.1 heq with ⟨more, hs, hrest⟩ | ⟨more, hword, hcut⟩
  · exact ⟨more, hs, hrest⟩
  · cases more with
    | nil => exact ⟨[], by simpa using hword.symm, by simpa using hcut.symm⟩
    | cons d more =>
      -- the word would reach over the separator
      rw [hword, ← (List.cons.inj hcut).1] at h
      exact absurd (by simp) h

/-- At the front of a token, a keyword with a gap behind it is the whole token. -/
theorem atWordStart_token {word tok more : List Char} (hword : ' ' ∉ word)
    (htok : ∀ c ∈ tok, isBlank c = false) (hne : tok ≠ word) :
    (after? word (tok ++ ' ' :: more)).bind gap? = none := by
  cases hafter : after? word (tok ++ ' ' :: more) with
  | none => rfl
  | some s =>
    obtain ⟨t, ht, rfl⟩ := exists_of_append_eq hword (after?_eq_some_iff.1 hafter).symm
    apply gap?_of_not_blank
    intro c hc
    cases t with
    | nil => exact absurd ht (by simpa using hne)
    | cons d t =>
      -- the keyword ends inside the token
      rw [List.cons_append, List.head?_cons, Option.mem_some] at hc
      apply htok
      rw [ht, hc]
      simp

theorem leftmost_token {word tok more : List Char} (hnil : word ≠ [])
    (hword : ' ' ∉ word) (htok : ∀ c ∈ tok, isBlank c = false) {inWord : Bool}
    (hends : endsApart word inWord tok = false) :
    leftmost (atWordStart word gap?) inWord (tok ++ ' ' :: more) =
      leftmost (atWordStart word gap?) false more := by
  -- place by place; the flag says whether a word character stands before the place
  induction tok generalizing inWord with
  | nil =>
    have hblank : atWordStart word gap? inWord (' ' :: more) = none := by
      have h : (after? word ([] ++ ' ' :: more)).bind gap? = none :=
        atWordStart_token hword (by simp) hnil.symm
      rw [List.nil_append] at h
      cases inWord with
      | true => rfl
      | false => exact h
    exact leftmost_cons hblank
  | cons c tok ih =>
    simp only [endsApart, Bool.or_eq_false_iff] at hends
    have hhere : atWordStart word gap? inWord (c :: tok ++ ' ' :: more) = none := by
      cases inWord with
      | true => rfl
      | false =>
        have hne : c :: tok ≠ word := by simpa using hends.1
        exact atWordStart_token hword htok hne
    rw [List.cons_append] at hhere ⊢
    rw [leftmost_cons hhere]
    exact ih (fun d hd => htok d (List.mem_cons_of_mem c hd)) hends.2

theorem leftmost_of_not_blank {word s : List Char} (hs : ∀ c ∈ s, isBlank c = false)
    (inWord : Bool) : leftmost (atWordStart word gap?) inWord s = none := by
  have hhere : ∀ (b : Bool) (t : List Char), (∀ c ∈ t, isBlank c = false) →
      atWordStart word gap? b t = none := by
    intro b t ht
    cases b with
    | true => rfl
    | false =>
      show (after? word t).bind gap? = none
      cases hafter : after? word t with
      | none => rfl
      | some u =>
        apply gap?_of_not_blank
        intro c hc
        apply ht
        rw [after?_eq_some_iff.1 hafter]
        exact List.mem_append_right _ (List.mem_of_mem_head? hc)
  induction s generalizing inWord with
  | nil => exact hhere inWord [] hs
  | cons c s ih =>
    rw [leftmost_cons (hhere inWord (c :: s) hs)]
    exact ih (fun d hd => hs d (List.mem_cons_of_mem c hd)) _

/-- A spelled line is quiet about a keyword if none of its tokens but the last
ends with it; behind the last there is no gap. -/
theorem quiet_spell {word : List Char} (hnil : word ≠ []) (hword : ' ' ∉ word)
    {toks : List (List Char)} (htoks : ∀ tok ∈ toks, IsToken tok)
    (hends : ∀ tok ∈ toks.dropLast, endsApart word false tok = false) :
    Quiet word (spell toks) := by
  rw [Quiet, findWord?_eq]
  induction toks with
  | nil => exact leftmost_of_not_blank (by simp [spell]) false
  | cons tok toks ih =>
    have htok := htoks tok List.mem_cons_self
    cases toks with
    | nil =>
      rw [spell_singleton]
      exact leftmost_of_not_blank htok.not_blank false
    | cons next toks =>
      rw [List.dropLast_cons_cons] at hends
      rw [spell_cons_cons,
        leftmost_token hnil hword htok.not_blank (hends tok List.mem_cons_self)]
      apply ih
      · exact fun t ht => htoks t (List.mem_cons_of_mem tok ht)
      · exact fun t ht => hends t (List.mem_cons_of_mem tok ht)

/-- The rest of a phrase fits only behind a gap. -/
def NeedsGap {α : Type} (rest : List Char → Option α) : Prop := ∀ s, gap? s = none → rest s = none

theorem needsGap_spaced {α : Type} (rest : List Char → Option α) : NeedsGap (spaced rest) := by
  intro s hs
  cases s with
  | nil => rfl
  | cons c s =>
    cases hc : isBlank c with
    | true => simp [gap?, hc] at hs
    | false => simp [spaced, hc]

theorem needsGap_gapWord {α : Type} (word : List Char) (rest : List Char → Option α) :
    NeedsGap (gapWord word rest) := by
  intro s hs
  rw [gapWord, hs]
  rfl

theorem leftmost_eq_none_of_imp {α β : Type} {accept : Bool → List Char → Option α}
    {accept' : Bool → List Char → Option β}
    (himp : ∀ inWord s, accept inWord s = none → accept' inWord s = none) {s : List Char}
    {inWord : Bool} (h : leftmost accept inWord s = none) :
    leftmost accept' inWord s = none := by
  induction s generalizing inWord with
  | nil => exact himp inWord [] h
  | cons c s ih =>
    rw [leftmost] at h
    split at h
    next => cases h
    next hhere =>
      rw [leftmost_cons (himp inWord (c :: s) hhere)]
      exact ih h

/-- Nothing that needs a gap is found behind a keyword about which the line is
quiet. -/
theorem findWord?_of_quiet {α : Type} {word line : List Char} {rest : List Char → Option α}
    (hrest : NeedsGap rest) (h : Quiet word line) : findWord? word rest line = none := by
  rw [findWord?_eq]
  refine leftmost_eq_none_of_imp ?_ h
  intro inWord s hs
  unfold atWordStart at hs ⊢
  split
  next => rfl
  next hapart =>
    rw [if_neg hapart] at hs
    cases hafter : after? word s with
    | none => rfl
    | some t =>
      rw [hafter] at hs
      exact hrest t hs

theorem findWord?_append {α : Type} {word tail : List Char} {rest : List Char → Option α} {a : α}
    (h : rest tail = some a) : findWord? word rest (word ++ tail) = some a := by
  have hhere : atWordStart word rest false (word ++ tail) = some a := by
    show (after? word (word ++ tail)).bind rest = some a
    rw [after?_append]
    exact h
  rw [findWord?_eq]
  cases hs : word ++ tail with
  | nil => rw [hs] at hhere; exact hhere
  | cons c s => rw [hs] at hhere; rw [leftmost, hhere]

/-! ## Parts of a token -/

/-- The parts at which a word may start, when the token goes on inside a word or
starts outside of one. -/
def openParts (inWord : Bool) (tok : List Char) : List (List Char) :=
  if inWord then (pieces '-' tok).tail else pieces '-' tok

theorem endsApart_of_openParts {word tok : List Char} (hword : '-' ∉ word)
    (htok : ∀ c ∈ tok, isWordChar c = true ∨ c = '-') {inWord : Bool}
    (h : word ∉ openParts inWord tok) : endsApart word inWord tok = false := by
  induction tok generalizing inWord with
  | nil => rfl
  | cons c tok ih =>
    rw [endsApart, Bool.or_eq_false_iff]
    constructor
    · -- a token that is the keyword is its own only part
      cases inWord with
      | true => rfl
      | false =>
        simp only [Bool.not_false, Bool.true_and, beq_eq_false_iff_ne]
        intro heq
        apply h
        rw [← heq] at hword
        rw [openParts, if_neg (by simp), pieces_of_not_mem hword, heq]
        exact List.mem_singleton_self word
    · apply ih (fun d hd => htok d (List.mem_cons_of_mem c hd))
      intro hmem
      apply h
      by_cases hhyphen : c = '-'
      · subst hhyphen
        have hapart : isWordChar '-' = false := by decide
        rw [hapart] at hmem
        cases inWord with
        | true => simpa [openParts, pieces_cons_self] using hmem
        | false =>
          rw [openParts, if_neg (by simp), pieces_cons_self]
          exact List.mem_cons_of_mem [] hmem
      · have hin : isWordChar c = true :=
          (htok c List.mem_cons_self).resolve_right hhyphen
        obtain ⟨piece, rest, hs, hcs⟩ := pieces_cons_of_ne hhyphen tok
        have hrest : word ∈ rest := by
          rw [hin, openParts, if_pos rfl, hs] at hmem
          exact hmem
        cases inWord with
        | true =>
          rw [openParts, if_pos rfl, hcs]
          exact hrest
        | false =>
          rw [openParts, if_neg (by simp), hcs]
          exact List.mem_cons_of_mem (c :: piece) hrest

/-- A token of letters, digits and hyphens ends with a keyword, apart from any
word character, only if the keyword is one of its parts between hyphens. -/
theorem endsApart_of_pieces {word tok : List Char} (hword : '-' ∉ word)
    (htok : ∀ c ∈ tok, isWordChar c = true ∨ c = '-') (h : word ∉ pieces '-' tok) :
    endsApart word false tok = false :=
  endsApart_of_openParts hword htok h

/-! ## Neighbouring tokens -/

/-- No token that ends with `left` stands in front of one that starts with
`right`. -/
def NoPair (left right : List Char) : List (List Char) → Prop
  | tok :: next :: toks => (left <:+ tok → ¬ right <+: next) ∧ NoPair left right (next :: toks)
  | _ => True

theorem startsWith_pair_token {left right tok more : List Char}
    (hleft : ' ' ∉ left) (htok : ' ' ∉ tok)
    (h : startsWith (left ++ ' ' :: right) (tok ++ ' ' :: more) = true) :
    tok = left ∧ right <+: more := by
  obtain ⟨rest, hrest⟩ := startsWith_iff.1 h
  rw [List.append_assoc, List.cons_append] at hrest
  obtain ⟨t, ht, hcut⟩ := exists_of_append_eq hleft hrest
  cases t with
  | nil =>
    rw [List.nil_append] at hcut
    exact ⟨by rw [ht, List.append_nil], rest, (List.cons.inj hcut).2⟩
  | cons d t =>
    -- the token would hold the blank between the halves
    rw [List.cons_append] at hcut
    rw [ht, ← (List.cons.inj hcut).1] at htok
    exact absurd (by simp) htok

theorem contains_pair_token {left right tok more : List Char} (hleft : ' ' ∉ left)
    (htok : ' ' ∉ tok) (h : contains (left ++ ' ' :: right) (tok ++ ' ' :: more) = true) :
    (left <:+ tok ∧ right <+: more) ∨ contains (left ++ ' ' :: right) more = true := by
  induction tok with
  | nil =>
    rw [List.nil_append, contains, Bool.or_eq_true] at h
    rcases h with h | h
    · have hstart : startsWith (left ++ ' ' :: right) ([] ++ ' ' :: more) = true := h
      obtain ⟨rfl, hright⟩ := startsWith_pair_token hleft htok hstart
      exact .inl ⟨List.suffix_refl [], hright⟩
    · exact .inr h
  | cons c tok ih =>
    rw [List.cons_append, contains, Bool.or_eq_true] at h
    rcases h with h | h
    · have hstart : startsWith (left ++ ' ' :: right) ((c :: tok) ++ ' ' :: more) = true := h
      obtain ⟨rfl, hright⟩ := startsWith_pair_token hleft htok hstart
      exact .inl ⟨List.suffix_refl _, hright⟩
    · rcases ih (fun hm => htok (List.mem_cons_of_mem c hm)) h with ⟨hl, hr⟩ | h
      · exact .inl ⟨List.suffix_cons_iff.2 (.inr hl), hr⟩
      · exact .inr h

theorem prefix_of_prefix_spell {word tok : List Char} {toks : List (List Char)}
    (hword : ' ' ∉ word) (h : word <+: spell (tok :: toks)) : word <+: tok := by
  cases toks with
  | nil => rwa [spell_singleton] at h
  | cons next toks =>
    rw [spell_cons_cons] at h
    obtain ⟨rest, hrest⟩ := h
    obtain ⟨t, ht, -⟩ := exists_of_append_eq hword hrest
    exact ⟨t, ht.symm⟩

/-- Two halves with a blank between them do not stand in a spelled line in which
no two neighbours end and start with them. -/
theorem contains_pair_spell {left right : List Char} (hleft : ' ' ∉ left) (hright : ' ' ∉ right)
    {toks : List (List Char)} (htoks : ∀ tok ∈ toks, IsToken tok) (h : NoPair left right toks) :
    contains (left ++ ' ' :: right) (spell toks) = false := by
  rw [Bool.eq_false_iff]
  intro hcontains
  induction toks with
  | nil =>
    have hempty := contains_iff.1 hcontains
    simp [spell] at hempty
  | cons tok toks ih =>
    have htok := (htoks tok List.mem_cons_self).blank_not_mem
    cases toks with
    | nil =>
      rw [spell_singleton] at hcontains
      exact htok ((contains_iff.1 hcontains).subset (by simp))
    | cons next toks =>
      rw [spell_cons_cons] at hcontains
      rcases contains_pair_token hleft htok hcontains with ⟨hl, hr⟩ | hmore
      · exact h.1 hl (prefix_of_prefix_spell hright hr)
      · exact ih (fun t ht => htoks t (List.mem_cons_of_mem tok ht)) h.2 hmore

end Mainframe.Text
