import Mainframe.Proofs.NormalizedText

/-
  Lines that are spelled: tokens with one blank between each two.

  A token is made of printable ASCII characters other than lower-case letters,
  so normalizing changes nothing in a spelled line and its words are its tokens.

  What is proved:
    1. `words_spell`: the words of a spelled line are its tokens.
    2. `retained?_spell`: normalizing leaves a spelled line as it is.
-/

namespace Mainframe.Text

/-! ## Tokens -/

/-- Whether the character may stand in a token. -/
def isTokenChar (c : Char) : Bool := decide (33 ≤ c.toNat) && decide (c.toNat ≤ 126) && !c.isLower

/-- A token of a spelled line. -/
structure IsToken (tok : List Char) : Prop where
  nonempty : tok ≠ []
  allowed : ∀ c ∈ tok, isTokenChar c = true

instance (tok : List Char) : Decidable (IsToken tok) :=
  decidable_of_iff (tok ≠ [] ∧ tok.all isTokenChar = true)
    ⟨fun h => ⟨h.1, List.all_eq_true.1 h.2⟩, fun h => ⟨h.1, List.all_eq_true.2 h.2⟩⟩

/-- The tokens with one blank between each two. -/
def spell (toks : List (List Char)) : List Char := [' '].intercalate toks

theorem isBlank_of_isTokenChar {c : Char} (h : isTokenChar c = true) : isBlank c = false := by
  simp only [isTokenChar, Bool.and_eq_true, decide_eq_true_eq] at h
  simp only [isBlank, Bool.or_eq_false_iff, Bool.and_eq_false_iff, beq_eq_false_iff_ne,
    decide_eq_false_iff_not]
  omega

theorem upperChars_of_isTokenChar {c : Char} (h : isTokenChar c = true) : upperChars c = [c] := by
  simp only [isTokenChar, Bool.and_eq_true, decide_eq_true_eq, Bool.not_eq_true'] at h
  have hall : ∀ n < 128, (Char.ofNat n).isLower = false →
      (Char.ofNat n).toUpper = Char.ofNat n := by
    decide +kernel
  have hascii : c.toNat < 128 := by omega
  have hupper : c.toUpper = c :=
    of_ascii (p := fun c => c.isLower = false → c.toUpper = c) hall hascii h.2
  rw [upperChars_of_ascii c hascii, hupper]

theorem IsToken.not_blank {tok : List Char} (h : IsToken tok) :
    ∀ c ∈ tok, isBlank c = false := fun c hc => isBlank_of_isTokenChar (h.allowed c hc)

theorem IsToken.blank_not_mem {tok : List Char} (h : IsToken tok) : ' ' ∉ tok := by
  intro hmem
  cases h.not_blank ' ' hmem

theorem IsToken.append {tok tok' : List Char} (h : IsToken tok) (h' : IsToken tok') :
    IsToken (tok ++ tok') := by
  refine ⟨fun hnil => h.nonempty (List.append_eq_nil_iff.1 hnil).1, ?_⟩
  intro c hc
  rcases List.mem_append.1 hc with hc | hc
  · exact h.allowed c hc
  · exact h'.allowed c hc

theorem spell_singleton (tok : List Char) : spell [tok] = tok := by
  simp [spell]

theorem spell_cons_cons (tok next : List Char) (toks : List (List Char)) :
    spell (tok :: next :: toks) = tok ++ ' ' :: spell (next :: toks) := by
  simp [spell]

theorem mem_spell {c : Char} {toks : List (List Char)} (h : c ∈ spell toks) :
    c = ' ' ∨ ∃ tok ∈ toks, c ∈ tok := by
  induction toks with
  | nil => simp [spell] at h
  | cons tok toks ih =>
    cases toks with
    | nil =>
      rw [spell_singleton] at h
      exact .inr ⟨tok, List.mem_cons_self, h⟩
    | cons next toks =>
      rw [spell_cons_cons] at h
      rcases List.mem_append.1 h with h | h
      · exact .inr ⟨tok, List.mem_cons_self, h⟩
      · rcases List.mem_cons.1 h with h | h
        · exact .inl h
        · rcases ih h with h | ⟨t, ht, hc⟩
          · exact .inl h
          · exact .inr ⟨t, List.mem_cons_of_mem tok ht, hc⟩

theorem newline_not_mem_spell {toks : List (List Char)} (h : ∀ tok ∈ toks, IsToken tok) :
    '\n' ∉ spell toks := by
  intro hmem
  rcases mem_spell hmem with heq | ⟨tok, htok, hc⟩
  · cases heq
  · have hblank := (h tok htok).not_blank '\n' hc
    cases hblank

/-! ## Words of a spelled line -/

theorem words_append {tok rest : List Char} (hne : tok ≠ []) (htok : ∀ c ∈ tok, isBlank c = false)
    (hrest : ∀ c ∈ rest.head?, isBlank c = true) : words (tok ++ rest) = tok :: words rest := by
  apply runs_append hne
  · intro c hc
    rw [htok c hc, Bool.not_false]
  · intro c hc
    rw [hrest c hc, Bool.not_true]

theorem words_spell {toks : List (List Char)} (h : ∀ tok ∈ toks, IsToken tok) :
    words (spell toks) = toks := by
  induction toks with
  | nil => rfl
  | cons tok toks ih =>
    have htok := h tok List.mem_cons_self
    cases toks with
    | nil =>
      have hword : words (tok ++ []) = tok :: words [] :=
        words_append htok.nonempty htok.not_blank (by simp)
      rw [spell_singleton]
      rwa [List.append_nil] at hword
    | cons next toks =>
      rw [spell_cons_cons, words_append htok.nonempty htok.not_blank (by simp; decide)]
      congr 1
      exact ih (fun t ht => h t (List.mem_cons_of_mem tok ht))

/-! ## What normalizing leaves of a spelled line -/

theorem trimEnd_append {s t : List Char} (hne : t ≠ []) (ht : trimEnd t = t) :
    trimEnd (s ++ t) = s ++ t := by
  rw [trimEnd_append_of_ne_nil s (by rwa [ht]), ht]

theorem trimEnd_of_not_blank {s : List Char} (h : ∀ c ∈ s, isBlank c = false) : trimEnd s = s := by
  induction s with
  | nil => rfl
  | cons c s ih =>
    rw [trimEnd_cons, ih (fun d hd => h d (List.mem_cons_of_mem c hd)), h c List.mem_cons_self]
    simp

theorem spell_ne_nil {tok : List Char} (hne : tok ≠ []) (toks : List (List Char)) :
    spell (tok :: toks) ≠ [] := by
  cases toks with
  | nil => simpa [spell_singleton] using hne
  | cons next toks => simp [spell_cons_cons]

theorem trimEnd_spell {toks : List (List Char)} (h : ∀ tok ∈ toks, IsToken tok) :
    trimEnd (spell toks) = spell toks := by
  induction toks with
  | nil => rfl
  | cons tok toks ih =>
    have htok := h tok List.mem_cons_self
    cases toks with
    | nil =>
      rw [spell_singleton]
      exact trimEnd_of_not_blank htok.not_blank
    | cons next toks =>
      have hnext := h next (List.mem_cons_of_mem tok List.mem_cons_self)
      have hrest := ih (fun t ht => h t (List.mem_cons_of_mem tok ht))
      have hblank : trimEnd (' ' :: spell (next :: toks)) = ' ' :: spell (next :: toks) := by
        rw [← List.singleton_append]
        exact trimEnd_append (spell_ne_nil hnext.nonempty toks) hrest
      rw [spell_cons_cons]
      exact trimEnd_append (by simp) hblank

theorem uppercase_of_forall {s : List Char} (h : ∀ c ∈ s, upperChars c = [c]) :
    uppercase s = s := by
  induction s with
  | nil => rfl
  | cons c s ih =>
    rw [uppercase_cons, h c List.mem_cons_self, ih (fun d hd => h d (List.mem_cons_of_mem c hd)),
      List.singleton_append]

theorem uppercase_spell {toks : List (List Char)} (h : ∀ tok ∈ toks, IsToken tok) :
    uppercase (spell toks) = spell toks := by
  apply uppercase_of_forall
  intro c hc
  rcases mem_spell hc with rfl | ⟨tok, htok, hc⟩
  · rfl
  · exact upperChars_of_isTokenChar ((h tok htok).allowed c hc)

theorem spell_cons_char (c : Char) (tok : List Char) (toks : List (List Char)) :
    spell ((c :: tok) :: toks) = c :: spell (tok :: toks) := by
  cases toks with
  | nil => rw [spell_singleton, spell_singleton]
  | cons next toks => rw [spell_cons_cons, spell_cons_cons, List.cons_append]

end Mainframe.Text

namespace Mainframe.Cobol

open Mainframe.Text

/-- Nothing changes in a spelled line, as long as it does not start with an
asterisk or with a sequence area. -/
theorem retained?_spell {c : Char} {tok : List Char} {toks : List (List Char)}
    (h : ∀ t ∈ (c :: tok) :: toks, IsToken t) (hstar : c ≠ '*')
    (hseq : ((spell ((c :: tok) :: toks)).take 6).all Char.isDigit = false) :
    retained? (spell ((c :: tok) :: toks)) = some (spell ((c :: tok) :: toks)) := by
  have hc := (h (c :: tok) List.mem_cons_self).not_blank c List.mem_cons_self
  have hcomment : isComment (spell ((c :: tok) :: toks)) = false := by
    rw [isComment, spell_cons_char, trimStart_cons_of_not_blank hc]
    simpa using hstar
  have hdrop : dropSequenceArea (spell ((c :: tok) :: toks)) = spell ((c :: tok) :: toks) := by
    rw [dropSequenceArea, hseq, Bool.and_false]
    rfl
  rw [retained?, trimEnd_spell h, hcomment, hdrop, uppercase_spell h]
  rfl

end Mainframe.Cobol
