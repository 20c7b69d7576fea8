import Mainframe.Proofs.PhraseFields
import Mainframe.Proofs.PhrasePlaces

/-
  Where a field begins and where it ends.

  A field begins behind the blanks in front of it, unless nothing but blanks
  stands between the keyword and the rest of the phrase: then a blank is given
  back, and it is the field. A field ends where the rest of the phrase fits for
  the first time behind its first character, so its first character may be what
  the rest opens with, and no later one is.

  What is proved:
    1. `spaced_split` and `spaced_of_gap`: a field behind a gap, and the field
       that is read if the gap is passed over as a whole.
    2. `not_infix_tail`: what ends a field does not stand behind its first
       character.
    3. `isSome_field`: a field is found if the rest of the phrase fits anywhere
       behind the first character.
    4. `spaced_opensWithout`: a field that may go on to the end of the text
       opens with no blank, if the text ends with none.
    5. `findWord?_tail` and its kin: what a phrase finds is found at the end of
       the text, and its fields are parts of the text.
-/

namespace Mainframe.Text

variable {α : Type}

/-! ## In front of a field -/

theorem padded_split {rest : List Char → Option α} {s : List Char} {f : List Char × α}
    (h : padded rest s = some f) :
    ∃ blanks here, (∀ c ∈ blanks, isBlank c = true) ∧ s = blanks ++ here ∧
      field rest here = some f := by
  induction s with
  | nil => cases h
  | cons c s ih =>
    rw [padded] at h
    split at h
    next hc =>
      split at h
      next found hfound =>
        cases h
        obtain ⟨blanks, here, hblanks, rfl, hhere⟩ := ih hfound
        exact ⟨c :: blanks, here, List.forall_mem_cons.2 ⟨hc, hblanks⟩, rfl, hhere⟩
      next =>
        -- the blank itself is the field
        obtain ⟨a, ha, rfl⟩ := Option.map_eq_some_iff.1 h
        refine ⟨[], c :: s, by simp, rfl, ?_⟩
        rw [field, ha]
    next => exact ⟨[], c :: s, by simp, rfl, h⟩

/-- A field behind a gap. The field opens with a blank if the gap gave one
back. -/
theorem spaced_split {rest : List Char → Option α} {s : List Char} {f : List Char × α}
    (h : spaced rest s = some f) :
    ∃ gap here, IsGap gap ∧ s = gap ++ here ∧ field rest here = some f := by
  cases s with
  | nil => cases h
  | cons c s =>
    rw [spaced] at h
    split at h
    next hc =>
      obtain ⟨blanks, here, hblanks, rfl, hhere⟩ := padded_split h
      exact ⟨c :: blanks, here,
        ⟨List.cons_ne_nil _ _, List.forall_mem_cons.2 ⟨hc, hblanks⟩⟩, rfl, hhere⟩
    next => cases h

theorem padded_of_blanks {rest : List Char → Option α} {blanks here : List Char}
    {f : List Char × α} (hblanks : ∀ c ∈ blanks, isBlank c = true)
    (hhere : OpensWithout isBlank here) (hf : field rest here = some f) :
    padded rest (blanks ++ here) = some f := by
  induction blanks with
  | nil => rw [List.nil_append, padded_of_not_blank hhere, hf]
  | cons c blanks ih =>
    obtain ⟨hc, hothers⟩ := List.forall_mem_cons.1 hblanks
    rw [List.cons_append, padded, if_pos hc, ih hothers]

/-- The field behind a gap that is passed over as a whole. -/
theorem spaced_of_gap {rest : List Char → Option α} {gap here : List Char} {f : List Char × α}
    (hgap : IsGap gap) (hhere : OpensWithout isBlank here) (hf : field rest here = some f) :
    spaced rest (gap ++ here) = some f := by
  obtain ⟨hne, hblank⟩ := hgap
  obtain ⟨c, blanks, rfl⟩ := List.exists_cons_of_ne_nil hne
  obtain ⟨hc, hblanks⟩ := List.forall_mem_cons.1 hblank
  rw [List.cons_append, spaced, if_pos hc, padded_of_blanks hblanks hhere hf]

/-! ## The end of a field -/

/-- A word does not stand behind the first character of a field, if the rest of
the phrase fits wherever the word stands. -/
theorem not_infix_tail {rest : List Char → Option α} {word s found : List Char} {a : α}
    (hne : word ≠ []) (hrest : ∀ t, rest (word ++ t) ≠ none)
    (h : field rest s = some (found, a)) : ¬ word <:+: found.tail := by
  rintro ⟨front, back, hinside⟩
  obtain ⟨tail, -, hfound, -, hearly⟩ := field_eq_some_iff.1 h
  obtain ⟨c, others, rfl⟩ := List.exists_cons_of_ne_nil hfound
  have hsplit : c :: others = (c :: front) ++ (word ++ back) := by
    rw [List.cons_append, ← List.append_assoc, hinside, List.tail_cons]
  have hnone := hearly _ _ hsplit (List.cons_ne_nil _ _) (List.append_ne_nil_of_left_ne_nil hne _)
  rw [List.append_assoc] at hnone
  exact hrest _ hnone

/-- A full stop does not stand behind the first character of a field, if the
rest of the phrase fits wherever one stands. -/
theorem stop_not_mem_tail {rest : List Char → Option α} {s found : List Char} {a : α}
    (hrest : ∀ t, rest ('.' :: t) ≠ none) (h : field rest s = some (found, a)) :
    '.' ∉ found.tail := by
  intro hmem
  obtain ⟨front, back, hinside⟩ := List.append_of_mem hmem
  have hinfix : ['.'] <:+: found.tail :=
    ⟨front, back, by rw [hinside, List.append_assoc, List.singleton_append]⟩
  exact not_infix_tail (List.cons_ne_nil _ _) hrest h hinfix

/-- A field is found if the rest of the phrase fits somewhere behind the first
character. -/
theorem isSome_field {rest : List Char → Option α} {front tail : List Char} (hne : front ≠ [])
    (hrest : (rest tail).isSome) : (field rest (front ++ tail)).isSome := by
  induction front with
  | nil => exact absurd rfl hne
  | cons c front ih =>
    rw [List.cons_append, field]
    split
    next => rfl
    next hnone =>
      rw [Option.isSome_map]
      apply ih
      rintro rfl
      rw [List.nil_append] at hnone
      rw [hnone] at hrest
      cases hrest

theorem atStop_eq_some_iff {s : List Char} : atStop s = some () ↔ ∃ rest, s = '.' :: rest := by
  cases s with
  | nil => simp [atStop]
  | cons c s =>
    by_cases hc : c = '.'
    · simp [atStop, hc]
    · simp [atStop_cons hc, hc]

theorem isSome_field_stop {s : List Char} (h : '.' ∈ s.tail) : (field atStop s).isSome := by
  obtain ⟨front, back, htail⟩ := List.append_of_mem h
  cases s with
  | nil => cases h
  | cons c s =>
    rw [List.tail_cons] at htail
    rw [htail, ← List.cons_append]
    exact isSome_field (List.cons_ne_nil _ _) rfl

/-! ## Fields up to the end of the text -/

/-- The text ends with no character of the class. -/
def EndsWithout (p : Char → Bool) (s : List Char) : Prop := ∀ c ∈ s.getLast?, p c = false

theorem EndsWithout.of_suffix {p : Char → Bool} {tail s : List Char} (h : EndsWithout p s)
    (hsuffix : tail <:+ s) : EndsWithout p tail := by
  obtain ⟨front, rfl⟩ := hsuffix
  intro c hc
  apply h
  rw [List.getLast?_append, Option.mem_def.1 hc, Option.some_or]
  rfl

theorem isSome_padded {rest : List Char → Option α} (hend : (rest []).isSome) {s : List Char}
    (hne : s ≠ []) : (padded rest s).isSome := by
  induction s with
  | nil => exact absurd rfl hne
  | cons c s ih =>
    rw [padded]
    split
    next =>
      split
      next => rfl
      next hnone =>
        -- nothing is padded behind the last blank, which is the field
        cases s with
        | nil => rwa [Option.isSome_map]
        | cons d s =>
          have hsome := ih (List.cons_ne_nil d s)
          rw [hnone] at hsome
          cases hsome
    next =>
      have hfield : (field rest ((c :: s) ++ [])).isSome := isSome_field hne hend
      rwa [List.append_nil] at hfield

theorem opensWithout_of_field {rest : List Char → Option α} {s found : List Char} {a : α}
    {p : Char → Bool} (hs : OpensWithout p s) (h : field rest s = some (found, a)) :
    OpensWithout p found := by
  obtain ⟨tail, rfl, hne, -⟩ := field_eq_some_iff.1 h
  obtain ⟨c, others, rfl⟩ := List.exists_cons_of_ne_nil hne
  exact hs

theorem padded_opensWithout {rest : List Char → Option α} (hend : (rest []).isSome)
    {s found : List Char} {a : α} (hlast : EndsWithout isBlank s)
    (h : padded rest s = some (found, a)) : OpensWithout isBlank found := by
  induction s with
  | nil => cases h
  | cons c s ih =>
    rw [padded] at h
    split at h
    next hc =>
      -- a blank in front of more is passed over, and it is not the last character
      cases s with
      | nil =>
        rw [hlast c rfl] at hc
        cases hc
      | cons d s =>
        obtain ⟨f, hf⟩ := Option.isSome_iff_exists.1 (isSome_padded hend (List.cons_ne_nil d s))
        rw [hf] at h
        exact ih (hlast.of_suffix (List.suffix_cons c _)) (hf.trans h)
    next hc =>
      apply opensWithout_of_field _ h
      intro d hd
      rw [← Option.some.inj hd]
      exact Bool.eq_false_iff.2 hc

/-- A field that may go on to the end of the text opens with no blank, if the
text ends with none. -/
theorem spaced_opensWithout {rest : List Char → Option α} (hend : (rest []).isSome)
    {s found : List Char} {a : α} (hlast : EndsWithout isBlank s)
    (h : spaced rest s = some (found, a)) : OpensWithout isBlank found := by
  cases s with
  | nil => cases h
  | cons c s =>
    rw [spaced] at h
    split at h
    next => exact padded_opensWithout hend (hlast.of_suffix (List.suffix_cons c s)) h
    next => cases h

/-! ## Parts of a text -/

/-- A part of the text: one character or more of it, in one piece. -/
def IsPart (part s : List Char) : Prop := part ≠ [] ∧ part <:+: s

theorem IsPart.of_suffix {part tail s : List Char} (h : IsPart part tail) (hsuffix : tail <:+ s) :
    IsPart part s :=
  ⟨h.1, h.2.trans hsuffix.isInfix⟩

/-- A field is a part of the text, and what is found behind it is found at the
end of the text. -/
theorem field_tail {rest : List Char → Option α} {here found : List Char} {a : α}
    (front : List Char) (h : field rest here = some (found, a)) :
    IsPart found (front ++ here) ∧ ∃ tail, tail <:+ front ++ here ∧ rest tail = some a := by
  obtain ⟨tail, rfl, hne, htail, -⟩ := field_eq_some_iff.1 h
  have hpart : IsPart found (found ++ tail) := ⟨hne, (List.prefix_append _ _).isInfix⟩
  have hhere : found ++ tail <:+ front ++ (found ++ tail) := List.suffix_append _ _
  exact ⟨hpart.of_suffix hhere, tail, (List.suffix_append _ _).trans hhere, htail⟩

theorem padded_tail {rest : List Char → Option α} {s found : List Char} {a : α}
    (h : padded rest s = some (found, a)) :
    IsPart found s ∧ ∃ tail, tail <:+ s ∧ rest tail = some a := by
  obtain ⟨blanks, here, -, rfl, hhere⟩ := padded_split h
  exact field_tail blanks hhere

theorem spaced_tail {rest : List Char → Option α} {s found : List Char} {a : α}
    (h : spaced rest s = some (found, a)) :
    IsPart found s ∧ ∃ tail, tail <:+ s ∧ rest tail = some a := by
  obtain ⟨gap, here, -, rfl, hhere⟩ := spaced_split h
  exact field_tail gap hhere

theorem gapWord_tail {word : List Char} {rest : List Char → Option α} {s : List Char} {a : α}
    (h : gapWord word rest s = some a) : ∃ tail, tail <:+ s ∧ rest tail = some a := by
  obtain ⟨here, hhere, hafter⟩ := Option.bind_eq_some_iff.1 h
  obtain ⟨tail, htail, ha⟩ := Option.bind_eq_some_iff.1 hafter
  obtain ⟨gap, -, rfl, -⟩ := gap?_eq_some_iff.1 hhere
  rw [after?_eq_some_iff.1 htail]
  exact ⟨tail, (List.suffix_append _ _).trans (List.suffix_append _ _), ha⟩

theorem findWord?_tail {word : List Char} (hne : word ≠ []) {rest : List Char → Option α}
    {s : List Char} {a : α} (h : findWord? word rest s = some a) :
    ∃ tail, tail <:+ s ∧ rest tail = some a := by
  obtain ⟨n, ⟨-, tail, htail, ha⟩, -⟩ := (findWord?_eq_some_iff hne).1 h
  exact ⟨tail, suffix_of_drop_eq htail, ha⟩

end Mainframe.Text
