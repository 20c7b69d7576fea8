import Mainframe.Text.Search
import Mainframe.Cobol.Sentence
import Mainframe.Proofs.QuietLine

/-
  Fields of a phrase that is spelled out.

  A field ends where the rest of its phrase fits for the first time. Nothing
  fits inside a token, since the rest of every phrase opens with a character
  that no token holds: a blank, a full stop or an equals sign.

  What is proved:
    1. `field_token`: a field that is one token.
    2. `spaced_token` and `padded_field`: the same with blanks in front.
    3. `gapWord_append`: the keyword that joins two fields.
    4. `gapName?_append`: a name in front of a full stop.
-/

namespace Mainframe.Text

variable {α : Type}

/-! ## Fields -/

theorem field_append {rest : List Char → Option α} {w tail : List Char} {a : α} (hne : w ≠ [])
    (hfit : rest tail = some a)
    (hearly : ∀ short long, w = short ++ long → short ≠ [] → long ≠ [] →
      rest (long ++ tail) = none) :
    field rest (w ++ tail) = some (w, a) :=
  field_eq_some_iff.2 ⟨tail, rfl, hne, hfit, hearly⟩

/-- A field is one token if the rest of the phrase fits behind it and opens with
none of its characters. -/
theorem field_token {rest : List Char → Option α} {w tail : List Char} {a : α} (hne : w ≠ [])
    (hfit : rest tail = some a) (hchars : ∀ c ∈ w, ∀ t, rest (c :: t) = none) :
    field rest (w ++ tail) = some (w, a) := by
  apply field_append hne hfit
  intro short long hw _ hlong
  obtain ⟨c, t, rfl⟩ := List.exists_cons_of_ne_nil hlong
  exact hchars c (by rw [hw]; simp) (t ++ tail)

theorem padded_of_not_blank {rest : List Char → Option α} {s : List Char}
    (h : ∀ c ∈ s.head?, isBlank c = false) : padded rest s = field rest s := by
  cases s with
  | nil => rfl
  | cons c s => simp [padded, h c rfl]

theorem spaced_field {rest : List Char → Option α} {s : List Char}
    (h : ∀ c ∈ s.head?, isBlank c = false) : spaced rest (' ' :: s) = field rest s := by
  rw [spaced, if_pos (by decide), padded_of_not_blank h]

/-- Blanks in front of a field are passed over. -/
theorem padded_field {rest : List Char → Option α} {s : List Char} {f : List Char × α}
    (h : ∀ c ∈ s.head?, isBlank c = false) (hf : field rest s = some f) :
    padded rest (' ' :: s) = some f := by
  rw [padded, if_pos (by decide), padded_of_not_blank h, hf]

theorem head?_append_not_blank {w : List Char} (hne : w ≠ []) (h : ∀ c ∈ w, isBlank c = false)
    (tail : List Char) : ∀ c ∈ (w ++ tail).head?, isBlank c = false := by
  obtain ⟨d, t, rfl⟩ := List.exists_cons_of_ne_nil hne
  intro c hc
  apply h c
  rw [List.cons_append, List.head?_cons, Option.mem_some] at hc
  rw [← hc]
  exact List.mem_cons_self

theorem spaced_token {rest : List Char → Option α} {w tail : List Char} {a : α} (hne : w ≠ [])
    (hblank : ∀ c ∈ w, isBlank c = false) (hfit : rest tail = some a)
    (hchars : ∀ c ∈ w, ∀ t, rest (c :: t) = none) :
    spaced rest (' ' :: (w ++ tail)) = some (w, a) := by
  rw [spaced_field (head?_append_not_blank hne hblank tail)]
  exact field_token hne hfit hchars

theorem trimStart_append {w : List Char} (hne : w ≠ []) (h : ∀ c ∈ w, isBlank c = false)
    (tail : List Char) : trimStart (w ++ tail) = w ++ tail := by
  obtain ⟨c, t, rfl⟩ := List.exists_cons_of_ne_nil hne
  exact trimStart_cons_of_not_blank (h c List.mem_cons_self) (t ++ tail)

theorem name?_append {allowed : Char → Bool} {w : List Char} {c : Char} (hne : w ≠ [])
    (hw : ∀ d ∈ w, allowed d = true) (hc : allowed c = false) (tail : List Char) :
    name? allowed (w ++ c :: tail) = some (w, c :: tail) := by
  have htake : (w ++ c :: tail).takeWhile allowed = w := by
    rw [List.takeWhile_append_of_pos hw, List.takeWhile_cons, hc]
    simp
  have hdrop : (w ++ c :: tail).dropWhile allowed = c :: tail := by
    rw [List.dropWhile_append_of_pos hw, List.dropWhile_cons, hc]
    rfl
  rw [name?, htake, hdrop]
  cases w with
  | nil => exact absurd rfl hne
  | cons d t => rfl

/-! ## What stands behind a field -/

theorem gap?_cons {s : List Char} (h : ∀ c ∈ s.head?, isBlank c = false) :
    gap? (' ' :: s) = some s := by
  rw [gap?, if_pos (by decide)]
  cases s with
  | nil => rfl
  | cons c s => rw [List.dropWhile_cons, h c rfl]; rfl

theorem gapWord_append {word : List Char} {rest : List Char → Option α} {tail : List Char}
    (hne : word ≠ []) (hword : ∀ c ∈ word, isBlank c = false) :
    gapWord word rest (' ' :: (word ++ tail)) = rest tail := by
  rw [gapWord, gap?_cons (head?_append_not_blank hne hword tail), Option.bind_some, after?_append,
    Option.bind_some]

theorem gapWord_cons {word : List Char} {rest : List Char → Option α} {c : Char}
    (hc : isBlank c = false) (s : List Char) : gapWord word rest (c :: s) = none := by
  simp [gapWord, gap?, hc]

/-- A gap and a token other than the keyword, where the rest needs a gap of its
own. -/
theorem gapWord_token {word tok more : List Char} {rest : List Char → Option α}
    (hrest : NeedsGap rest) (hword : ' ' ∉ word) (hnil : tok ≠ [])
    (htok : ∀ c ∈ tok, isBlank c = false) (hne : tok ≠ word) :
    gapWord word rest (' ' :: (tok ++ ' ' :: more)) = none := by
  have hgap : (after? word (tok ++ ' ' :: more)).bind gap? = none :=
    atWordStart_token hword htok hne
  rw [gapWord, gap?_cons (head?_append_not_blank hnil htok _), Option.bind_some]
  cases hafter : after? word (tok ++ ' ' :: more) with
  | none => rfl
  | some s =>
    rw [hafter] at hgap
    exact hrest s hgap

theorem atStop_cons {c : Char} (hc : c ≠ '.') (s : List Char) : atStop (c :: s) = none := by
  simp [atStop, hc]

/-- A field that a full stop ends. -/
theorem field_stop {w : List Char} (hne : w ≠ []) (hstop : '.' ∉ w) :
    field atStop (w ++ ['.']) = some (w, ()) := by
  have hfit : atStop ['.'] = some () := rfl
  apply field_token hne hfit
  intro c hc t
  apply atStop_cons
  rintro rfl
  exact hstop hc

theorem spaced_stop {w : List Char} (hne : w ≠ []) (hblank : ∀ c ∈ w, isBlank c = false)
    (hstop : '.' ∉ w) : spaced atStop (' ' :: (w ++ ['.'])) = some (w, ()) := by
  rw [spaced_field (head?_append_not_blank hne hblank ['.'])]
  exact field_stop hne hstop

/-- A field that goes on to the end of the line. -/
theorem spaced_end {w : List Char} (hne : w ≠ []) (hblank : ∀ c ∈ w, isBlank c = false) :
    spaced atEnd (' ' :: w) = some (w, ()) := by
  have h : spaced atEnd (' ' :: (w ++ [])) = some (w, ()) :=
    spaced_token hne hblank rfl (fun c _ t => rfl)
  rwa [List.append_nil] at h

/-! ## Words anywhere in the text -/

theorem find?_append {word tail : List Char} {rest : List Char → Option α} {a : α}
    (hne : word ≠ []) (h : rest tail = some a) (inWord : Bool) :
    leftmost (fun _ here => (after? word here).bind rest) inWord (word ++ tail) = some a := by
  obtain ⟨c, t, rfl⟩ := List.exists_cons_of_ne_nil hne
  have hhere : (after? (c :: t) (c :: (t ++ tail))).bind rest = some a := by
    rw [← List.cons_append, after?_append]
    exact h
  rw [List.cons_append, leftmost, hhere]

/-- A text that does not hold the first character of a word is passed over. -/
theorem find?_skip {c : Char} {word pre s : List Char} {rest : List Char → Option α} {a : α}
    (hpre : c ∉ pre)
    (h : ∀ inWord, leftmost (fun _ here => (after? (c :: word) here).bind rest) inWord s = some a) :
    find? (c :: word) rest (pre ++ s) = some a := by
  have hall : ∀ inWord,
      leftmost (fun _ here => (after? (c :: word) here).bind rest) inWord (pre ++ s) = some a := by
    induction pre with
    | nil => exact h
    | cons d pre ih =>
      intro inWord
      have hne : c ≠ d := fun heq => hpre (heq ▸ List.mem_cons_self)
      have hnone : (after? (c :: word) (d :: (pre ++ s))).bind rest = none := by
        simp [after?, hne]
      rw [List.cons_append, leftmost, hnone]
      exact ih (fun hm => hpre (List.mem_cons_of_mem d hm)) _
  exact hall false

/-- A field that goes on to the end of the line, as long as it does not hold the
word that would end it earlier. -/
theorem field_without {word s : List Char} (hne : s ≠ []) (h : contains word s = false) :
    field (either (atWord word) atEnd) s = some (s, ()) := by
  have hfield : field (either (atWord word) atEnd) (s ++ []) = some (s, ()) := by
    apply field_append hne
    · unfold either atWord
      cases after? word [] <;> rfl
    · -- a field that ended earlier would have the word behind it
      intro short long hs _ hlong
      obtain ⟨c, t, rfl⟩ := List.exists_cons_of_ne_nil hlong
      have hafter : after? word (c :: t) = none := by
        cases hafter : after? word (c :: t) with
        | none => rfl
        | some rest =>
          have hinfix : word <:+: s := ⟨short, rest, by
            rw [hs, after?_eq_some_iff.1 hafter, List.append_assoc]⟩
          rw [contains_iff.2 hinfix] at h
          cases h
      rw [List.append_nil, either, atWord, hafter]
      rfl
  rwa [List.append_nil] at hfield

end Mainframe.Text

namespace Mainframe.Cobol

open Mainframe.Text

theorem equals_append {α : Type} (rest : List Char → Option α) (s : List Char) :
    equals rest (' ' :: '=' :: s) = rest s := rfl

theorem equals_cons {α : Type} {rest : List Char → Option α} {c : Char} (hc : isBlank c = false)
    (hne : c ≠ '=') (s : List Char) : equals rest (c :: s) = none := by
  simp [equals, trimStart, hc, hne]

/-- A name behind a gap, up to a character that no name holds. -/
theorem gapName?_append {w : List Char} {c : Char} (hne : w ≠ [])
    (hname : ∀ d ∈ w, isNameChar d = true) (hblank : ∀ d ∈ w, isBlank d = false)
    (hc : isNameChar c = false) (tail : List Char) :
    gapName? (' ' :: (w ++ c :: tail)) = some w := by
  rw [gapName?, gap?_cons (head?_append_not_blank hne hblank _), Option.bind_some,
    name?_append hne hname hc]
  rfl

theorem needsGap_gapName? : NeedsGap gapName? := by
  intro s hs
  rw [gapName?, hs]
  rfl

end Mainframe.Cobol
