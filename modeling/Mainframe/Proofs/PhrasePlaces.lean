import Mathlib.Data.Nat.Find
import Mainframe.Text.Search

/-
  The places at which a phrase stands.

  A place in a text is the number of characters in front of it. Looking for a
  phrase from left to right finds it at the first place where it fits, so what
  is found can be said by places: it fits at one, and at none before it.

  What is proved:
    1. `leftmost_eq_some_iff`: what is found from left to right is found at the
       first place where anything is found.
    2. `leftmost_eq_first_iff` and `leftmost_eq_none_iff`: the same, by a
       relation that says what fits at a place.
    3. `findWord?_eq_some_iff`: the same for a keyword that stands apart from
       the word character before it.
    4. `gap?_bind_eq_some_iff` and `name?_eq_some_iff`: what a gap and a name
       behind it are.
-/

namespace Mainframe.Text

variable {α : Type}

/-! ## Places -/

/-- Whether a word character stands just before the place. -/
def wordBefore (inWord : Bool) (s : List Char) (n : Nat) : Bool :=
  ((s.take n).getLast?.map isWordChar).getD inWord

theorem wordBefore_cons_succ (inWord : Bool) (c : Char) (s : List Char) (n : Nat) :
    wordBefore inWord (c :: s) (n + 1) = wordBefore (isWordChar c) s n := by
  rw [wordBefore, List.take_succ_cons, List.getLast?_cons, wordBefore]
  cases (s.take n).getLast? <;> rfl

/-- What is found at the first place where anything is found. -/
theorem leftmost_eq_some_iff {accept : Bool → List Char → Option α} {inWord : Bool}
    {s : List Char} {a : α} :
    leftmost accept inWord s = some a ↔
      ∃ n ≤ s.length, accept (wordBefore inWord s n) (s.drop n) = some a ∧
        ∀ m < n, accept (wordBefore inWord s m) (s.drop m) = none := by
  induction s generalizing inWord with
  | nil =>
    constructor
    · intro h
      exact ⟨0, Nat.le_refl 0, h, fun m hm => absurd hm (Nat.not_lt_zero m)⟩
    · rintro ⟨n, hn, h, -⟩
      rw [Nat.le_zero.1 hn] at h
      exact h
  | cons c s ih =>
    have hzero : accept (wordBefore inWord (c :: s) 0) ((c :: s).drop 0) =
        accept inWord (c :: s) := rfl
    rw [leftmost]
    split
    next found hfound =>
      -- it fits at the front, which is before every other place
      constructor
      · rintro ⟨⟩
        exact ⟨0, Nat.zero_le _, hfound, fun m hm => absurd hm (Nat.not_lt_zero m)⟩
      · rintro ⟨n, -, h, hfirst⟩
        cases n with
        | zero => rw [← hfound, ← hzero, h]
        | succ n =>
          have hnone := hfirst 0 (Nat.succ_pos n)
          rw [hzero, hfound] at hnone
          cases hnone
    next hnone =>
      rw [ih]
      constructor
      · rintro ⟨n, hn, h, hfirst⟩
        refine ⟨n + 1, Nat.succ_le_succ hn, ?_, ?_⟩
        · rw [wordBefore_cons_succ, List.drop_succ_cons]
          exact h
        · intro m hm
          cases m with
          | zero => rw [hzero, hnone]
          | succ m =>
            rw [wordBefore_cons_succ, List.drop_succ_cons]
            exact hfirst m (Nat.lt_of_succ_lt_succ hm)
      · rintro ⟨n, hn, h, hfirst⟩
        cases n with
        | zero =>
          rw [hzero, hnone] at h
          cases h
        | succ n =>
          refine ⟨n, Nat.le_of_succ_le_succ hn, ?_, ?_⟩
          · rw [wordBefore_cons_succ, List.drop_succ_cons] at h
            exact h
          · intro m hm
            have hnext := hfirst (m + 1) (Nat.succ_lt_succ hm)
            rw [wordBefore_cons_succ, List.drop_succ_cons] at hnext
            exact hnext

/-- A word stands at no place behind the text. -/
theorem le_length_of_drop_eq {word tail s : List Char} {n : Nat} (hne : word ≠ [])
    (h : s.drop n = word ++ tail) : n ≤ s.length := by
  apply Nat.le_of_lt
  apply List.length_lt_of_drop_ne_nil
  rw [h]
  exact List.append_ne_nil_of_left_ne_nil hne tail

/-- What stands behind a word stands at the end of the text. -/
theorem suffix_of_drop_eq {word tail s : List Char} {n : Nat} (h : s.drop n = word ++ tail) :
    tail <:+ s := by
  have hdrop : tail <:+ s.drop n := by
    rw [h]
    exact List.suffix_append word tail
  exact hdrop.trans (List.drop_suffix n s)

/-- The character just before a place. -/
theorem mem_getLast?_take {s : List Char} {n : Nat} {c : Char} (h : s[n]? = some c) :
    c ∈ (s.take (n + 1)).getLast? := by
  rw [List.getLast?_take, if_neg (Nat.succ_ne_zero n), Nat.add_sub_cancel, h]
  rfl

/-- No word character stands just before the place. -/
def IsApart (s : List Char) (n : Nat) : Prop := ∀ c ∈ (s.take n).getLast?, isWordChar c = false

instance (s : List Char) (n : Nat) : Decidable (IsApart s n) := Option.decidableForallMem _

theorem wordBefore_eq_false_iff {s : List Char} {n : Nat} :
    wordBefore false s n = false ↔ IsApart s n := by
  rw [wordBefore, IsApart]
  cases (s.take n).getLast? <;> simp

section
variable {accept : Bool → List Char → Option α} {s : List Char} {fits : Nat → α → Prop}

/-- If `fits` says what is found at a place of the text, then what is found from
left to right fits at some place, and nothing fits at a place before it. -/
theorem leftmost_eq_first_iff
    (hfits : ∀ n a, accept (wordBefore false s n) (s.drop n) = some a ↔ fits n a)
    (hwithin : ∀ n a, fits n a → n ≤ s.length) {a : α} :
    leftmost accept false s = some a ↔ ∃ n, fits n a ∧ ∀ m < n, ∀ b, ¬ fits m b := by
  have hnone : ∀ n, accept (wordBefore false s n) (s.drop n) = none ↔ ∀ b, ¬ fits n b := by
    intro n
    simp only [Option.eq_none_iff_forall_ne_some, ne_eq, hfits]
  rw [leftmost_eq_some_iff]
  simp only [hfits, hnone]
  constructor
  · rintro ⟨n, -, hn, hfirst⟩
    exact ⟨n, hn, hfirst⟩
  · rintro ⟨n, hn, hfirst⟩
    exact ⟨n, hwithin n a hn, hn, hfirst⟩

theorem leftmost_eq_none_iff
    (hfits : ∀ n a, accept (wordBefore false s n) (s.drop n) = some a ↔ fits n a)
    (hwithin : ∀ n a, fits n a → n ≤ s.length) :
    leftmost accept false s = none ↔ ∀ n a, ¬ fits n a := by
  constructor
  · intro hnone n a hn
    -- where anything fits at all, there is a first place
    classical
    have hex : ∃ n a, fits n a := ⟨n, a, hn⟩
    obtain ⟨b, hb⟩ := Nat.find_spec hex
    have hsome := (leftmost_eq_first_iff hfits hwithin).2
      ⟨Nat.find hex, hb, fun m hm c hc => Nat.find_min hex hm ⟨c, hc⟩⟩
    rw [hnone] at hsome
    cases hsome
  · intro hnever
    rw [Option.eq_none_iff_forall_ne_some]
    intro a ha
    obtain ⟨n, hn, -⟩ := (leftmost_eq_first_iff hfits hwithin).1 ha
    exact hnever n a hn

end

/-- The word stands apart at the place, and the rest of the phrase finds `a`
behind it. -/
def FitsAt (word : List Char) (rest : List Char → Option α) (s : List Char) (n : Nat) (a : α) :
    Prop :=
  IsApart s n ∧ ∃ tail, s.drop n = word ++ tail ∧ rest tail = some a

theorem atPlace_eq_some_iff {word : List Char} {rest : List Char → Option α} {s : List Char}
    {n : Nat} {a : α} :
    (if wordBefore false s n then none else (after? word (s.drop n)).bind rest) = some a ↔
      FitsAt word rest s n a := by
  rw [FitsAt, ← wordBefore_eq_false_iff]
  cases wordBefore false s n with
  | true => simp
  | false => simp [Option.bind_eq_some_iff, after?_eq_some_iff]

/-- What is found behind a keyword is found at the first place where the keyword
stands apart and the rest of the phrase fits. -/
theorem findWord?_eq_some_iff {word : List Char} (hne : word ≠ []) {rest : List Char → Option α}
    {s : List Char} {a : α} :
    findWord? word rest s = some a ↔
      ∃ n, FitsAt word rest s n a ∧ ∀ m < n, ∀ b, ¬ FitsAt word rest s m b := by
  apply leftmost_eq_first_iff (fun n a => atPlace_eq_some_iff)
  rintro n a ⟨-, tail, hdrop, -⟩
  exact le_length_of_drop_eq hne hdrop

/-! ## Gaps and names -/

/-- The text is a gap: one blank or more, and nothing else. -/
def IsGap (s : List Char) : Prop := s ≠ [] ∧ ∀ c ∈ s, isBlank c = true

instance (s : List Char) : Decidable (IsGap s) :=
  @instDecidableAnd _ _ _ (List.decidableBAll _ s)

/-- The text opens with no character of the class. -/
def OpensWithout (p : Char → Bool) (s : List Char) : Prop := ∀ c ∈ s.head?, p c = false

instance (p : Char → Bool) (s : List Char) : Decidable (OpensWithout p s) :=
  Option.decidableForallMem _

theorem takeWhile_append_of_opensWithout {p : Char → Bool} {run rest : List Char}
    (hrun : ∀ c ∈ run, p c = true) (hrest : OpensWithout p rest) :
    (run ++ rest).takeWhile p = run ∧ (run ++ rest).dropWhile p = rest := by
  rw [List.takeWhile_append_of_pos hrun, List.dropWhile_append_of_pos hrun]
  cases rest with
  | nil => simp
  | cons c rest => simp [hrest c rfl]

theorem opensWithout_dropWhile (p : Char → Bool) (s : List Char) :
    OpensWithout p (s.dropWhile p) := by
  intro c hc
  have hstop := List.head?_dropWhile_not p s
  rw [Option.mem_def.1 hc] at hstop
  exact hstop

theorem gap?_eq_some_iff {s here : List Char} :
    gap? s = some here ↔ ∃ gap, IsGap gap ∧ s = gap ++ here ∧ OpensWithout isBlank here := by
  cases s with
  | nil =>
    constructor
    · intro h
      cases h
    · rintro ⟨gap, hgap, h, -⟩
      exact absurd (List.append_eq_nil_iff.1 h.symm).1 hgap.1
  | cons c s =>
    rw [gap?]
    constructor
    · intro h
      split at h
      next hc =>
        cases h
        refine ⟨c :: s.takeWhile isBlank, ⟨List.cons_ne_nil _ _, ?_⟩, ?_,
          opensWithout_dropWhile isBlank s⟩
        · intro d hd
          rcases List.mem_cons.1 hd with rfl | hd
          · exact hc
          · exact List.all_eq_true.1 List.all_takeWhile d hd
        · rw [List.cons_append, List.takeWhile_append_dropWhile]
      next => cases h
    · rintro ⟨gap, ⟨hne, hblank⟩, h, hhere⟩
      obtain ⟨d, gap, rfl⟩ := List.exists_cons_of_ne_nil hne
      rw [List.cons_append] at h
      obtain ⟨rfl, rfl⟩ := List.cons.inj h
      have hgap : ∀ d ∈ gap, isBlank d = true := fun d hd => hblank d (List.mem_cons_of_mem _ hd)
      rw [if_pos (hblank _ List.mem_cons_self), (takeWhile_append_of_opensWithout hgap hhere).2]

/-- What fits behind a gap, as long as it opens with no blank. -/
theorem gap?_bind_eq_some_iff {rest : List Char → Option α} {s : List Char} {a : α}
    (hrest : ∀ here b, rest here = some b → OpensWithout isBlank here) :
    (gap? s).bind rest = some a ↔
      ∃ gap here, IsGap gap ∧ s = gap ++ here ∧ rest here = some a := by
  simp only [Option.bind_eq_some_iff, gap?_eq_some_iff]
  constructor
  · rintro ⟨here, ⟨gap, hgap, hs, -⟩, ha⟩
    exact ⟨gap, here, hgap, hs, ha⟩
  · rintro ⟨gap, here, hgap, hs, ha⟩
    exact ⟨here, ⟨gap, hgap, hs, hrest here a ha⟩, ha⟩

/-- A name is the maximal run of allowed characters, if there is one. -/
theorem name?_eq_some_iff {allowed : Char → Bool} {s name rest : List Char} :
    name? allowed s = some (name, rest) ↔
      name ≠ [] ∧ (∀ c ∈ name, allowed c = true) ∧ s = name ++ rest ∧
        OpensWithout allowed rest := by
  have hcut : s.takeWhile allowed ++ s.dropWhile allowed = s := List.takeWhile_append_dropWhile
  constructor
  · intro h
    unfold name? at h
    split at h
    next => cases h
    next c run htake =>
      obtain ⟨rfl, rfl⟩ := Prod.mk.inj (Option.some.inj h)
      rw [← htake]
      refine ⟨by rw [htake]; exact List.cons_ne_nil c run, ?_, hcut.symm,
        opensWithout_dropWhile allowed s⟩
      exact List.all_eq_true.1 List.all_takeWhile
  · rintro ⟨hne, hname, rfl, hrest⟩
    obtain ⟨htake, hdrop⟩ := takeWhile_append_of_opensWithout hname hrest
    obtain ⟨c, run, rfl⟩ := List.exists_cons_of_ne_nil hne
    rw [name?, htake, hdrop]

end Mainframe.Text
