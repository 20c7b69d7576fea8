import Mainframe.Cobol.Extraction

/-
  The lines of a normalized text.

  Normalizing joins the retained lines, and the outline is taken from the lines
  into which the result is cut again. A retained line holds no line feed, since
  no other character becomes one in upper case, so the lines come back as they
  were. Only a source without any retained line differs: its normalized text
  is one empty line, on which no rule finds anything.

  What is proved:
    1. `splitLines_joinLines`: lines that hold no line feed survive being
       joined and cut.
    2. `contains_joinLines`: a word without a line feed stands in a text if and
       only if it stands on one of its lines.
    3. `splitLines_normalize`: the lines of the normalized text of a source.
    4. `collect_normalized`: what a rule finds there is what it finds on the
       retained lines.
-/

namespace Mainframe.Text

/-! ## Upper case -/

/-- Whatever becomes one character in upper case becomes no character in front
of the capital letters. -/
theorem upperRuns_targets : ∀ run ∈ upperRuns, 65 ≤ run.target := by decide +kernel

theorem upperExpansions_targets : ∀ e ∈ upperExpansions, ∀ n ∈ e.2, 65 ≤ n := by
  decide +kernel

theorem upperExpansions_ne_nil : ∀ e ∈ upperExpansions, e.2 ≠ [] := by decide +kernel

/-- A character other than the null character has one number only. The number
of no character at all stands for the null character. -/
theorem toNat_eq_of_ofNat {d : Char} {n : Nat} (hpos : 0 < d.toNat) (h : Char.ofNat n = d) :
    d.toNat = n := by
  by_cases hvalid : n.isValidChar
  · have hof : Char.ofNat n = Char.ofNatAux n hvalid := dif_pos hvalid
    exact (congrArg Char.toNat (hof.symm.trans h)).symm
  · have hof : Char.ofNat n = Char.ofNat 0 := dif_neg hvalid
    rw [← h, hof] at hpos
    exact absurd hpos (by decide)

theorem ofNat_ne_of_lt {d : Char} {n : Nat} (hpos : 0 < d.toNat) (hlt : d.toNat < n) :
    Char.ofNat n ≠ d := by
  intro heq
  have hnumber := toNat_eq_of_ofNat hpos heq
  omega

/-- What holds of the first 128 characters holds of every ASCII character. -/
theorem of_ascii {p : Char → Prop} (h : ∀ n < 128, p (Char.ofNat n)) {c : Char}
    (hc : c.toNat < 128) : p c := by
  have hp := h c.toNat hc
  rwa [Char.ofNat_toNat] at hp

theorem toUpper_eq_self_of_lt {c : Char} (hascii : c.toNat < 128) (h : c.toUpper.toNat < 65) :
    c.toUpper = c := by
  have hall : ∀ n < 128, (Char.ofNat n).toUpper.toNat < 65 →
      (Char.ofNat n).toUpper = Char.ofNat n := by decide +kernel
  exact of_ascii (p := fun c => c.toUpper.toNat < 65 → c.toUpper = c) hall hascii h

/-- A character in front of the capital letters, the null character apart, comes
from itself alone. -/
theorem eq_of_mem_upperChars {c d : Char} (hpos : 0 < d.toNat) (hlt : d.toNat < 65)
    (h : d ∈ upperChars c) : c = d := by
  -- ASCII, then the characters with an expansion, then those in a run, then all others
  unfold upperChars at h
  split at h
  next hascii =>
    obtain rfl := List.mem_singleton.1 h
    exact (toUpper_eq_self_of_lt hascii hlt).symm
  next =>
    unfold upperBeyondAscii at h
    split at h
    next e he =>
      obtain ⟨n, hn, heq⟩ := List.mem_map.1 h
      have htarget := upperExpansions_targets e (List.mem_of_find?_eq_some he) n hn
      exact absurd heq (ofNat_ne_of_lt hpos (by omega))
    next =>
      split at h
      next run hrun =>
        have htarget := upperRuns_targets run (List.mem_of_find?_eq_some hrun)
        exact absurd (List.mem_singleton.1 h).symm (ofNat_ne_of_lt hpos (by omega))
      next => exact (List.mem_singleton.1 h).symm

theorem newline_not_mem_upperChars {c : Char} (h : c ≠ '\n') : '\n' ∉ upperChars c :=
  fun hmem => h (eq_of_mem_upperChars (by decide) (by decide) hmem)

theorem upperChars_ne_nil (c : Char) : upperChars c ≠ [] := by
  unfold upperChars
  split
  next => exact List.cons_ne_nil _ _
  next =>
    unfold upperBeyondAscii
    split
    next e he =>
      exact fun hnil =>
        upperExpansions_ne_nil e (List.mem_of_find?_eq_some he) (List.map_eq_nil_iff.1 hnil)
    next => split <;> exact List.cons_ne_nil _ _

theorem newline_not_mem_uppercase {s : List Char} (h : '\n' ∉ s) : '\n' ∉ uppercase s := by
  intro hmem
  obtain ⟨c, hc, hup⟩ := List.mem_flatMap.1 hmem
  have hne : c ≠ '\n' := fun heq => h (heq ▸ hc)
  exact newline_not_mem_upperChars hne hup

/-! ## Joined lines -/

theorem joinLines_singleton (line : List Char) : joinLines [line] = line := by
  simp [joinLines]

theorem splitLines_joinLines {lines : List (List Char)} (hne : lines ≠ [])
    (h : ∀ line ∈ lines, '\n' ∉ line) : splitLines (joinLines lines) = lines := by
  induction lines with
  | nil => exact absurd rfl hne
  | cons line lines ih =>
    have hline := h line List.mem_cons_self
    cases lines with
    | nil => rw [joinLines_singleton, splitLines_of_not_mem hline]
    | cons next rest =>
      rw [joinLines_cons_cons, splitLines_append, splitLines_of_not_mem hline,
        ih (by simp) (fun l hl => h l (List.mem_cons_of_mem line hl)), List.singleton_append]

/-! ## Words on lines -/

/-- A word does not reach over a character that it does not hold. -/
theorem after?_append_separator {word : List Char} {separator : Char} (h : separator ∉ word)
    (s t : List Char) :
    after? word (s ++ separator :: t) =
      (after? word s).map (fun rest => rest ++ separator :: t) := by
  induction word generalizing s with
  | nil => rfl
  | cons w word ih =>
    have hw : w ≠ separator := fun heq => h (heq ▸ List.mem_cons_self)
    have hrest := ih (fun hm => h (List.mem_cons_of_mem w hm))
    cases s with
    | nil => simp [after?, hw]
    | cons c s =>
      by_cases hc : w = c
      · simpa [after?, hc] using hrest s
      · simp [after?, hc]

theorem startsWith_append_separator {word : List Char} {separator : Char} (h : separator ∉ word)
    (s t : List Char) : startsWith word (s ++ separator :: t) = startsWith word s := by
  rw [startsWith, after?_append_separator h, Option.isSome_map]
  rfl

theorem contains_nil (word : List Char) : contains word [] = startsWith word [] := by
  cases word <;> rfl

theorem contains_append_separator {word : List Char} {separator : Char} (h : separator ∉ word)
    (s t : List Char) :
    contains word (s ++ separator :: t) = (contains word s || contains word t) := by
  induction s with
  | nil =>
    have hstart := startsWith_append_separator h [] t
    rw [List.nil_append] at hstart ⊢
    show (startsWith word (separator :: t) || contains word t) = _
    rw [hstart, contains_nil]
  | cons c s ih =>
    have hstart := startsWith_append_separator h (c :: s) t
    rw [List.cons_append] at hstart ⊢
    show (startsWith word (c :: (s ++ separator :: t)) || contains word (s ++ separator :: t)) = _
    rw [hstart, ih, ← Bool.or_assoc]
    rfl

theorem contains_joinLines {word : List Char} (hne : word ≠ []) (h : '\n' ∉ word)
    (lines : List (List Char)) : contains word (joinLines lines) = lines.any (contains word) := by
  induction lines with
  | nil =>
    cases word with
    | nil => exact absurd rfl hne
    | cons w word => rfl
  | cons line lines ih =>
    cases lines with
    | nil => simp [joinLines_singleton]
    | cons next rest =>
      rw [joinLines_cons_cons, contains_append_separator h, ih]
      rfl

theorem mem_of_mem_trimEnd {c : Char} {s : List Char} (h : c ∈ trimEnd s) : c ∈ s := by
  induction s with
  | nil => exact h
  | cons d s ih =>
    rw [trimEnd_cons] at h
    split at h
    next => cases h
    next =>
      rcases List.mem_cons.1 h with rfl | h
      · exact List.mem_cons_self
      · exact List.mem_cons_of_mem d (ih h)

end Mainframe.Text

namespace Mainframe.Cobol

open Mainframe.Text

/-! ## Retained lines -/

theorem newline_not_mem_of_retained {line kept : List Char} (h : '\n' ∉ line)
    (hkept : retained? line = some kept) : '\n' ∉ kept := by
  have htrim : '\n' ∉ trimEnd line := fun hm => h (mem_of_mem_trimEnd hm)
  unfold retained? at hkept
  split at hkept
  next => cases hkept
  next =>
    rw [← Option.some.inj hkept]
    apply newline_not_mem_uppercase
    unfold dropSequenceArea
    split
    next => exact fun hm => htrim (List.mem_of_mem_drop hm)
    next => exact htrim

theorem newline_not_mem_retainedLines (s : List Char) : ∀ line ∈ retainedLines s, '\n' ∉ line := by
  intro kept hkept
  obtain ⟨line, hline, hr⟩ := List.mem_filterMap.1 hkept
  exact newline_not_mem_of_retained (newline_not_mem_splitLines s line hline) hr

/-- The lines of a normalized text. There is always one, if only an empty one. -/
theorem splitLines_normalize (source : String) :
    splitLines (normalize source).toList =
      if retainedLines source.toList = [] then [[]] else retainedLines source.toList := by
  rw [normalize, String.toList_ofList]
  split
  next h => rw [h]; rfl
  next h => exact splitLines_joinLines h (newline_not_mem_retainedLines source.toList)

/-- A rule that finds nothing on an empty line finds on a normalized text what
it finds on the retained lines. -/
theorem collect_normalized {α β : Type} (rule : List Char → Option α) (record : Nat → α → β)
    (hempty : rule [] = none) (before : Nat) (source : String) :
    collect rule record (numbered before (splitLines (normalize source).toList)) =
      collect rule record (numbered before (retainedLines source.toList)) := by
  rw [splitLines_normalize]
  split
  next h => simp [h, numbered, collect, hempty]
  next => rfl

end Mainframe.Cobol
