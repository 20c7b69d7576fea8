import Mainframe.Json.Printer
import Mainframe.Json.Reader

/-
  Written texts and written numbers, read back.

  The reader takes one character at a time, so each lemma says what state a
  written piece leaves behind. A text is followed through its escapes: between
  two characters of the text the reader holds what has been read and nothing
  is pending.

  What is proved:
    1. `run_escapeChar`: the written form of a character, whatever it is, is
       read as that character.
    2. `run_quoted_value` and `run_quoted_key`: a written text is read as that
       text, where a value stands and where a key stands.
    3. `numberOf_toDigits`: the digits of a natural number in range denote it.
-/

namespace Mainframe.Json

/-! ## Digits -/

theorem hexValue_hexDigit : ∀ n, n < 16 → hexValue (hexDigit n) = some n := by decide

theorem utf8Size_hexDigit : ∀ n, n < 16 → (hexDigit n).utf8Size = 1 := by decide

theorem digitValue_digitChar : ∀ n, n < 10 → digitValue n.digitChar = n := by decide

theorem digitChar_ne_zero : ∀ n, n < 10 → n ≠ 0 → n.digitChar ≠ '0' := by decide

theorem decimalValue_concat (digits : List Char) (c : Char) :
    decimalValue 0 (digits ++ [c]) = 10 * decimalValue 0 digits + digitValue c := by
  simp only [decimalValue, List.foldl_append, List.foldl_cons, List.foldl_nil]

theorem decimalValue_toDigits (n : Nat) : decimalValue 0 (Nat.toDigits 10 n) = n := by
  induction n using Nat.strongRecOn with
  | ind n ih =>
    by_cases hn : n < 10
    · rw [Nat.toDigits_of_lt_base hn]
      simpa [decimalValue] using digitValue_digitChar n hn
    · have hlast := digitValue_digitChar (n % 10) (Nat.mod_lt n (by omega))
      rw [Nat.toDigits_of_base_le (by omega) (by omega), decimalValue_concat,
        ih (n / 10) (by omega), hlast]
      omega

theorem isDigit_toDigits (n : Nat) : ∀ c ∈ Nat.toDigits 10 n, c.isDigit = true :=
  fun _ hc => Nat.isDigit_of_mem_toDigits (by omega) (by omega) hc

/-- The first digit of a positive number is not zero. -/
theorem toDigits_of_pos {n : Nat} (hn : 0 < n) :
    ∃ c digits, Nat.toDigits 10 n = c :: digits ∧ c ≠ '0' := by
  induction n using Nat.strongRecOn with
  | ind n ih =>
    by_cases hlt : n < 10
    · refine ⟨n.digitChar, [], Nat.toDigits_of_lt_base hlt, ?_⟩
      exact digitChar_ne_zero n hlt (by omega)
    · obtain ⟨c, digits, hd, hc⟩ := ih (n / 10) (by omega) (by omega)
      refine ⟨c, digits ++ [(n % 10).digitChar], ?_, hc⟩
      rw [Nat.toDigits_of_base_le (by omega) (by omega), hd, List.cons_append]

theorem numberOf_toDigits {n : Nat} (h : n ≤ maxNatural) :
    numberOf (Nat.toDigits 10 n) = some (.natural n) := by
  have hall : (Nat.toDigits 10 n).all Char.isDigit = true :=
    List.all_eq_true.2 (isDigit_toDigits n)
  have hv := decimalValue_toDigits n
  simp [numberOf, hall, hv, h]

/-! ## Texts -/

/-- A text of which the characters have been read, last first, with nothing
pending. -/
def TextState.holding (chars : List Char) : TextState := ⟨chars, false, none, .none⟩

variable (policy : Policy) (role : Role) (frames : List Frame)

theorem step_text_more {t next : TextState} {c : Char} (h : textStep t c = .more next)
    (hb : next.isBroken = false) :
    step policy (.text role t frames) c = .text role next frames := by
  simp [step, stepText, h, hb]

theorem textStep_holding {chars : List Char} {c : Char} (hq : c ≠ '"') (hs : c ≠ '\\')
    (hc : ¬c.toNat < 32) : textStep (.holding chars) c = .more (.holding (c :: chars)) := by
  simp [textStep, TextState.holding, TextState.push, TextState.settled, hq, hs, hc]

/-- A backslash and a letter are read as the character that they stand for. -/
theorem run_simpleEscape {letter c : Char} (hu : letter ≠ 'u')
    (hl : simpleEscape letter = some c) (chars : List Char) :
    run policy (.text role (.holding chars) frames) ['\\', letter] =
      .text role (.holding (c :: chars)) frames := by
  have h₁ : textStep (.holding chars) '\\' = .more ⟨chars, false, none, .started⟩ := rfl
  have h₂ : textStep ⟨chars, false, none, .started⟩ letter = .more (.holding (c :: chars)) := by
    simp [textStep, hu, hl, TextState.push, TextState.settled, TextState.holding]
  rw [run_cons, step_text_more policy role frames h₁ rfl, run_cons,
    step_text_more policy role frames h₂ rfl, run_nil]

/-- Four hexadecimal digits are read as the control character that they number. -/
theorem run_controlEscape {n : Nat} (hn : n < 32) (chars : List Char) :
    run policy (.text role (.holding chars) frames)
        ['\\', 'u', '0', '0', hexDigit (n / 16), hexDigit (n % 16)] =
      .text role (.holding (Char.ofNat n :: chars)) frames := by
  have hhi := hexValue_hexDigit (n / 16) (by omega)
  have hlo := hexValue_hexDigit (n % 16) (by omega)
  have shi := utf8Size_hexDigit (n / 16) (by omega)
  have slo := utf8Size_hexDigit (n % 16) (by omega)
  have h0 : hexValue '0' = some 0 := rfl
  have s0 : ('0' : Char).utf8Size = 1 := rfl
  -- the digits number a control character, so no surrogate is begun
  have hunit : hexUnit [hexDigit (n % 16), hexDigit (n / 16), '0', '0'] = some n := by
    simp only [hexUnit, h0, hhi, hlo, Option.bind_eq_bind, Option.bind_some, Option.some.injEq]
    omega
  have hfirst : isFirstSurrogate n = false := by simp [isFirstSurrogate]; omega
  have hsecond : isSecondSurrogate n = false := by simp [isSecondSurrogate]; omega
  -- one step for each character, from the backslash to the last digit
  have h₁ : textStep (.holding chars) '\\' = .more ⟨chars, false, none, .started⟩ := rfl
  have h₂ : textStep ⟨chars, false, none, .started⟩ 'u' =
      .more ⟨chars, false, none, .hex []⟩ := rfl
  have h₃ : textStep ⟨chars, false, none, .hex []⟩ '0' =
      .more ⟨chars, false, none, .hex ['0']⟩ := rfl
  have h₄ : textStep ⟨chars, false, none, .hex ['0']⟩ '0' =
      .more ⟨chars, false, none, .hex ['0', '0']⟩ := rfl
  have h₅ : textStep ⟨chars, false, none, .hex ['0', '0']⟩ (hexDigit (n / 16)) =
      .more ⟨chars, false, none, .hex [hexDigit (n / 16), '0', '0']⟩ := by
    simp [textStep, byteCount, shi, s0]
  have h₆ : textStep ⟨chars, false, none, .hex [hexDigit (n / 16), '0', '0']⟩
      (hexDigit (n % 16)) = .more (.holding (Char.ofNat n :: chars)) := by
    simp [textStep, byteCount, shi, slo, s0, hunit, TextState.pushUnit, hfirst, hsecond,
      TextState.holding]
  rw [run_cons, step_text_more policy role frames h₁ rfl, run_cons,
    step_text_more policy role frames h₂ rfl, run_cons,
    step_text_more policy role frames h₃ rfl, run_cons,
    step_text_more policy role frames h₄ rfl, run_cons,
    step_text_more policy role frames h₅ rfl, run_cons,
    step_text_more policy role frames h₆ rfl, run_nil]

/-- The three forms in which a character is written. -/
theorem escapeChar_cases (c : Char) :
    (∃ letter, escapeChar c = ['\\', letter] ∧ letter ≠ 'u' ∧ simpleEscape letter = some c) ∨
    (c.toNat < 32 ∧ escapeChar c =
      ['\\', 'u', '0', '0', hexDigit (c.toNat / 16), hexDigit (c.toNat % 16)]) ∨
    (escapeChar c = [c] ∧ c ≠ '"' ∧ c ≠ '\\' ∧ ¬c.toNat < 32) := by
  unfold escapeChar
  -- seven characters have a letter, so the first seven tests lead to the first form
  iterate 7
    split
    next h => exact .inl ⟨_, rfl, by decide, by rw [h]; rfl⟩
  split
  next h => exact .inr (.inl ⟨h, rfl⟩)
  next hq hs _ _ _ _ _ hc => exact .inr (.inr ⟨rfl, hq, hs, hc⟩)

theorem run_escapeChar (c : Char) (chars : List Char) :
    run policy (.text role (.holding chars) frames) (escapeChar c) =
      .text role (.holding (c :: chars)) frames := by
  rcases escapeChar_cases c with ⟨letter, hform, hu, hl⟩ | ⟨hc, hform⟩ | ⟨hform, hq, hs, hc⟩
  · rw [hform]
    exact run_simpleEscape policy role frames hu hl chars
  · have hrun := run_controlEscape policy role frames hc chars
    rw [Char.ofNat_toNat] at hrun
    rw [hform]
    exact hrun
  · rw [hform, run_cons, step_text_more policy role frames (textStep_holding hq hs hc) rfl,
      run_nil]

theorem run_escapeChars (s chars : List Char) :
    run policy (.text role (.holding chars) frames) (s.flatMap escapeChar) =
      .text role (.holding (s.reverse ++ chars)) frames := by
  induction s generalizing chars with
  | nil => rfl
  | cons c s ih =>
    rw [List.flatMap_cons, run_append, run_escapeChar, ih, List.reverse_cons, List.append_assoc,
      List.singleton_append]

theorem result_holding (s : String) :
    (TextState.holding (s.toList.reverse ++ [])).result = some s := by
  simp [TextState.result, TextState.holding]

/-- The rest of a written text behind its first quotation mark, where a value
stands. -/
theorem run_quoted_value (s : String) :
    run policy (.text .value .start frames) (s.toList.flatMap escapeChar ++ ['"']) =
      deliver (.string s) frames := by
  have hdone : textStep (.holding (s.toList.reverse ++ [])) '"' =
      .done (.holding (s.toList.reverse ++ [])) := rfl
  have hstart : TextState.start = .holding [] := rfl
  rw [run_append, hstart, run_escapeChars, run_cons, run_nil]
  simp only [step, stepText, hdone, result_holding]
  simp [TextState.holding, deliverScalar]

/-- The rest of a written text behind its first quotation mark, where a key
stands. -/
theorem run_quoted_key (before : Members) (s : String) :
    run policy (.text (.key before) .start frames) (s.toList.flatMap escapeChar ++ ['"']) =
      .colon before (some s) frames := by
  have hdone : textStep (.holding (s.toList.reverse ++ [])) '"' =
      .done (.holding (s.toList.reverse ++ [])) := rfl
  have hstart : TextState.start = .holding [] := rfl
  rw [run_append, hstart, run_escapeChars, run_cons, run_nil]
  simp only [step, stepText, hdone, result_holding]
  simp [TextState.holding]

end Mainframe.Json
