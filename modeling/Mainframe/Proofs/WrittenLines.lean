import Mainframe.Proofs.WrittenApart
import Mainframe.Text.Lines

/-
  The lines of a written value.

  A text is written without line feeds, since a line feed in it becomes an
  escape. So a line is broken only where the layout breaks it, and every line
  but the first begins with the blanks of its depth or with a closing bracket.
  Whatever the data says, it cannot begin a line.

  What is proved:
    1. `newline_not_mem_quote`: a written text stands on one line.
    2. `indented_write`: a line feed in a written value has a blank or a closing
       bracket behind it.
    3. `exists_head_of_mem_tail`: every line but the first begins with one of
       them.
-/

namespace Mainframe.Json

open Text (splitLines)

/-- A line inside a written value begins so. -/
def isIndent (c : Char) : Bool := c == ' ' || c == ']' || c == '\x7d'

/-- Every line feed has an indent behind it. -/
def Indented : List Char → Prop
  | [] => True
  | c :: s => (c = '\n' → ∃ d ∈ s.head?, isIndent d = true) ∧ Indented s

theorem indented_of_not_mem {s : List Char} (h : '\n' ∉ s) : Indented s := by
  induction s with
  | nil => trivial
  | cons c s ih =>
    refine ⟨fun hc => absurd (hc ▸ List.mem_cons_self) h, ih (fun hs => ?_)⟩
    exact h (List.mem_cons_of_mem c hs)

theorem Indented.append {s t : List Char} (hs : Indented s) (ht : Indented t) :
    Indented (s ++ t) := by
  induction s with
  | nil => exact ht
  | cons c s ih =>
    refine ⟨fun hc => ?_, ih hs.2⟩
    obtain ⟨d, hd, hindent⟩ := hs.1 hc
    have hhead : (s ++ t).head? = some d := by rw [List.head?_append, Option.mem_def.1 hd]; rfl
    exact ⟨d, hhead, hindent⟩

theorem Indented.cons {c : Char} {s : List Char} (hc : c ≠ '\n') (hs : Indented s) :
    Indented (c :: s) := ⟨fun heq => absurd heq hc, hs⟩

/-- Every line but the first begins with an indent. -/
theorem exists_head_of_mem_tail {s line : List Char} (h : Indented s)
    (hline : line ∈ (splitLines s).tail) : ∃ c ∈ line.head?, isIndent c = true := by
  induction s with
  | nil => cases hline
  | cons c s ih =>
    by_cases hc : c = '\n'
    · -- the line feed opens a line, and what follows it begins that line
      subst hc
      rw [Text.splitLines_cons_newline, List.tail_cons] at hline
      obtain ⟨d, hd, hindent⟩ := h.1 rfl
      cases s with
      | nil => cases hd
      | cons e s =>
        obtain rfl : e = d := Option.some.inj hd
        have hne : e ≠ '\n' := by
          rintro rfl
          cases hindent
        obtain ⟨first, rest, -, hsplit⟩ := Text.splitLines_cons_of_ne hne s
        rw [hsplit] at hline ih
        rcases List.mem_cons.1 hline with rfl | hrest
        · exact ⟨e, rfl, hindent⟩
        · exact ih h.2 hrest
    · obtain ⟨first, rest, hs, hsplit⟩ := Text.splitLines_cons_of_ne hc s
      rw [hsplit] at hline
      rw [hs] at ih
      exact ih h.2 hline

/-! ## Texts -/

theorem hexDigit_ne_newline : ∀ n, n < 16 → hexDigit n ≠ '\n' := by decide

theorem newline_not_mem_escapeChar (c : Char) : '\n' ∉ escapeChar c := by
  intro hmem
  rcases escapeChar_cases c with ⟨letter, hform, -, hletter⟩ | ⟨hc, hform⟩ | ⟨hform, -, -, hc⟩
  · rw [hform] at hmem
    obtain rfl : '\n' = letter := by simpa using hmem
    cases hletter
  · rw [hform] at hmem
    have hhigh := hexDigit_ne_newline (c.toNat / 16) (by omega)
    have hlow := hexDigit_ne_newline (c.toNat % 16) (by omega)
    simp [hhigh.symm, hlow.symm] at hmem
  · rw [hform, List.mem_singleton] at hmem
    subst hmem
    exact hc (by decide)

theorem newline_not_mem_quote (s : String) : '\n' ∉ quote s := by
  intro hmem
  simp only [quote, List.mem_cons, List.mem_append, List.mem_flatMap, List.not_mem_nil,
    or_false] at hmem
  rcases hmem with h | ⟨c, -, h⟩ | h
  · cases h
  · exact newline_not_mem_escapeChar c h
  · cases h

/-! ## Brackets -/

theorem indented_lineBreak (depth : Nat) : Indented (Layout.pretty.lineBreak (depth + 1)) := by
  refine ⟨fun _ => ⟨' ', ?_, rfl⟩, indented_of_not_mem (by simp [List.mem_replicate])⟩
  rw [Nat.mul_add, List.replicate_succ]
  rfl

theorem indented_lineBreak_closing (depth : Nat) {closing : Char} (h : isIndent closing = true) :
    Indented (Layout.pretty.lineBreak depth ++ [closing]) := by
  have hclosing : closing ≠ '\n' := by
    rintro rfl
    cases h
  cases depth with
  | zero => exact ⟨fun _ => ⟨closing, rfl, h⟩, .cons hclosing trivial⟩
  | succ depth => exact (indented_lineBreak depth).append (.cons hclosing trivial)

theorem indented_continued {depth : Nat} {parts : List (List Char)}
    (h : ∀ part ∈ parts, Indented part) : Indented (continued (depth + 1) parts) := by
  induction parts with
  | nil => trivial
  | cons part parts ih =>
    have hpart := (indented_lineBreak depth).append (h part List.mem_cons_self)
    have hparts := ih (fun p hp => h p (List.mem_cons_of_mem part hp))
    exact (Indented.cons (by decide) hpart).append hparts

theorem indented_bracketed {opening closing : Char} (hopening : opening ≠ '\n')
    (hclosing : isIndent closing = true) (depth : Nat) {parts : List (List Char)}
    (h : ∀ part ∈ parts, Indented part) : Indented (bracketed opening closing depth parts) := by
  have hend := indented_lineBreak_closing depth hclosing
  cases parts with
  | nil =>
    refine .cons hopening (.cons ?_ trivial)
    rintro rfl
    cases hclosing
  | cons part parts =>
    have hparts : Indented (continued (depth + 1) parts) :=
      indented_continued (fun p hp => h p (List.mem_cons_of_mem part hp))
    exact .cons hopening ((indented_lineBreak depth).append
      ((h part List.mem_cons_self).append (hparts.append hend)))

/-! ## Values -/

theorem indented_write {v : Json} (hv : Proper v) (depth : Nat) :
    Indented (write .pretty depth v) := by
  induction hv generalizing depth with
  | null => exact indented_of_not_mem (by simp [write])
  | bool b => cases b <;> exact indented_of_not_mem (by simp [write])
  | natural n =>
    refine indented_of_not_mem (fun hmem => ?_)
    exact absurd (isDigit_toDigits n '\n' hmem) (by decide)
  | string s => exact indented_of_not_mem (newline_not_mem_quote s)
  | array _ ih =>
    rw [write_array]
    refine indented_bracketed (by decide) rfl depth (fun part hpart => ?_)
    obtain ⟨item, hitem, rfl⟩ := List.mem_map.1 hpart
    exact ih item hitem (depth + 1)
  | object _ ih =>
    rw [write_object]
    refine indented_bracketed (by decide) rfl depth (fun part hpart => ?_)
    obtain ⟨m, hm, rfl⟩ := List.mem_map.1 hpart
    exact (indented_of_not_mem (newline_not_mem_quote m.1)).append
      ((indented_of_not_mem (by decide)).append (ih m hm (depth + 1)))

end Mainframe.Json
