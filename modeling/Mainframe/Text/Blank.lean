/-
  Blank characters, and what is cut off or cut apart at them.

  A text is a list of characters. Blank is Unicode's White_Space property: the
  controls U+001C to U+001F, the zero-width space U+200B and the byte order
  mark U+FEFF are not blank, while U+0085, U+00A0 and U+3000 are.

  What is proved:
    1. `mem_blankCodes_of_isBlank`: the blank characters, one by one.
    2. `trimEnd_cons` and `runs_cons`: what one more character in front does
       to a trimmed text and to its runs.
    3. `trimEnd_append_blanks` and `trimEnd_append_of_ne_nil`: what is put behind
       a trimmed text.
    4. `runs_append`: a run in front of a text that does not go on with it.
-/

namespace Mainframe.Text

/-- Whether the character is blank. -/
def isBlank (c : Char) : Bool :=
  let n := c.toNat
  n == 0x20 || (0x09 ≤ n && n ≤ 0x0D) || n == 0x85 || n == 0xA0 || n == 0x1680
    || (0x2000 ≤ n && n ≤ 0x200A) || n == 0x2028 || n == 0x2029 || n == 0x202F
    || n == 0x205F || n == 0x3000

/-- The text without the blanks at its front. -/
def trimStart (s : List Char) : List Char := s.dropWhile isBlank

/-- The text without the blanks at its end. -/
def trimEnd (s : List Char) : List Char :=
  s.foldr (fun c rest => if rest.isEmpty && isBlank c then [] else c :: rest) []

/-- The text without the blanks at either end. -/
def trim (s : List Char) : List Char := trimEnd (trimStart s)

/-- Whether the text holds nothing but blanks. -/
def allBlank (s : List Char) : Bool := s.all isBlank

/-- One character in front of the runs of a text: it lengthens the first run
if the text goes on with that run, and is a run of its own otherwise. -/
def extendRuns (p : Char → Bool) (c : Char) : List Char → List (List Char) → List (List Char)
  | d :: _, run :: runs => if p d then (c :: run) :: runs else [c] :: run :: runs
  | _, runs => [c] :: runs

/-- The maximal runs of characters that satisfy `p`, from left to right. -/
def runs (p : Char → Bool) : List Char → List (List Char)
  | [] => []
  | c :: s => if p c then extendRuns p c s (runs p s) else runs p s

/-- The words of a text: its maximal runs of characters that are not blank. -/
def words (s : List Char) : List (List Char) := runs (fun c => !isBlank c) s

/-- The code points of the blank characters. -/
def blankCodes : List Nat :=
  [0x09, 0x0A, 0x0B, 0x0C, 0x0D, 0x20, 0x85, 0xA0, 0x1680, 0x2000, 0x2001, 0x2002, 0x2003,
    0x2004, 0x2005, 0x2006, 0x2007, 0x2008, 0x2009, 0x200A, 0x2028, 0x2029, 0x202F, 0x205F,
    0x3000]

theorem mem_blankCodes_of_isBlank {c : Char} (h : isBlank c = true) : c.toNat ∈ blankCodes := by
  simp only [isBlank, Bool.or_eq_true, Bool.and_eq_true, beq_iff_eq, decide_eq_true_eq] at h
  simp only [blankCodes, List.mem_cons, List.not_mem_nil]
  omega

@[simp] theorem trimEnd_nil : trimEnd [] = [] := rfl

theorem trimEnd_cons (c : Char) (s : List Char) :
    trimEnd (c :: s) =
      if (trimEnd s).isEmpty && isBlank c then [] else c :: trimEnd s := rfl

theorem trimStart_cons_of_not_blank {c : Char} (h : isBlank c = false) (s : List Char) :
    trimStart (c :: s) = c :: s := by
  rw [trimStart, List.dropWhile_cons, h]
  rfl

theorem trimEnd_cons_of_not_blank {c : Char} (h : isBlank c = false) (s : List Char) :
    trimEnd (c :: s) = c :: trimEnd s := by
  rw [trimEnd_cons, h, Bool.and_false]
  rfl

theorem trim_cons_of_not_blank {c : Char} (h : isBlank c = false) (s : List Char) :
    trim (c :: s) = c :: trimEnd s := by
  rw [trim, trimStart_cons_of_not_blank h, trimEnd_cons_of_not_blank h]

theorem trimEnd_of_blank {s : List Char} (h : ∀ c ∈ s, isBlank c = true) : trimEnd s = [] := by
  induction s with
  | nil => rfl
  | cons c s ih =>
    rw [trimEnd_cons, ih (fun d hd => h d (List.mem_cons_of_mem c hd)), h c List.mem_cons_self]
    rfl

theorem trimEnd_append_blanks (s : List Char) {blanks : List Char}
    (h : ∀ c ∈ blanks, isBlank c = true) : trimEnd (s ++ blanks) = trimEnd s := by
  induction s with
  | nil => exact trimEnd_of_blank h
  | cons c s ih => rw [List.cons_append, trimEnd_cons, ih, trimEnd_cons]

/-- In front of text, nothing is trimmed at the end. -/
theorem trimEnd_append_of_ne_nil (s : List Char) {t : List Char} (h : trimEnd t ≠ []) :
    trimEnd (s ++ t) = s ++ trimEnd t := by
  induction s with
  | nil => rfl
  | cons c s ih =>
    have hne : (s ++ trimEnd t).isEmpty = false := by simp [h]
    rw [List.cons_append, trimEnd_cons, ih, hne]
    rfl

@[simp] theorem runs_nil (p : Char → Bool) : runs p [] = [] := rfl

theorem runs_cons (p : Char → Bool) (c : Char) (s : List Char) :
    runs p (c :: s) = if p c then extendRuns p c s (runs p s) else runs p s := rfl

/-- A run in front of a text that does not go on with it. -/
theorem runs_append {p : Char → Bool} {run rest : List Char} (hne : run ≠ [])
    (hrun : ∀ c ∈ run, p c = true) (hrest : ∀ c ∈ rest.head?, p c = false) :
    runs p (run ++ rest) = run :: runs p rest := by
  induction run with
  | nil => exact absurd rfl hne
  | cons c run ih =>
    have hc := hrun c List.mem_cons_self
    rw [List.cons_append, runs_cons, if_pos hc]
    cases run with
    | nil =>
      -- the run ends here: what follows is outside the class, or nothing does
      rw [List.nil_append]
      cases rest with
      | nil => rfl
      | cons d rest =>
        have hd := hrest d rfl
        rw [runs_cons, if_neg (by simp [hd])]
        cases runs p rest <;> simp [extendRuns, hd]
    | cons d run =>
      have hd := hrun d (List.mem_cons_of_mem c List.mem_cons_self)
      have hstep := ih (by simp) (fun e he => hrun e (List.mem_cons_of_mem c he))
      rw [hstep]
      simp [extendRuns, hd]

end Mainframe.Text
