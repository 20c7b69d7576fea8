/-
  Lines of a text, and texts inside a text.

  A text is cut at its line feeds and at nothing else, so it always has at
  least one line, and a line holds no line feed.

  What is proved:
    1. `joinLines_splitLines`: joining the lines of a text gives it back.
    2. `splitLines_append`: the lines of two texts with a line feed between
       them are the lines of the one followed by the lines of the other.
    3. `contains_iff`: `contains` is the sublist-in-one-piece relation.
-/

namespace Mainframe.Text

/-- A character in front of the first piece, or a separator that opens one. -/
def consPiece (separator c : Char) : List (List Char) → List (List Char)
  | [] => if c = separator then [[], []] else [[c]]
  | piece :: pieces =>
    if c = separator then [] :: piece :: pieces else (c :: piece) :: pieces

/-- The pieces of the text between its separators. -/
def pieces (separator : Char) (s : List Char) : List (List Char) :=
  s.foldr (consPiece separator) [[]]

/-- The lines of the text. -/
def splitLines (s : List Char) : List (List Char) := pieces '\n' s

/-- The line without a carriage return at its end. -/
def dropReturn (line : List Char) : List Char :=
  if line.getLast? = some '\r' then line.dropLast else line

/-- The pieces between line feeds as lines that end with them: a carriage return
in front of a line feed belongs to the line end, and nothing behind the last
line feed is no line. -/
def endedLines : List (List Char) → List (List Char)
  | [] => []
  | [last] => if last.isEmpty then [] else [last]
  | line :: next :: rest => dropReturn line :: endedLines (next :: rest)

/-- The lines of a text whose lines end with a line feed, with or without a
carriage return in front of it. -/
def textLines (s : List Char) : List (List Char) := endedLines (splitLines s)

/-- The lines with a line feed between each two. -/
def joinLines (lines : List (List Char)) : List Char := ['\n'].intercalate lines

/-- The lines with a line feed behind each one. -/
def unlines (lines : List String) : String := String.join (lines.map (fun l => l ++ "\n"))

/-- What stands behind the word, if the text starts with it. -/
def after? : List Char → List Char → Option (List Char)
  | [], s => some s
  | _ :: _, [] => none
  | w :: word, c :: s => if w = c then after? word s else none

/-- Whether the text starts with the word. -/
def startsWith (word s : List Char) : Bool := (after? word s).isSome

/-- Whether the word stands somewhere in the text. -/
def contains (word : List Char) : List Char → Bool
  | [] => word.isEmpty
  | c :: s => startsWith word (c :: s) || contains word s

theorem after?_eq_some_iff {word s rest : List Char} :
    after? word s = some rest ↔ s = word ++ rest := by
  induction word generalizing s with
  | nil => simp [after?, eq_comm]
  | cons w word ih =>
    cases s with
    | nil => simp [after?]
    | cons c s =>
      simp only [after?]
      split
      next h => subst h; simp [ih]
      next h => simp [Ne.symm h]

theorem after?_append (word rest : List Char) : after? word (word ++ rest) = some rest :=
  after?_eq_some_iff.2 rfl

theorem startsWith_iff {word s : List Char} : startsWith word s = true ↔ word <+: s := by
  simp only [startsWith, Option.isSome_iff_exists, after?_eq_some_iff]
  exact ⟨fun ⟨rest, h⟩ => ⟨rest, h.symm⟩, fun ⟨rest, h⟩ => ⟨rest, h.symm⟩⟩

theorem contains_iff {word s : List Char} : contains word s = true ↔ word <:+: s := by
  induction s with
  | nil => simp [contains]
  | cons c s ih =>
    simp only [contains, Bool.or_eq_true, startsWith_iff, ih, List.infix_cons_iff]

theorem pieces_ne_nil (separator : Char) (s : List Char) : pieces separator s ≠ [] := by
  cases s with
  | nil => simp [pieces]
  | cons c s =>
    simp only [pieces, List.foldr_cons]
    cases List.foldr (consPiece separator) [[]] s <;> simp only [consPiece] <;> split <;> simp

theorem pieces_cons_self (separator : Char) (s : List Char) :
    pieces separator (separator :: s) = [] :: pieces separator s := by
  have h := pieces_ne_nil separator s
  simp only [pieces, List.foldr_cons] at h ⊢
  cases hs : List.foldr (consPiece separator) [[]] s with
  | nil => exact absurd hs h
  | cons piece pieces => simp [consPiece]

theorem pieces_cons_of_ne {separator c : Char} (hc : c ≠ separator) (s : List Char) :
    ∃ piece rest, pieces separator s = piece :: rest ∧
      pieces separator (c :: s) = (c :: piece) :: rest := by
  have h := pieces_ne_nil separator s
  simp only [pieces, List.foldr_cons] at h ⊢
  cases hs : List.foldr (consPiece separator) [[]] s with
  | nil => exact absurd hs h
  | cons piece rest => exact ⟨piece, rest, rfl, by simp [consPiece, hc]⟩

theorem pieces_of_not_mem {separator : Char} {s : List Char} (h : separator ∉ s) :
    pieces separator s = [s] := by
  induction s with
  | nil => rfl
  | cons c s ih =>
    have hc : c ≠ separator := fun heq => h (heq ▸ List.mem_cons_self)
    obtain ⟨piece, rest, hs, hcs⟩ := pieces_cons_of_ne hc s
    rw [ih (fun hm => h (List.mem_cons_of_mem c hm))] at hs
    rw [hcs, ← (List.cons.inj hs).1, ← (List.cons.inj hs).2]

theorem splitLines_ne_nil (s : List Char) : splitLines s ≠ [] := pieces_ne_nil '\n' s

theorem splitLines_cons_newline (s : List Char) : splitLines ('\n' :: s) = [] :: splitLines s :=
  pieces_cons_self '\n' s

theorem splitLines_cons_of_ne {c : Char} (hc : c ≠ '\n') (s : List Char) :
    ∃ line lines, splitLines s = line :: lines ∧ splitLines (c :: s) = (c :: line) :: lines :=
  pieces_cons_of_ne hc s

theorem splitLines_of_not_mem {line : List Char} (h : '\n' ∉ line) : splitLines line = [line] :=
  pieces_of_not_mem h

theorem joinLines_cons_cons (line next : List Char) (lines : List (List Char)) :
    joinLines (line :: next :: lines) = line ++ '\n' :: joinLines (next :: lines) := by
  simp [joinLines]

theorem joinLines_splitLines (s : List Char) : joinLines (splitLines s) = s := by
  induction s with
  | nil => rfl
  | cons c s ih =>
    by_cases hc : c = '\n'
    · subst hc
      rw [splitLines_cons_newline]
      cases hs : splitLines s with
      | nil => exact absurd hs (splitLines_ne_nil s)
      | cons line lines => rw [joinLines_cons_cons, ← hs, ih, List.nil_append]
    · obtain ⟨line, lines, h, h'⟩ := splitLines_cons_of_ne hc s
      rw [h']
      rw [h] at ih
      cases lines with
      | nil => simpa [joinLines] using ih
      | cons next rest =>
        rw [joinLines_cons_cons] at ih ⊢
        rw [List.cons_append, ih]

theorem splitLines_append (s t : List Char) :
    splitLines (s ++ '\n' :: t) = splitLines s ++ splitLines t := by
  induction s with
  | nil => rw [List.nil_append, splitLines_cons_newline]; rfl
  | cons c s ih =>
    by_cases hc : c = '\n'
    · subst hc
      rw [List.cons_append, splitLines_cons_newline, ih, splitLines_cons_newline, List.cons_append]
    · obtain ⟨line, lines, h, h'⟩ := splitLines_cons_of_ne hc s
      obtain ⟨line', lines', g, g'⟩ := splitLines_cons_of_ne hc (s ++ '\n' :: t)
      rw [List.cons_append, g', h']
      rw [ih, h, List.cons_append] at g
      injection g with g₁ g₂
      rw [← g₁, ← g₂, List.cons_append]

theorem newline_not_mem_splitLines (s : List Char) : ∀ line ∈ splitLines s, '\n' ∉ line := by
  induction s with
  | nil => simp [splitLines, pieces]
  | cons c s ih =>
    by_cases hc : c = '\n'
    · subst hc
      rw [splitLines_cons_newline]
      simpa using ih
    · obtain ⟨line, lines, h, h'⟩ := splitLines_cons_of_ne hc s
      rw [h] at ih
      rw [h']
      intro l hl
      rcases List.mem_cons.1 hl with rfl | hl
      · have := ih line (List.mem_cons_self ..)
        simp [Ne.symm hc, this]
      · exact ih l (List.mem_cons_of_mem _ hl)

end Mainframe.Text
