import Mainframe.Text.Blank
import Mainframe.Text.Lines
import Mainframe.Text.WordChar

/-
  Phrases in a line.

  A phrase is looked for from left to right, and the first place where it fits
  wins. A phrase is made of keywords, gaps (runs of blanks), names (maximal
  runs of allowed characters) and fields. A field is the shortest text, of at
  least one character, behind which the rest of the phrase fits.

  The rest of a phrase is a function from the text that is left to what was
  found there, or `none` where the rest does not fit.

  What is proved:
    1. `field_eq_some_iff`: a field is the shortest text, of at least one
       character, with the rest of the phrase behind it.
-/

namespace Mainframe.Text

variable {α : Type}

/-- What `accept` finds at the first place, from the left, where it finds
anything; it is told whether a word character stands before the place. -/
def leftmost (accept : Bool → List Char → Option α) : Bool → List Char → Option α
  | inWord, [] => accept inWord []
  | inWord, c :: s =>
    match accept inWord (c :: s) with
    | some found => some found
    | none => leftmost accept (isWordChar c) s

/-- What `rest` finds behind the leftmost fitting occurrence of the word. -/
def find? (word : List Char) (rest : List Char → Option α) (s : List Char) : Option α :=
  leftmost (fun _ here => (after? word here).bind rest) false s

/-- What `rest` finds behind the leftmost fitting occurrence of the word that
no word character precedes. -/
def findWord? (word : List Char) (rest : List Char → Option α) (s : List Char) : Option α :=
  leftmost (fun inWord here => if inWord then none else (after? word here).bind rest) false s

/-- The maximal run of allowed characters at the front and what follows it, if
there is at least one. -/
def name? (allowed : Char → Bool) (s : List Char) : Option (List Char × List Char) :=
  match s.takeWhile allowed with
  | [] => none
  | c :: run => some (c :: run, s.dropWhile allowed)

/-- The text behind a gap of at least one blank. -/
def gap? : List Char → Option (List Char)
  | [] => none
  | c :: s => if isBlank c then some (s.dropWhile isBlank) else none

/-- The shortest field that has the rest of the phrase behind it, with what
the rest found. -/
def field (rest : List Char → Option α) : List Char → Option (List Char × α)
  | [] => none
  | c :: s =>
    match rest s with
    | some found => some ([c], found)
    | none => (field rest s).map (fun f => (c :: f.1, f.2))

/-- A field behind any number of blanks. The blanks are passed over, all of
them if a field follows; otherwise the last blank with the rest of the phrase
behind it is the field. -/
def padded (rest : List Char → Option α) : List Char → Option (List Char × α)
  | [] => none
  | c :: s =>
    if isBlank c then
      match padded rest s with
      | some found => some found
      | none => (rest s).map (fun found => ([c], found))
    else field rest (c :: s)

/-- A field behind a gap of at least one blank. -/
def spaced (rest : List Char → Option α) : List Char → Option (List Char × α)
  | [] => none
  | c :: s => if isBlank c then padded rest s else none

/-- The end of the text. -/
def atEnd : List Char → Option Unit
  | [] => some ()
  | _ :: _ => none

/-- A full stop. -/
def atStop : List Char → Option Unit
  | [] => none
  | c :: _ => if c = '.' then some () else none

/-- Either of two ends of a phrase. -/
def either (first second : List Char → Option Unit) (s : List Char) : Option Unit :=
  match first s with
  | some () => some ()
  | none => second s

/-- The word, wherever more may follow. -/
def atWord (word s : List Char) : Option Unit := (after? word s).map (fun _ => ())

/-- A gap, the word, and the rest of the phrase. -/
def gapWord (word : List Char) (rest : List Char → Option α) (s : List Char) : Option α :=
  (gap? s).bind (fun here => (after? word here).bind rest)

theorem field_eq_some_iff {rest : List Char → Option α} {s found : List Char} {a : α} :
    field rest s = some (found, a) ↔
      ∃ tail, s = found ++ tail ∧ found ≠ [] ∧ rest tail = some a ∧
        ∀ short long, found = short ++ long → short ≠ [] → long ≠ [] →
          rest (long ++ tail) = none := by
  induction s generalizing found with
  | nil =>
    simp only [field, reduceCtorEq, false_iff, not_exists]
    rintro tail ⟨h, hne, -⟩
    cases found <;> simp_all
  | cons c s ih =>
    cases found with
    | nil =>
      simp only [field]
      split
      · simp
      · simp [Option.map_eq_some_iff]
    | cons d found =>
      simp only [field]
      split
      next b hb =>
        constructor
        · intro h
          simp only [Option.some.injEq, Prod.mk.injEq, List.cons.injEq] at h
          obtain ⟨⟨rfl, rfl⟩, rfl⟩ := h
          refine ⟨s, rfl, by simp, hb, ?_⟩
          intro short long h hs hl
          cases short <;> cases long <;> simp_all
        · rintro ⟨tail, h, -, ha, hmin⟩
          simp only [List.cons_append, List.cons.injEq] at h
          obtain ⟨rfl, rfl⟩ := h
          cases found with
          | nil =>
            rw [List.nil_append] at hb
            rw [hb] at ha
            simp_all
          | cons e found =>
            have := hmin [c] (e :: found) rfl (by simp) (by simp)
            rw [List.cons_append] at this hb
            rw [this] at hb
            cases hb
      next hb =>
        simp only [Option.map_eq_some_iff, Prod.mk.injEq, List.cons.injEq, Prod.exists]
        constructor
        · rintro ⟨f, b, hf, ⟨rfl, rfl⟩, rfl⟩
          obtain ⟨tail, rfl, hne, ha, hmin⟩ := ih.1 hf
          refine ⟨tail, rfl, by simp, ha, ?_⟩
          intro short long h hs hl
          cases short with
          | nil => exact absurd rfl hs
          | cons e short =>
            simp only [List.cons_append, List.cons.injEq] at h
            obtain ⟨rfl, rfl⟩ := h
            cases short with
            | nil => simpa using hb
            | cons e' short => exact hmin _ _ rfl (by simp) hl
        · rintro ⟨tail, h, -, ha, hmin⟩
          simp only [List.cons_append, List.cons.injEq] at h
          obtain ⟨rfl, rfl⟩ := h
          refine ⟨found, a, ih.2 ⟨tail, rfl, ?_, ha, ?_⟩, ⟨rfl, rfl⟩, rfl⟩
          · rintro rfl
            rw [List.nil_append] at hb
            rw [hb] at ha
            cases ha
          · intro short long h hs hl
            exact hmin (c :: short) long (by rw [h, List.cons_append]) (by simp) hl

end Mainframe.Text
