import Mainframe.Proofs.NormalizedText

/-
  The outline of two sources with a line feed between them.

  The retained lines of the joined source are those of the first source followed
  by those of the second, so every record of the second moves down by the number
  of lines that are retained of the first. An id is derived from a line, so it
  is derived again. Only paragraphs depend on more than their own line: a header
  of the procedure division in the first source opens it for the second.

  What is proved:
    1. `collect_joined`: what a rule finds in two joined sources.
    2. `procedureLines_append`: the state that one run of lines leaves behind
       for the paragraphs of the next.
    3. `outline_joined`: the outline of two joined sources.
-/

namespace Mainframe.Cobol

open Mainframe.Text

/-! ## Records further down -/

/-- The line, further down. -/
def lowerLine (k : Nat) (line : NumberedLine) : NumberedLine := (line.1, line.2 + k)

/-- The statement, further down. -/
def Statement.lower (k : Nat) (s : Statement) : Statement :=
  ⟨recordId "STMT" (s.line + k), s.line + k, s.action⟩

/-- The branch, further down. -/
def ControlFlow.lower (k : Nat) (c : ControlFlow) : ControlFlow :=
  ⟨recordId "CF" (c.line + k), c.line + k, c.branch⟩

/-- The use of a file, further down. -/
def FileOperation.lower (k : Nat) (f : FileOperation) : FileOperation := ⟨f.verb, f.line + k⟩

/-- The call of a paragraph, further down. -/
def Perform.lower (k : Nat) (p : Perform) : Perform :=
  ⟨recordId "PERFORM" (p.line + k), p.target, p.line + k⟩

/-- The paragraph, further down. -/
def Paragraph.lower (k : Nat) (p : Paragraph) : Paragraph :=
  ⟨recordId "PARA" (p.line + k), p.name, p.line + k⟩

theorem numbered_eq_map_lowerLine (k : Nat) (lines : List (List Char)) :
    numbered k lines = (numbered 0 lines).map (lowerLine k) := by
  induction k with
  | zero => exact (List.map_id' _).symm
  | succ k ih =>
    have hstep : numbered (k + 1) lines = (numbered k lines).map (lowerLine 1) :=
      List.zipIdx_succ
    rw [hstep, ih, List.map_map]
    rfl

theorem collect_lowerLine {α β : Type} (rule : List Char → Option α) (record : Nat → α → β)
    {k : Nat} {lower : β → β} (hlower : ∀ n a, lower (record n a) = record (n + k) a)
    (lines : List NumberedLine) :
    collect rule record (lines.map (lowerLine k)) = (collect rule record lines).map lower := by
  simp only [collect, List.filterMap_map, List.map_filterMap]
  congr 1
  funext line
  show (rule line.1).map (record (line.2 + k)) = ((rule line.1).map (record line.2)).map lower
  rw [Option.map_map]
  congr 1
  funext a
  exact (hlower line.2 a).symm

/-! ## Records of joined sources -/

theorem retainedLines_joined (s t : String) :
    retainedLines (s ++ "\n" ++ t).toList = retainedLines s.toList ++ retainedLines t.toList := by
  have hjoin : (s ++ "\n" ++ t).toList = s.toList ++ '\n' :: t.toList := by
    simp [String.toList_append]
  rw [hjoin, retainedLines_append]

/-- The numbered lines of the normalized text of a source. -/
def sourceLines (source : String) : List NumberedLine :=
  numbered 0 (splitLines (normalize source).toList)

/-- What a rule finds in two joined sources: what it finds in the first, and
what it finds in the second, further down. -/
theorem collect_joined {α β : Type} (rule : List Char → Option α) (record : Nat → α → β)
    (hempty : rule [] = none) (s t : String) {lower : β → β}
    (hlower : ∀ n a, lower (record n a) = record (n + (retainedLines s.toList).length) a) :
    collect rule record (sourceLines (s ++ "\n" ++ t)) =
      collect rule record (sourceLines s) ++ (collect rule record (sourceLines t)).map lower := by
  have hlines : ∀ source, collect rule record (sourceLines source) =
      collect rule record (numbered 0 (retainedLines source.toList)) :=
    collect_normalized rule record hempty 0
  calc collect rule record (sourceLines (s ++ "\n" ++ t))
      = collect rule record (numbered 0 (retainedLines s.toList ++ retainedLines t.toList)) := by
        rw [hlines, retainedLines_joined]
    _ = collect rule record (numbered 0 (retainedLines s.toList)) ++
          collect rule record
            (numbered (retainedLines s.toList).length (retainedLines t.toList)) := by
        rw [numbered_append, Nat.zero_add, collect_append]
    _ = collect rule record (numbered 0 (retainedLines s.toList)) ++
          (collect rule record (numbered 0 (retainedLines t.toList))).map lower := by
        rw [numbered_eq_map_lowerLine (retainedLines s.toList).length,
          collect_lowerLine rule record hlower]
    _ = collect rule record (sourceLines s) ++
          (collect rule record (sourceLines t)).map lower := by
        rw [hlines s, hlines t]

/-! ## Divisions and paragraphs -/

/-- A header does not reach over the end of a line. -/
theorem hasDivision_joinLines (lines : List (List Char)) (d : Division) :
    hasDivision (joinLines lines) d = lines.any (contains d.header.toList) := by
  have hne : d.header.toList ≠ [] := by cases d <;> decide
  have hline : '\n' ∉ d.header.toList := by cases d <;> decide
  exact contains_joinLines hne hline lines

theorem hasDivision_normalize (source : String) (d : Division) :
    hasDivision (normalize source).toList d =
      (retainedLines source.toList).any (contains d.header.toList) := by
  rw [normalize, String.toList_ofList, hasDivision_joinLines]

theorem hasDivision_joined (s t : String) (d : Division) :
    hasDivision (normalize (s ++ "\n" ++ t)).toList d =
      (hasDivision (normalize s).toList d || hasDivision (normalize t).toList d) := by
  simp only [hasDivision_normalize, retainedLines_joined, List.any_append]

theorem any_opensProcedure_numbered (before : Nat) (lines : List (List Char)) :
    (numbered before lines).any (fun line => opensProcedure line.1) = lines.any opensProcedure := by
  have hlines : (numbered before lines).map Prod.fst = lines := List.zipIdx_map_fst ..
  rw [← hlines, List.any_map, hlines]
  rfl

/-- The lines of two runs that may name a paragraph. The second run starts with
the procedure division open if the first run started so or opens it. -/
theorem procedureLines_append (isOpen : Bool) (lines lines' : List NumberedLine) :
    procedureLines isOpen (lines ++ lines') =
      procedureLines isOpen lines ++
        procedureLines (isOpen || lines.any (fun line => opensProcedure line.1)) lines' := by
  cases isOpen with
  | true => rfl
  | false =>
    induction lines with
    | nil => rfl
    | cons line lines ih =>
      cases hopens : opensProcedure line.1 with
      | true =>
        -- the header is in the first run, so all that follows it is kept
        simp [procedureLines, hopens]
      | false =>
        rw [List.any_cons, hopens, Bool.false_or]
        simpa [procedureLines, hopens] using ih

theorem procedureLines_lowerLine (isOpen : Bool) (k : Nat) (lines : List NumberedLine) :
    procedureLines isOpen (lines.map (lowerLine k)) =
      (procedureLines isOpen lines).map (lowerLine k) := by
  cases isOpen with
  | true => rfl
  | false => exact List.dropWhile_map ..

theorem paragraphs_append (isOpen : Bool) (lines lines' : List NumberedLine) :
    paragraphs isOpen (lines ++ lines') =
      paragraphs isOpen lines ++
        paragraphs (isOpen || lines.any (fun line => opensProcedure line.1)) lines' := by
  rw [paragraphs, procedureLines_append, collect_append]
  rfl

theorem paragraphs_lowerLine (isOpen : Bool) (k : Nat) (lines : List NumberedLine) :
    paragraphs isOpen (lines.map (lowerLine k)) =
      (paragraphs isOpen lines).map (Paragraph.lower k) := by
  rw [paragraphs, procedureLines_lowerLine, collect_lowerLine]
  case lower => exact Paragraph.lower k
  case hlower => exact fun n name => rfl
  rfl

theorem paragraphs_sourceLines (isOpen : Bool) (source : String) :
    paragraphs isOpen (sourceLines source) =
      paragraphs isOpen (numbered 0 (retainedLines source.toList)) := by
  rw [sourceLines, splitLines_normalize]
  split
  next h =>
    -- one empty line names nothing, whether the division is open or not
    rw [h]
    cases isOpen <;> rfl
  next => rfl

theorem paragraphs_joined (s t : String) :
    paragraphs false (sourceLines (s ++ "\n" ++ t)) =
      paragraphs false (sourceLines s) ++
        (paragraphs (hasDivision (normalize s).toList .procedure) (sourceLines t)).map
          (Paragraph.lower (retainedLines s.toList).length) := by
  have hopen : hasDivision (normalize s).toList .procedure =
      (retainedLines s.toList).any opensProcedure := hasDivision_normalize s .procedure
  rw [hopen]
  calc paragraphs false (sourceLines (s ++ "\n" ++ t))
      = paragraphs false (numbered 0 (retainedLines s.toList ++ retainedLines t.toList)) := by
        rw [paragraphs_sourceLines, retainedLines_joined]
    _ = paragraphs false (numbered 0 (retainedLines s.toList)) ++
          paragraphs ((retainedLines s.toList).any opensProcedure)
            (numbered (retainedLines s.toList).length (retainedLines t.toList)) := by
        rw [numbered_append, Nat.zero_add, paragraphs_append, any_opensProcedure_numbered,
          Bool.false_or]
    _ = paragraphs false (numbered 0 (retainedLines s.toList)) ++
          (paragraphs ((retainedLines s.toList).any opensProcedure)
            (numbered 0 (retainedLines t.toList))).map
              (Paragraph.lower (retainedLines s.toList).length) := by
        rw [numbered_eq_map_lowerLine (retainedLines s.toList).length, paragraphs_lowerLine]
    _ = _ := by rw [paragraphs_sourceLines, paragraphs_sourceLines]

/-! ## Lists of joined sources -/

theorem conditions_eq_collect (lines : List NumberedLine) :
    conditions lines =
      collect (fun line => (branch? line).bind Branch.condition?) (fun _ c => c) lines := by
  unfold conditions collect
  congr 1
  funext line
  exact Option.map_id'.symm

section
variable (s t : String)

theorem statements_joined :
    statements (sourceLines (s ++ "\n" ++ t)) =
      statements (sourceLines s) ++
        (statements (sourceLines t)).map (Statement.lower (retainedLines s.toList).length) := by
  have hempty : action? [] = none := rfl
  unfold statements
  exact collect_joined action? _ hempty s t (fun n action => rfl)

theorem controlFlow_joined :
    controlFlow (sourceLines (s ++ "\n" ++ t)) =
      controlFlow (sourceLines s) ++
        (controlFlow (sourceLines t)).map (ControlFlow.lower (retainedLines s.toList).length) := by
  have hempty : branch? [] = none := rfl
  unfold controlFlow
  exact collect_joined branch? _ hempty s t (fun n branch => rfl)

theorem fileOperations_joined :
    fileOperations (sourceLines (s ++ "\n" ++ t)) =
      fileOperations (sourceLines s) ++
        (fileOperations (sourceLines t)).map
          (FileOperation.lower (retainedLines s.toList).length) := by
  have hempty : fileVerb? [] = none := rfl
  unfold fileOperations
  exact collect_joined fileVerb? _ hempty s t (fun n verb => rfl)

theorem performs_joined :
    performs (sourceLines (s ++ "\n" ++ t)) =
      performs (sourceLines s) ++
        (performs (sourceLines t)).map (Perform.lower (retainedLines s.toList).length) := by
  have hempty : performTarget? [] = none := rfl
  unfold performs
  exact collect_joined performTarget? _ hempty s t (fun n target => rfl)

/-- Conditions carry no line, so nothing of them changes further down. -/
theorem conditions_joined :
    conditions (sourceLines (s ++ "\n" ++ t)) =
      conditions (sourceLines s) ++ conditions (sourceLines t) := by
  have hempty : (branch? []).bind Branch.condition? = none := rfl
  have hjoined := collect_joined (fun line => (branch? line).bind Branch.condition?)
    (fun _ c => c) hempty s t (fun n c => rfl)
  rw [List.map_id'] at hjoined
  simp only [conditions_eq_collect]
  exact hjoined

end

/-! ## Outlines -/

theorem isDeclarative_checked (o : Outline) : o.checked.isDeclarative = o.isDeclarative := by
  unfold Outline.checked
  split <;> rfl

theorem warnings_checked {o : Outline} (h : o.warnings = []) :
    o.checked.warnings = if o.isDeclarative then [Outline.declarativeWarning] else [] := by
  unfold Outline.checked
  split
  next =>
    rw [h]
    rfl
  next => exact h

/-- The outline of a normalized text, list by list, up to its warnings. -/
theorem checked_outlineOfText (text : List Char) :
    ∃ ws, (outlineOfText text).checked =
      { programId := (programId? text).map String.ofList
        divisions := .ofPresent (hasDivision text)
        dataItems := dataItems (tokens (splitLines text))
        paragraphs := Cobol.paragraphs false (numbered 0 (splitLines text))
        statements := Cobol.statements (numbered 0 (splitLines text))
        controlFlow := Cobol.controlFlow (numbered 0 (splitLines text))
        conditions := Cobol.conditions (numbered 0 (splitLines text))
        fileOperations := Cobol.fileOperations (numbered 0 (splitLines text))
        performs := Cobol.performs (numbered 0 (splitLines text))
        warnings := ws } := by
  unfold Outline.checked
  split
  next => exact ⟨_, rfl⟩
  next => exact ⟨_, rfl⟩

/-- The outline of a source, list by list, up to its warnings. -/
theorem outline_eq (source : String) :
    ∃ ws, outline source =
      { programId := (programId? (normalize source).toList).map String.ofList
        divisions := .ofPresent (hasDivision (normalize source).toList)
        dataItems := dataItems (tokens (splitLines (normalize source).toList))
        paragraphs := Cobol.paragraphs false (sourceLines source)
        statements := Cobol.statements (sourceLines source)
        controlFlow := Cobol.controlFlow (sourceLines source)
        conditions := Cobol.conditions (sourceLines source)
        fileOperations := Cobol.fileOperations (sourceLines source)
        performs := Cobol.performs (sourceLines source)
        warnings := ws } := by
  rw [outline, sourceLines]
  exact checked_outlineOfText (normalize source).toList

section
variable (source : String)

theorem programId_outline :
    (outline source).programId = (programId? (normalize source).toList).map String.ofList := by
  obtain ⟨_, ho⟩ := outline_eq source
  rw [ho]

theorem divisions_outline :
    (outline source).divisions = .ofPresent (hasDivision (normalize source).toList) := by
  obtain ⟨_, ho⟩ := outline_eq source
  rw [ho]

theorem dataItems_outline :
    (outline source).dataItems = dataItems (tokens (splitLines (normalize source).toList)) := by
  obtain ⟨_, ho⟩ := outline_eq source
  rw [ho]

theorem paragraphs_outline :
    (outline source).paragraphs = paragraphs false (sourceLines source) := by
  obtain ⟨_, ho⟩ := outline_eq source
  rw [ho]

theorem statements_outline : (outline source).statements = statements (sourceLines source) := by
  obtain ⟨_, ho⟩ := outline_eq source
  rw [ho]

theorem controlFlow_outline : (outline source).controlFlow = controlFlow (sourceLines source) := by
  obtain ⟨_, ho⟩ := outline_eq source
  rw [ho]

theorem conditions_outline : (outline source).conditions = conditions (sourceLines source) := by
  obtain ⟨_, ho⟩ := outline_eq source
  rw [ho]

theorem fileOperations_outline :
    (outline source).fileOperations = fileOperations (sourceLines source) := by
  obtain ⟨_, ho⟩ := outline_eq source
  rw [ho]

theorem performs_outline : (outline source).performs = performs (sourceLines source) := by
  obtain ⟨_, ho⟩ := outline_eq source
  rw [ho]

end

/-- How the outline of two joined sources is made from their outlines, when `k`
lines are retained of the first: every record of the second stands `k` lines
further down. Its paragraphs are given apart. -/
structure IsJoined (k : Nat) (first second : Outline) (below : List Paragraph)
    (whole : Outline) : Prop where
  statements : whole.statements = first.statements ++ second.statements.map (Statement.lower k)
  controlFlow : whole.controlFlow =
    first.controlFlow ++ second.controlFlow.map (ControlFlow.lower k)
  fileOperations : whole.fileOperations =
    first.fileOperations ++ second.fileOperations.map (FileOperation.lower k)
  performs : whole.performs = first.performs ++ second.performs.map (Perform.lower k)
  conditions : whole.conditions = first.conditions ++ second.conditions
  divisions : ∀ d, whole.divisions.mark? d = (first.divisions.mark? d).or (second.divisions.mark? d)
  paragraphs : whole.paragraphs = first.paragraphs ++ below.map (Paragraph.lower k)

/-- The outline of two sources with a line feed between them. The paragraphs of
the second are those that it has when the procedure division is open from its
first line on, provided that the first source holds the header, and its own
paragraphs otherwise. -/
theorem outline_joined (s t : String) :
    IsJoined (retainedLines s.toList).length (outline s) (outline t)
      (paragraphs (hasDivision (normalize s).toList .procedure) (sourceLines t))
      (outline (s ++ "\n" ++ t)) := by
  obtain ⟨_, hs⟩ := outline_eq s
  obtain ⟨_, ht⟩ := outline_eq t
  obtain ⟨_, hst⟩ := outline_eq (s ++ "\n" ++ t)
  rw [hs, ht, hst]
  constructor <;> dsimp only
  case statements => exact statements_joined s t
  case controlFlow => exact controlFlow_joined s t
  case fileOperations => exact fileOperations_joined s t
  case performs => exact performs_joined s t
  case conditions => exact conditions_joined s t
  case divisions =>
    intro d
    simp only [Divisions.mark?_ofPresent, hasDivision_joined, Bool.or_eq_true]
    cases hasDivision (normalize s).toList d <;> simp
  case paragraphs => exact paragraphs_joined s t

end Mainframe.Cobol
