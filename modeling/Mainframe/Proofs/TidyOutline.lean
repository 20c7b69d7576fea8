import Mainframe.Proofs.JoinedSources
import Mainframe.Proofs.TidyLines

/-
  The outline of a tidy program.

  Normalizing leaves a tidy program as it is, so the records of its outline
  carry the lines on which its items are written. The words of the whole program
  are read as one run for data items; only declarations have a level at the start
  of their line, so the run gives the variables and no more.

  What is proved:
    1. `collect_lines`: what a rule finds in a tidy program.
    2. `dataItems_lines`: the data items of a tidy program are its variables.
    3. `programId?_source` and `hasDivision_source`: what is looked for in the
       whole text.
    4. `outline_reads`: the outline says what is written in the program.
-/

namespace Mainframe.Cobol.Tidy

open Mainframe.Text

/-! ## Records -/

theorem collect_eq_nil {α β : Type} {rule : List Char → Option α} (record : Nat → α → β)
    (before : Nat) {lines : List (List Char)} (h : ∀ line ∈ lines, rule line = none) :
    collect rule record (numbered before lines) = [] := by
  rw [collect, List.filterMap_eq_nil_iff]
  intro line hline
  rw [h line.1 (List.fst_mem_of_mem_zipIdx hline)]
  rfl

theorem collect_items {α β : Type} {rule : List Char → Option α} (record : Nat → α → β)
    {find : Item → Option α} (hitem : ∀ item, rule (spell item.tokens) = find item) (before : Nat)
    (items : List Item) :
    collect rule record (numbered before (items.map (fun item => spell item.tokens))) =
      (items.zipIdx (before + 1)).filterMap (fun item => (find item.1).map (record item.2)) := by
  rw [collect, numbered, List.zipIdx_map, List.filterMap_map]
  congr 1
  funext item
  show (rule (spell item.1.tokens)).map (record item.2) = _
  rw [hitem]

theorem length_preamble (p : Program) : p.preamble.length = p.declarations.length + 4 := by
  rw [Program.preamble, List.length_append, List.length_map, Nat.add_comm]
  rfl

/-- What a rule finds in the procedure division. -/
theorem collect_body {α β : Type} (rule : List Char → Option α) (record : Nat → α → β)
    {find : Item → Option α} (hheader : rule procedureHeader = none) (hempty : rule [] = none)
    (hitem : ∀ item, rule (spell item.tokens) = find item) (p : Program) (ended : Bool) :
    collect rule record (numbered p.preamble.length (p.bodyLines ended)) =
      p.placed.filterMap (fun item => (find item.1).map (record item.2)) := by
  have hcut : p.bodyLines ended =
      [procedureHeader] ++ (p.items.map (fun item => spell item.tokens) ++ ending ended) := rfl
  have hending : ∀ line ∈ ending ended, rule line = none := by
    intro line hline
    cases ended with
    | false => cases hline
    | true => rw [List.mem_singleton.1 hline, hempty]
  have hfirst : ∀ line ∈ [procedureHeader], rule line = none := by
    intro line hline
    rw [List.mem_singleton.1 hline, hheader]
  rw [hcut, numbered_append, numbered_append, collect_append, collect_append,
    collect_eq_nil record _ hfirst, collect_eq_nil record _ hending, collect_items record hitem,
    length_preamble, List.nil_append, List.append_nil]
  rfl

/-- What a rule finds in a tidy program, if it finds nothing on an inert line. -/
theorem collect_lines {α β : Type} (rule : List Char → Option α) (record : Nat → α → β)
    {find : Item → Option α} (hinert : ∀ toks, Inert toks → rule (spell toks) = none)
    (hheader : rule procedureHeader = none) (hempty : rule [] = none)
    (hitem : ∀ item, rule (spell item.tokens) = find item) (p : Program) (ended : Bool) :
    collect rule record (numbered 0 (p.lines ++ ending ended)) =
      p.placed.filterMap (fun item => (find item.1).map (record item.2)) := by
  have hpre : ∀ line ∈ p.preamble.map spell, rule line = none := by
    intro line hline
    obtain ⟨toks, htoks, rfl⟩ := List.mem_map.1 hline
    exact hinert toks (p.inert_preamble toks htoks)
  rw [p.lines_eq, numbered_append, collect_append, collect_eq_nil record 0 hpre, List.nil_append,
    List.length_map, Nat.zero_add]
  exact collect_body rule record hheader hempty hitem p ended

/-- The procedure division opens at its header, so the lines from there on name
the paragraphs. -/
theorem procedureLines_lines (p : Program) (ended : Bool) :
    procedureLines false (numbered 0 (p.lines ++ ending ended)) =
      numbered p.preamble.length (p.bodyLines ended) := by
  have hopens : opensProcedure procedureHeader = true := by decide
  have hclosed : ∀ line ∈ numbered 0 (p.preamble.map spell), (!opensProcedure line.1) = true := by
    intro line hline
    obtain ⟨toks, htoks, hspell⟩ := List.mem_map.1 (List.fst_mem_of_mem_zipIdx hline)
    rw [← hspell, (p.inert_preamble toks htoks).notOpen]
    rfl
  rw [p.lines_eq, numbered_append, List.length_map, Nat.zero_add, procedureLines,
    if_neg (by simp), List.dropWhile_append_of_pos hclosed]
  simp [Program.bodyLines, numbered, hopens]

/-! ## Rules on items -/

theorem inert_label (name : Label) : Inert [stopped name.chars] := by
  have htoks := (Item.label name).isToken
  constructor
  case isToken => exact htoks
  case retained => exact retained?_item (.label name)
  case quiet => exact fun k hk => quiet_of_keyword hk htoks (by simp)
  case noStop => exact stop_run_not_mem htoks trivial
  case notOpen => exact notOpen_of_noPair htoks trivial

theorem action?_item (item : Item) :
    action? (spell item.tokens) = item.sentence?.bind Sentence.action := by
  cases item with
  | label name => exact (inert_label name).action?
  | sentence s => exact action?_sentence s

theorem branch?_item (item : Item) :
    branch? (spell item.tokens) = item.sentence?.bind Sentence.branch := by
  cases item with
  | label name => exact (inert_label name).branch?
  | sentence s => exact branch?_sentence s

theorem performTarget?_item (item : Item) :
    performTarget? (spell item.tokens) =
      item.sentence?.bind (fun s => s.callee.map Word.chars) := by
  cases item with
  | label name => exact (inert_label name).performTarget?
  | sentence s => exact performTarget?_sentence s

theorem paragraphName?_item (item : Item) :
    (paragraphName? (spell item.tokens)).map String.ofList = item.name? := by
  cases item with
  | label name =>
    simp only [Item.tokens, paragraphName?_label]
    rfl
  | sentence s =>
    simp only [Item.tokens, paragraphName?_sentence]
    rfl

/-! ## Data items -/

/-- A word that opens no line, or that is no level, starts no data item. -/
theorem dataItems_cons {t : Token} (h : t.opensLine = true → Cobol.isLevel t.word = false)
    (ts : List Token) : dataItems (t :: ts) = dataItems ts := by
  match ts with
  | [] => rfl
  | [_] => rfl
  | [_, _] => rfl
  | name :: clause :: picture :: rest =>
    have hnone : dataItem? t name clause picture = none := by
      unfold dataItem?
      cases hopens : t.opensLine with
      | false => rfl
      | true => rw [h hopens]; rfl
    rw [dataItems, hnone]

theorem dataItems_append {pre : List Token}
    (h : ∀ t ∈ pre, t.opensLine = true → Cobol.isLevel t.word = false) (ts : List Token) :
    dataItems (pre ++ ts) = dataItems ts := by
  induction pre with
  | nil => rfl
  | cons t pre ih =>
    rw [List.cons_append, dataItems_cons (h t List.mem_cons_self)]
    exact ih (fun u hu => h u (List.mem_cons_of_mem t hu))

theorem lineTokens_spell {first : List Char} {rest : List (List Char)}
    (htoks : ∀ tok ∈ first :: rest, IsToken tok) :
    lineTokens (spell (first :: rest)) = ⟨true, first⟩ :: rest.map (fun w => ⟨false, w⟩) := by
  rw [lineTokens, words_spell htoks]

theorem tokens_append (lines lines' : List (List Char)) :
    tokens (lines ++ lines') = tokens lines ++ tokens lines' := List.flatMap_append

/-- Lines that start with no level declare nothing, and neither do the words
behind their first. -/
theorem dataItems_append_lines {block : List (List (List Char))}
    (htoks : ∀ toks ∈ block, ∀ tok ∈ toks, IsToken tok)
    (hfirst : ∀ toks ∈ block, ∀ first ∈ toks.head?, Cobol.isLevel first = false)
    (ts : List Token) : dataItems (tokens (block.map spell) ++ ts) = dataItems ts := by
  apply dataItems_append
  intro t ht hopens
  obtain ⟨line, hline, ht⟩ := List.mem_flatMap.1 ht
  obtain ⟨toks, hmem, rfl⟩ := List.mem_map.1 hline
  cases toks with
  | nil => cases ht
  | cons first others =>
    rw [lineTokens_spell (htoks _ hmem)] at ht
    rcases List.mem_cons.1 ht with rfl | ht
    · exact hfirst _ hmem first rfl
    · obtain ⟨w, -, rfl⟩ := List.mem_map.1 ht
      cases hopens

theorem Picture.beforeStop_stopped (pic : Picture) :
    beforeStop (stopped pic.chars) = pic.chars := by
  have hchars : ∀ c ∈ pic.chars, (c != '.') = true := by
    intro c hc
    have h := pic.allowed c hc
    rw [isPictureChar, Bool.and_eq_true] at h
    exact h.2
  rw [beforeStop, stopped, List.takeWhile_append_of_pos hchars]
  simp

theorem dataItems_variable (v : Variable) (ts : List Token) :
    dataItems (lineTokens (spell v.tokens) ++ ts) = v.dataItem :: dataItems ts := by
  have hitem : dataItem? ⟨true, v.level.chars⟩ ⟨false, v.name.chars⟩ ⟨false, "PIC".toList⟩
      ⟨false, stopped v.picture.chars⟩ = some v.dataItem := by
    have hname : v.name.chars.all isNameChar = true := List.all_eq_true.2 v.name.allowed
    have hpic : isPictureWord "PIC".toList = true := by decide
    have hpicture : v.picture.chars.isEmpty = false := by
      simpa using v.picture.nonempty
    unfold dataItem?
    simp only [v.level.isLevel, hname, hpic, v.picture.beforeStop_stopped, hpicture]
    rfl
  have hline : lineTokens (spell v.tokens) = [⟨true, v.level.chars⟩, ⟨false, v.name.chars⟩,
      ⟨false, "PIC".toList⟩, ⟨false, stopped v.picture.chars⟩] := lineTokens_spell v.isToken
  rw [hline]
  simp only [List.cons_append, List.nil_append, dataItems, hitem]

theorem not_level_item (item : Item) :
    ∀ first ∈ item.tokens.head?, Cobol.isLevel first = false := by
  cases item with
  | label name =>
    have hhead := startsText_label name
    intro first hfirst
    rw [← Option.some.inj hfirst, Bool.eq_false_iff]
    intro hlevel
    obtain ⟨a, b, hchars, ha, -⟩ := exists_digits_of_isLevel hlevel
    rw [hchars] at hhead
    simp [startsText, ha] at hhead
  | sentence s =>
    have hopen : ∀ tok ∈ openers, Cobol.isLevel tok = false := by decide
    obtain ⟨opener, hopener, next, rest, hs, -⟩ := s.tokens_shape
    intro first hfirst
    simp only [Item.tokens] at hfirst
    rw [hs] at hfirst
    rw [← Option.some.inj hfirst]
    exact hopen opener hopener

/-- The headers declare nothing. -/
theorem dataItems_headers (p : Program) (ts : List Token) :
    dataItems (tokens (p.headers.map spell) ++ ts) = dataItems ts := by
  apply dataItems_append_lines
  · intro toks htoks
    exact (p.inert_preamble toks (List.mem_append_left _ htoks)).isToken
  · intro toks htoks first hfirst
    simp only [Program.headers, List.mem_cons, List.not_mem_nil, or_false] at htoks
    rcases htoks with rfl | rfl | rfl | rfl <;> rw [← Option.some.inj hfirst] <;> decide

theorem dataItems_variables (vs : List Variable) (ts : List Token) :
    dataItems (tokens ((vs.map Variable.tokens).map spell) ++ ts) =
      vs.map Variable.dataItem ++ dataItems ts := by
  induction vs with
  | nil => rfl
  | cons v vs ih =>
    simp only [List.map_cons, List.cons_append]
    rw [← ih, ← dataItems_variable, ← List.append_assoc]
    rfl

/-- The procedure division declares nothing. -/
theorem dataItems_procedure (p : Program) (ts : List Token) :
    dataItems (tokens (p.procedure.map spell) ++ ts) = dataItems ts := by
  apply dataItems_append_lines
  · have hheader : ∀ tok ∈ ["PROCEDURE".toList, "DIVISION.".toList], IsToken tok := by
      decide
    intro toks htoks
    rcases List.mem_cons.1 htoks with rfl | htoks
    · exact hheader
    · obtain ⟨item, -, rfl⟩ := List.mem_map.1 htoks
      exact item.isToken
  · intro toks htoks first hfirst
    rcases List.mem_cons.1 htoks with rfl | htoks
    · rw [← Option.some.inj hfirst]
      decide
    · obtain ⟨item, -, rfl⟩ := List.mem_map.1 htoks
      exact not_level_item item first hfirst

/-- The data items of a tidy program are its variables. -/
theorem dataItems_lines (p : Program) (ended : Bool) :
    dataItems (tokens (p.lines ++ ending ended)) = p.declarations.map Variable.dataItem := by
  have hending : dataItems (tokens (ending ended)) = [] := by cases ended <;> rfl
  have hcut : p.lines = p.headers.map spell ++ ((p.declarations.map Variable.tokens).map spell ++
      p.procedure.map spell) := by
    simp only [Program.lines, Program.preamble, List.map_append, List.append_assoc]
  rw [hcut, List.append_assoc, List.append_assoc, tokens_append, tokens_append, tokens_append,
    dataItems_headers, dataItems_variables, dataItems_procedure, hending, List.append_nil]

/-! ## The whole text -/

theorem toList_source (p : Program) (ended : Bool) :
    (p.source ended).toList = joinLines (p.lines ++ ending ended) := String.toList_ofList

theorem programId?_source (p : Program) (ended : Bool) :
    programId? (p.source ended).toList = some p.programId.chars := by
  obtain ⟨third, rest, hlines⟩ : ∃ third rest, p.lines ++ ending ended =
      spell ["IDENTIFICATION".toList, "DIVISION.".toList] ::
        spell ["PROGRAM-ID.".toList, stopped p.programId.chars] :: third :: rest :=
    ⟨spell ["DATA".toList, "DIVISION.".toList],
      spell ["WORKING-STORAGE".toList, "SECTION.".toList] ::
        ((p.declarations.map Variable.tokens ++ p.procedure).map spell ++ ending ended), rfl⟩
  have hname : gapName? (' ' :: (stopped p.programId.chars ++ '\n' :: joinLines (third :: rest))) =
      some p.programId.chars := by
    rw [stopped, List.append_assoc]
    exact gapName?_append p.programId.nonempty p.programId.allowed p.programId.not_blank
      (by decide) _
  have htext : (p.source ended).toList =
      (spell ["IDENTIFICATION".toList, "DIVISION.".toList] ++ ['\n']) ++ ("PROGRAM-ID.".toList ++
        ' ' :: (stopped p.programId.chars ++ '\n' :: joinLines (third :: rest))) := by
    rw [toList_source, hlines, joinLines_cons_cons, joinLines_cons_cons]
    simp only [spell_cons_cons, spell_singleton, List.append_assoc, List.cons_append,
      List.nil_append]
  rw [htext, programId?]
  -- no P stands on the first line, so the search gets to the second
  exact find?_skip (by decide) (find?_append (by decide) hname)

theorem hasDivision_source (p : Program) (ended : Bool) {d : Division} (hd : d ≠ .environment) :
    hasDivision (p.source ended).toList d = true := by
  have hstands : ∀ toks ∈ p.preamble ++ p.procedure,
      contains d.header.toList (spell toks) = true →
        (p.lines ++ ending ended).any (contains d.header.toList) = true := by
    intro toks htoks h
    rw [List.any_eq_true]
    exact ⟨spell toks, List.mem_append_left _ (List.mem_map_of_mem htoks), h⟩
  rw [toList_source, hasDivision_joinLines]
  cases d with
  -- each header is a line of its own, near the front or behind the declarations
  | identification =>
    exact hstands ["IDENTIFICATION".toList, "DIVISION.".toList] List.mem_cons_self (by decide)
  | environment => exact absurd rfl hd
  | data =>
    refine hstands ["DATA".toList, "DIVISION.".toList] ?_ (by decide)
    simp [Program.preamble, Program.headers]
  | procedure =>
    refine hstands ["PROCEDURE".toList, "DIVISION.".toList] ?_ (by decide)
    exact List.mem_append_right _ List.mem_cons_self

theorem sourceLines_source (p : Program) (ended : Bool) :
    sourceLines (p.source ended) = numbered 0 (p.lines ++ ending ended) := by
  rw [sourceLines, normalize_source, splitLines_source]

/-! ## Warnings -/

theorem warnings_outlineOfText {text : List Char}
    (h : statements (numbered 0 (splitLines text)) ≠ [] ∨
      controlFlow (numbered 0 (splitLines text)) ≠ []) :
    (outlineOfText text).checked.warnings = [] := by
  have hexecutable : ∀ o : Outline, o.statements ≠ [] ∨ o.controlFlow ≠ [] →
      o.isDeclarative = false := by
    intro o ho
    rcases ho with ho | ho <;> simp [Outline.isDeclarative, ho]
  rw [warnings_checked rfl, hexecutable _ h]
  rfl

theorem Sentence.says (s : Sentence) : s.action.isSome = true ∨ s.branch.isSome = true := by
  cases s <;> simp [Sentence.action, Sentence.branch]

theorem said_ne_nil {α β : Type} {p : Program} {find : Sentence → Option α} {s : Sentence}
    (hs : .sentence s ∈ p.items) (hfind : (find s).isSome = true) (record : Nat → α → β) :
    p.said find record ≠ [] := by
  have hplaced : p.placed.map Prod.fst = p.items := List.zipIdx_map_fst ..
  rw [← hplaced] at hs
  obtain ⟨⟨item, n⟩, hmem, rfl⟩ := List.mem_map.1 hs
  obtain ⟨a, ha⟩ := Option.isSome_iff_exists.1 hfind
  have hrecord : record n a ∈ p.said find record :=
    List.mem_filterMap.2 ⟨_, hmem, by simp [Item.sentence?, ha]⟩
  exact List.ne_nil_of_mem hrecord

theorem mem_items {p : Program} {b : Block} (hb : b ∈ p.blocks) {s : Sentence}
    (hs : s ∈ b.sentences) : .sentence s ∈ p.items :=
  List.mem_flatMap.2 ⟨b, hb, List.mem_cons_of_mem _ (List.mem_map_of_mem hs)⟩

/-! ## Lists of the outline -/

section
variable (p : Program) (ended : Bool)

theorem paragraphs_source :
    paragraphs false (sourceLines (p.source ended)) = p.placed.filterMap
      (fun item => item.1.name?.map (fun name => ⟨recordId "PARA" item.2, name, item.2⟩)) := by
  have hheader : paragraphName? procedureHeader = none := by decide
  have hempty : paragraphName? [] = none := by decide
  rw [sourceLines_source, paragraphs, procedureLines_lines,
    collect_body paragraphName? _ hheader hempty (fun item => rfl)]
  congr 1
  funext item
  rw [← paragraphName?_item, Option.map_map]
  rfl

theorem statements_source :
    statements (sourceLines (p.source ended)) =
      p.said Sentence.action (fun n a => ⟨recordId "STMT" n, n, a⟩) := by
  rw [sourceLines_source, statements]
  exact collect_lines action? _ (fun _ h => h.action?) (by decide) rfl action?_item p ended

theorem controlFlow_source :
    controlFlow (sourceLines (p.source ended)) =
      p.said Sentence.branch (fun n b => ⟨recordId "CF" n, n, b⟩) := by
  rw [sourceLines_source, controlFlow]
  exact collect_lines branch? _ (fun _ h => h.branch?) (by decide) rfl branch?_item p ended

theorem conditions_source :
    conditions (sourceLines (p.source ended)) =
      p.said (fun s => s.branch.bind Branch.condition?) (fun _ condition => condition) := by
  have hinert : ∀ toks, Inert toks → (branch? (spell toks)).bind Branch.condition? = none := by
    intro toks h
    rw [h.branch?]
    rfl
  have hitem : ∀ item : Item, (branch? (spell item.tokens)).bind Branch.condition? =
      item.sentence?.bind (fun s => s.branch.bind Branch.condition?) := by
    intro item
    rw [branch?_item, Option.bind_assoc]
  have hheader : (branch? procedureHeader).bind Branch.condition? = none := by decide
  have hempty : (branch? []).bind Branch.condition? = none := by decide
  rw [sourceLines_source, conditions_eq_collect]
  exact collect_lines (fun line => (branch? line).bind Branch.condition?) _ hinert hheader hempty
    hitem p ended

theorem performs_source :
    performs (sourceLines (p.source ended)) =
      p.said Sentence.callee (fun n w => ⟨recordId "PERFORM" n, w.text, n⟩) := by
  have hheader : performTarget? procedureHeader = none := by decide
  rw [sourceLines_source, performs,
    collect_lines performTarget? _ (fun _ h => h.performTarget?) hheader rfl performTarget?_item]
  unfold Program.said
  congr 1
  funext item
  cases item.1.sentence? with
  | none => rfl
  | some s => cases s <;> rfl

theorem warnings_source (h : ∃ b ∈ p.blocks, b.sentences ≠ []) :
    (outline (p.source ended)).warnings = [] := by
  obtain ⟨b, hb, hne⟩ := h
  obtain ⟨s, hs⟩ := List.exists_mem_of_ne_nil _ hne
  have hitem := mem_items hb hs
  rw [outline]
  apply warnings_outlineOfText
  rw [← sourceLines, statements_source, controlFlow_source]
  -- every sentence makes a statement or a branch
  rcases s.says with hsays | hsays
  · exact .inl (said_ne_nil hitem hsays _)
  · exact .inr (said_ne_nil hitem hsays _)

/-- The outline of a tidy program says what is written in it: each variable and
each item once, in order and with its line, and nothing more. -/
theorem outline_reads : Reads p (outline (p.source ended)) := by
  have hwarnings := warnings_source p ended
  obtain ⟨_, houtline⟩ := outline_eq (p.source ended)
  rw [houtline] at hwarnings ⊢
  constructor <;> dsimp only
  case programId =>
    rw [normalize_source, programId?_source]
    rfl
  case divisions =>
    intro d hd
    rw [Divisions.mark?_ofPresent, normalize_source, hasDivision_source p ended hd]
    rfl
  case dataItems => rw [normalize_source, splitLines_source, dataItems_lines]
  case paragraphs => exact paragraphs_source p ended
  case statements => exact statements_source p ended
  case controlFlow => exact controlFlow_source p ended
  case conditions => exact conditions_source p ended
  case performs => exact performs_source p ended
  case warnings => exact hwarnings

end

end Mainframe.Cobol.Tidy
