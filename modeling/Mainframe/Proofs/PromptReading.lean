import Mainframe.Prompt
import Mainframe.Proofs.WrittenLines
import Mainframe.Proofs.WrittenOutline

/-
  What a prompt says, read from its text.

  The name of a program stands in its prompt as it is, line feeds included, so
  it may hold headings of its own. But behind the heading of the structure there
  is written data, and no line of that is this heading again: the name ends
  where the last line with that heading begins. From there on each list ends
  with its bracket, and a section that is left out is missed by the first letter
  of the heading that stands in its place.

  What is proved:
    1. `structureHeading_not_mem`: the heading of the structure stands on no
       line behind it.
    2. `listSection_append_inj`: a section determines what it lists, also if it
       is left out.
    3. `prompt_eq_iff`: two prompts for programs are the same if and only if
       they are about the same name, statements, branches and uses of files, and
       two prompts for decks if and only if they are about the same outline.
    4. `trim_ofOutline`: what trimming leaves of a prompt.
-/

namespace Mainframe.Prompt

open Json (Proper write)
open Text (splitLines)

/-- Two texts that are cut at the last of their pieces `a` have the same parts. -/
theorem append_last_inj {α : Type} {a : α} {above above' below below' : List α}
    (h : above ++ a :: below = above' ++ a :: below') (hbelow : a ∉ below)
    (hbelow' : a ∉ below') : above = above' ∧ below = below' := by
  rcases List.append_eq_append_iff.1 h with ⟨gap, habove, hgap⟩ | ⟨gap, habove, hgap⟩
  · cases gap with
    | nil => exact ⟨by rw [habove, List.append_nil], (List.cons.inj hgap).2⟩
    | cons b gap =>
      refine absurd ?_ hbelow
      rw [(List.cons.inj hgap).2]
      exact List.mem_append_right gap List.mem_cons_self
  · cases gap with
    | nil => exact ⟨by rw [habove, List.append_nil], (List.cons.inj hgap).2.symm⟩
    | cons b gap =>
      refine absurd ?_ hbelow'
      rw [(List.cons.inj hgap).2]
      exact List.mem_append_right gap List.mem_cons_self

theorem toList_unlines_cons (line : String) (lines : List String) :
    (Text.unlines (line :: lines)).toList = line.toList ++ '\n' :: (Text.unlines lines).toList := by
  simp [Text.unlines, String.join_cons]

/-- Nothing stands behind the last line feed. -/
theorem splitLines_unlines {lines : List String} (h : ∀ line ∈ lines, '\n' ∉ line.toList) :
    splitLines (Text.unlines lines).toList = lines.map String.toList ++ [[]] := by
  induction lines with
  | nil => rfl
  | cons line lines ih =>
    rw [toList_unlines_cons, Text.splitLines_append,
      Text.splitLines_of_not_mem (h line List.mem_cons_self),
      ih (fun next hnext => h next (List.mem_cons_of_mem line hnext))]
    rfl

/-! ## Records -/

/-- A record is determined by its value, and the value holds nothing that is
written in place of something else. -/
structure Faithful {α : Type} (encode : α → Json) : Prop where
  injective : Function.Injective encode
  proper : ∀ a, Proper (encode a)

theorem injective_of_decode {α : Type} {encode : α → Json} {decode : Json → Option α}
    (h : ∀ a, decode (encode a) = some a) : Function.Injective encode := by
  intro a b hab
  have hread := h a
  rw [hab, h b] at hread
  exact (Option.some.inj hread).symm

theorem proper_tagged {id name : String} {line : Nat} {texts : List (String × Json)}
    (h : ∀ m ∈ texts, ∃ s, m.2 = .string s) :
    Proper
      (.object (("id", .string id) :: ("line", .natural line) :: ("type", .string name) :: texts))
    := by
  refine .object (fun m hm => ?_)
  rcases List.mem_cons.1 hm with rfl | hm
  · exact .string id
  rcases List.mem_cons.1 hm with rfl | hm
  · exact .natural line
  rcases List.mem_cons.1 hm with rfl | hm
  · exact .string name
  obtain ⟨s, hs⟩ := h m hm
  rw [hs]
  exact .string s

theorem faithful_statement : Faithful Cobol.Statement.toJson where
  injective := injective_of_decode Cobol.Statement.ofJson?_toJson
  proper _ := proper_tagged (fun _ hm => Cobol.Action.exists_string_of_mem hm)

theorem faithful_controlFlow : Faithful Cobol.ControlFlow.toJson where
  injective := injective_of_decode Cobol.ControlFlow.ofJson?_toJson
  proper _ := proper_tagged (fun _ hm => Cobol.Branch.exists_string_of_mem hm)

theorem faithful_fileOperation : Faithful Cobol.FileOperation.toJson where
  injective := injective_of_decode Cobol.FileOperation.ofJson?_toJson
  proper f := by
    refine .object (fun m hm => ?_)
    simp only [List.mem_cons, List.not_mem_nil, or_false] at hm
    rcases hm with rfl | rfl
    · exact .string _
    · exact .natural f.line

theorem faithful_deck : Faithful Jcl.Outline.toJson where
  injective := injective_of_decode Jcl.Outline.ofJson?_toJson
  proper o := (o.plain_toJson 0).proper

/-! ## Lists -/

section Lists

variable {α : Type} {encode : α → Json} (hencode : Faithful encode)
include hencode

theorem proper_ofList (as : List α) : Proper (.ofList encode as) := by
  refine .array (fun item hitem => ?_)
  obtain ⟨a, -, rfl⟩ := List.mem_map.1 hitem
  exact hencode.proper a

/-- A list determines its records, and it ends with its last bracket. -/
theorem listText_append_inj {as bs : List α} {r r' : List Char}
    (h : (listText encode as).toList ++ '\n' :: r = (listText encode bs).toList ++ '\n' :: r') :
    as = bs ∧ r = r' := by
  have hbreak : ∀ s, Text.OpensWithout Char.isDigit ('\n' :: s) := by
    intro s c hc
    cases hc
    rfl
  rw [listText, listText, Json.text, Json.text, String.toList_ofList, String.toList_ofList] at h
  obtain ⟨hlists, hrest⟩ := Json.apart_write (proper_ofList hencode as) (proper_ofList hencode bs) 0
    _ _ (hbreak r) (hbreak r') h
  have hrecords : as = bs :=
    (List.map_inj_right (fun _ _ heq => hencode.injective heq)).1 (Json.array.inj hlists)
  exact ⟨hrecords, (List.cons.inj hrest).2⟩

/-- Every line of a list begins with a bracket or a blank. -/
theorem exists_head_of_mem_listText {as : List α} {line : List Char}
    (h : line ∈ splitLines (listText encode as).toList) :
    ∃ c ∈ line.head?, c = '[' ∨ Json.isIndent c = true := by
  have hindented := Json.indented_write (proper_ofList hencode as) 0
  have hopen : ∃ s, write .pretty 0 (.ofList encode as) = '[' :: s := by
    rw [Json.ofList, Json.write_array]
    cases (as.map encode).map (write .pretty (0 + 1)) <;> exact ⟨_, rfl⟩
  obtain ⟨s, hs⟩ := hopen
  obtain ⟨first, rest, -, hsplit⟩ := Text.splitLines_cons_of_ne (by decide : '[' ≠ '\n') s
  rw [listText, Json.text, String.toList_ofList, hs, hsplit] at h
  rcases List.mem_cons.1 h with rfl | hrest
  · exact ⟨'[', rfl, .inl rfl⟩
  · have htail : line ∈ (splitLines (write .pretty 0 (.ofList encode as))).tail := by
      rw [hs, hsplit]
      exact hrest
    obtain ⟨c, hc, hindent⟩ := Json.exists_head_of_mem_tail hindented htail
    exact ⟨c, hc, .inr hindent⟩

end Lists

/-! ## Sections -/

/-- The line above the statements of a program. -/
def structureHeading : String := "EXECUTABLE STRUCTURE:"

theorem listSection_cons_append {α : Type} (heading : String) (encode : α → Json) (a : α)
    (as : List α) (r : List Char) : (listSection heading encode (a :: as)).toList ++ r =
      '\n' :: ((heading ++ ":").toList
        ++ '\n' :: ((listText encode (a :: as)).toList ++ '\n' :: r)) := by
  simp [listSection, String.toList_append]

/-- The letter behind the first line feed shows whether there is a section. -/
theorem second_listSection {α : Type} {heading : String} (encode : α → Json) {letter : Char}
    (hletter : heading.toList.head? = some letter) (as : List α) (r : List Char) :
    ((listSection heading encode as).toList ++ r)[1]? =
      if as.isEmpty then r[1]? else some letter := by
  cases as with
  | nil => rfl
  | cons a as =>
    rw [listSection_cons_append, String.toList_append]
    cases hheading : heading.toList with
    | nil =>
      rw [hheading] at hletter
      cases hletter
    | cons c s =>
      rw [hheading] at hletter
      exact hletter

section Sections

variable {α : Type} {encode : α → Json} (hencode : Faithful encode) {heading : String}
include hencode

theorem listSection_append_inj {letter : Char} (hletter : heading.toList.head? = some letter)
    {as bs : List α} {r r' : List Char} (hr : r[1]? ≠ some letter) (hr' : r'[1]? ≠ some letter)
    (h : (listSection heading encode as).toList ++ r =
      (listSection heading encode bs).toList ++ r') : as = bs ∧ r = r' := by
  have hsecond := second_listSection encode hletter as r
  have hsecond' := second_listSection encode hletter bs r'
  match as, bs, h, hsecond, hsecond' with
  | [], [], h, _, _ => exact ⟨rfl, h⟩
  | [], b :: bs, h, _, hsecond' =>
    -- one section is left out, so the other one's letter stands behind it
    rw [← h] at hsecond'
    exact absurd hsecond' hr
  | a :: as, [], h, hsecond, _ =>
    rw [h] at hsecond
    exact absurd hsecond hr'
  | a :: as, b :: bs, h, _, _ =>
    rw [listSection_cons_append, listSection_cons_append] at h
    have hlists := List.append_cancel_left (List.cons.inj h).2
    exact listText_append_inj hencode (List.cons.inj hlists).2

theorem structureHeading_not_mem_listText (as : List α) :
    structureHeading.toList ∉ splitLines (listText encode as).toList := by
  intro hmem
  obtain ⟨c, hc, hform⟩ := exists_head_of_mem_listText hencode hmem
  have hhead : structureHeading.toList.head? = some 'E' := by simp [structureHeading]
  obtain rfl : 'E' = c := Option.some.inj (hhead.symm.trans hc)
  rcases hform with h | h <;> cases h

theorem structureHeading_not_mem_listSection (hbreak : '\n' ∉ (heading ++ ":").toList)
    (hne : (heading ++ ":").toList ≠ structureHeading.toList) (as : List α) {r : List Char}
    (hr : structureHeading.toList ∉ splitLines r) :
    structureHeading.toList ∉ splitLines ((listSection heading encode as).toList ++ r) := by
  cases as with
  | nil => exact hr
  | cons a as =>
    have hlist := structureHeading_not_mem_listText hencode (a :: as)
    have hempty : structureHeading.toList ≠ [] := by simp [structureHeading]
    rw [listSection_cons_append, Text.splitLines_cons_newline, Text.splitLines_append,
      Text.splitLines_of_not_mem hbreak, Text.splitLines_append]
    simp only [List.mem_cons, List.mem_append, List.not_mem_nil, or_false, not_or]
    exact ⟨hempty, hne.symm, hlist, hr⟩

end Sections

/-! ## Prompts -/

/-- What stands in a prompt behind the section on files. -/
def arithmeticText (o : Cobol.Outline) : List Char :=
  (listSection "ARITHMETIC OPERATIONS" Cobol.Statement.toJson
    (o.statements.filter (fun s => s.action.isArithmetic))).toList ++ programTask.toList

/-- What stands in a prompt behind the section on control flow. -/
def fileText (o : Cobol.Outline) : List Char :=
  (listSection "FILE OPERATIONS" Cobol.FileOperation.toJson o.fileOperations).toList
    ++ arithmeticText o

/-- What stands in a prompt behind the statements. -/
def flowText (o : Cobol.Outline) : List Char :=
  (listSection "CONTROL FLOW STRUCTURE" Cobol.ControlFlow.toJson o.controlFlow).toList
    ++ fileText o

/-- What stands in a prompt behind the heading of the structure. -/
def structureText (o : Cobol.Outline) : List Char :=
  (listText Cobol.Statement.toJson o.statements).toList ++ '\n' :: flowText o

theorem toList_ofProgram (o : Cobol.Outline) :
    (ofProgram o).toList = (programRules ++ "\nCOBOL PROGRAM NAME:\n").toList
      ++ (o.displayName.toList
        ++ '\n' :: '\n' :: (structureHeading.toList ++ '\n' :: structureText o)) := by
  simp [ofProgram, structureText, flowText, fileText, arithmeticText, structureHeading,
    String.toList_append]

theorem structureHeading_not_mem_task :
    structureHeading.toList ∉ splitLines programTask.toList := by
  rw [programTask, splitLines_unlines (by simp), List.mem_append, List.mem_map, List.mem_singleton]
  intro hmem
  rcases hmem with ⟨line, hline, heq⟩ | hempty
  · rw [String.toList_inj.1 heq] at hline
    exact absurd hline (by decide)
  · exact absurd hempty (by simp [structureHeading])

theorem structureHeading_not_mem (o : Cobol.Outline) :
    structureHeading.toList ∉ splitLines (structureText o) := by
  rw [structureText, Text.splitLines_append, List.mem_append, not_or]
  refine ⟨structureHeading_not_mem_listText faithful_statement _, ?_⟩
  refine structureHeading_not_mem_listSection faithful_controlFlow (by simp)
    (by simp [structureHeading]) _ ?_
  refine structureHeading_not_mem_listSection faithful_fileOperation (by simp)
    (by simp [structureHeading]) _ ?_
  exact structureHeading_not_mem_listSection faithful_statement (by simp)
    (by simp [structureHeading]) _ structureHeading_not_mem_task

/-- The name ends above the last line with the heading of the structure. -/
theorem name_and_structure_inj {a b : Cobol.Outline} (h : ofProgram a = ofProgram b) :
    a.displayName = b.displayName ∧ structureText a = structureText b := by
  have hlines : ∀ o : Cobol.Outline,
      splitLines (o.displayName.toList
          ++ '\n' :: '\n' :: (structureHeading.toList ++ '\n' :: structureText o))
        = (splitLines o.displayName.toList ++ [[]])
          ++ structureHeading.toList :: splitLines (structureText o) := by
    intro o
    have hbreak : '\n' ∉ structureHeading.toList := by simp [structureHeading]
    rw [Text.splitLines_append, Text.splitLines_cons_newline, Text.splitLines_append,
      Text.splitLines_of_not_mem hbreak, List.append_assoc]
    rfl
  have hchars := congrArg String.toList h
  rw [toList_ofProgram, toList_ofProgram] at hchars
  have hsplit := congrArg splitLines (List.append_cancel_left hchars)
  rw [hlines, hlines] at hsplit
  obtain ⟨hname, hstructure⟩ :=
    append_last_inj hsplit (structureHeading_not_mem a) (structureHeading_not_mem b)
  refine ⟨String.toList_inj.1 ?_, ?_⟩
  · rw [← Text.joinLines_splitLines a.displayName.toList, List.append_cancel_right hname,
      Text.joinLines_splitLines]
  · rw [← Text.joinLines_splitLines (structureText a), hstructure, Text.joinLines_splitLines]

/-- The task is headed too, behind an empty line. -/
theorem second_programTask : programTask.toList[1]? = some 'T' := by
  rw [programTask, toList_unlines_cons, toList_unlines_cons]
  generalize (Text.unlines _).toList = rest
  rfl

theorem second_arithmeticText (o : Cobol.Outline) :
    (arithmeticText o)[1]? = some 'A' ∨ (arithmeticText o)[1]? = some 'T' := by
  have hletter : "ARITHMETIC OPERATIONS".toList.head? = some 'A' := by simp
  rw [arithmeticText, second_listSection _ hletter]
  split
  next => exact .inr second_programTask
  next => exact .inl rfl

theorem second_fileText (o : Cobol.Outline) :
    (fileText o)[1]? = some 'F' ∨ (fileText o)[1]? = some 'A' ∨ (fileText o)[1]? = some 'T' := by
  have hletter : "FILE OPERATIONS".toList.head? = some 'F' := by simp
  rw [fileText, second_listSection _ hletter]
  split
  next => exact .inr (second_arithmeticText o)
  next => exact .inl rfl

theorem structureText_inj {a b : Cobol.Outline} (h : structureText a = structureText b) :
    a.statements = b.statements ∧ a.controlFlow = b.controlFlow
      ∧ a.fileOperations = b.fileOperations := by
  have hfiles : ∀ o, (fileText o)[1]? ≠ some 'C' := by
    intro o
    rcases second_fileText o with ho | ho | ho <;> rw [ho] <;> decide
  have harithmetic : ∀ o, (arithmeticText o)[1]? ≠ some 'F' := by
    intro o
    rcases second_arithmeticText o with ho | ho <;> rw [ho] <;> decide
  obtain ⟨hstatements, hflow⟩ := listText_append_inj faithful_statement h
  obtain ⟨hbranches, hfile⟩ :=
    listSection_append_inj faithful_controlFlow (by simp) (hfiles a) (hfiles b) hflow
  obtain ⟨hfileOperations, -⟩ :=
    listSection_append_inj faithful_fileOperation (by simp) (harithmetic a) (harithmetic b) hfile
  exact ⟨hstatements, hbranches, hfileOperations⟩

theorem toList_ofDeck (o : Jcl.Outline) :
    (ofDeck o).toList = (deckRules ++ "\nJCL INTERMEDIATE REPRESENTATION (IR):\n").toList
      ++ (write .pretty 0 o.toJson ++
        "\n\nProvide a clear, professional explanation of this JCL job structure.\n".toList) := by
  rw [ofDeck, String.toList_append, String.toList_append, Json.text, String.toList_ofList,
    List.append_assoc]

/-- Two prompts are the same if and only if they are about the same data: for
programs the name, the statements, the branches and the uses of files, for
decks the outline. -/
theorem prompt_eq_iff :
    (∀ a b : Cobol.Outline, ofProgram a = ofProgram b ↔
      a.displayName = b.displayName ∧ a.statements = b.statements
        ∧ a.controlFlow = b.controlFlow ∧ a.fileOperations = b.fileOperations) ∧
    ∀ a b : Jcl.Outline, ofDeck a = ofDeck b ↔ a = b := by
  refine ⟨fun a b => ⟨fun h => ?_, fun h => ?_⟩, fun a b => ⟨fun h => ?_, fun h => ?_⟩⟩
  · obtain ⟨hname, hstructure⟩ := name_and_structure_inj h
    exact ⟨hname, structureText_inj hstructure⟩
  · obtain ⟨hname, hstatements, hbranches, hfileOperations⟩ := h
    rw [ofProgram, ofProgram, hname, hstatements, hbranches, hfileOperations]
  · have hchars := congrArg String.toList h
    rw [toList_ofDeck, toList_ofDeck] at hchars
    have htext := List.append_cancel_right (List.append_cancel_left hchars)
    refine faithful_deck.injective ?_
    exact (Json.apart_write (faithful_deck.proper a) (faithful_deck.proper b) 0 [] []
      (fun _ hc => nomatch hc) (fun _ hc => nomatch hc)
      (congrArg (· ++ []) htext)).1
  · rw [h]

/-! ## The ends of a prompt -/

theorem head?_unlines {line : String} {c : Char} (h : line.toList.head? = some c)
    (lines : List String) : (Text.unlines (line :: lines)).toList.head? = some c := by
  rw [toList_unlines_cons, List.head?_append, h]
  rfl

theorem suffix_unlines {lines : List String} {line : String} (h : lines.getLast? = some line) :
    line.toList ++ ['\n'] <:+ (Text.unlines lines).toList := by
  obtain ⟨above, rfl⟩ := List.getLast?_eq_some_iff.1 h
  simp [Text.unlines, String.toList_append]

/-- Every prompt begins with its rules, and they begin with this letter. -/
theorem head?_ofOutline (o : Outline) : (ofOutline o).toList.head? = some 'Y' := by
  cases o with
  | cobol program =>
    have hrules : programRules.toList.head? = some 'Y' := head?_unlines (by simp) _
    simp only [ofOutline, ofProgram, String.toList_append, List.head?_append, hrules,
      Option.some_or]
  | jcl deck =>
    have hrules : deckRules.toList.head? = some 'Y' := head?_unlines (by simp) _
    simp only [ofOutline, ofDeck, String.toList_append, List.head?_append, hrules, Option.some_or]

/-- Every prompt ends with what is asked, and that ends with a full stop. -/
theorem suffix_ofOutline (o : Outline) : ['.', '\n'] <:+ (ofOutline o).toList := by
  cases o with
  | cobol program =>
    have hstop : ['.', '\n'] <:+
        "5. Do not mention sections that do not appear above.".toList ++ ['\n'] :=
      ⟨"5. Do not mention sections that do not appear above".toList, by simp⟩
    rw [ofOutline, ofProgram, String.toList_append]
    exact hstop.trans ((suffix_unlines rfl).trans (List.suffix_append ..))
  | jcl deck =>
    have hstop : ['.', '\n'] <:+
        "\n\nProvide a clear, professional explanation of this JCL job structure.\n".toList :=
      ⟨"\n\nProvide a clear, professional explanation of this JCL job structure".toList, by simp⟩
    rw [ofOutline, ofDeck, String.toList_append]
    exact hstop.trans (List.suffix_append ..)

/-- Trimming a prompt takes its last line feed from it and nothing else. -/
theorem trim_ofOutline (o : Outline) :
    String.ofList (Text.trim (ofOutline o).toList) ++ "\n" = ofOutline o := by
  obtain ⟨rest, hrest⟩ := List.head?_eq_some_iff.1 (head?_ofOutline o)
  obtain ⟨front, hfront⟩ := suffix_ofOutline o
  have hopens : Text.isBlank 'Y' = false := by decide
  have hends : Text.trimEnd ['.', '\n'] = ['.'] := by decide
  have htrimmed : Text.trim (ofOutline o).toList = front ++ ['.'] := by
    rw [hrest, Text.trim_cons_of_not_blank hopens, ← Text.trimEnd_cons_of_not_blank hopens,
      ← hrest, ← hfront, Text.trimEnd_append_of_ne_nil front (by rw [hends]; simp), hends]
  apply String.toList_inj.1
  rw [String.toList_append, String.toList_ofList, htrimmed, ← hfront]
  simp

end Mainframe.Prompt
