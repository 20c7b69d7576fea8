import Mainframe.Proofs.EntryLines
import Mainframe.Proofs.FieldBounds
import Mainframe.Proofs.KeptCards
import Mainframe.Proofs.DetectionCoverage
import Mainframe.Proofs.UnusedParagraphs

/-
  What the texts in an outline are made of.

  Names are runs of capitals, digits and hyphens. Other fields are whatever
  stands between two parts of a phrase, so they are bounded by what ends them:
  no full stop or THEN that would end a field stands behind its first
  character. The first character may be one, as a field is never empty. The
  condition of an IF opens with no blank, since a normalized line ends with
  none: a gap gives a blank back only if nothing but blanks is left.

  What is proved:
    1. `endsWithout_normalized`: no normalized line ends with a blank.
    2. `isReadFrom_of_action?` and `isReadFrom_of_branch?`: what is read from a
       line is made of parts of the line, within the bounds of its verb.
    3. `isSpelled_of_mem_dataItems` and `isSpelled_of_mem_paragraphs`: what data
       items and labels are made of.
    4. `outline_isSpelled`: the texts in the outline of a source.
-/

namespace Mainframe.Text

/-! ## Lines without blanks at the end -/

theorem upperRuns_not_blank : ∀ run ∈ upperRuns, ∀ n ∈ blankCodes,
    n < run.target ∨ run.target + (run.last - run.first) < n := by decide +kernel

theorem upperExpansions_not_blank : ∀ e ∈ upperExpansions, ∀ n ∈ e.2,
    isBlank (Char.ofNat n) = false := by decide +kernel

theorem upperRun_not_blank {run : UpperRun} (hrun : run ∈ upperRuns) {n : Nat}
    (hn : run.holds n = true) : isBlank (Char.ofNat (run.target + (n - run.first))) = false := by
  rw [← Bool.not_eq_true]
  intro hblank
  have hcode := mem_blankCodes_of_isBlank hblank
  have hpos : ∀ m ∈ blankCodes, 0 < m := by decide
  have hnumber := toNat_eq_of_ofNat (hpos _ hcode) rfl
  have hout := upperRuns_not_blank run hrun _ hcode
  simp only [UpperRun.holds, Bool.and_eq_true, decide_eq_true_eq] at hn
  omega

/-- No blank comes from a character that is not blank. -/
theorem isBlank_of_mem_upperChars {c d : Char} (h : d ∈ upperChars c) (hd : isBlank d = true) :
    isBlank c = true := by
  -- ASCII, then the characters with an expansion, then those in a run, then all others
  unfold upperChars at h
  split at h
  next hascii =>
    obtain rfl := List.mem_singleton.1 h
    have hall : ∀ n < 128, isBlank (Char.ofNat n).toUpper = true →
        isBlank (Char.ofNat n) = true := by decide +kernel
    exact of_ascii (p := fun c => isBlank c.toUpper = true → isBlank c = true) hall hascii hd
  next =>
    unfold upperBeyondAscii at h
    split at h
    next e he =>
      obtain ⟨n, hn, rfl⟩ := List.mem_map.1 h
      rw [upperExpansions_not_blank e (List.mem_of_find?_eq_some he) n hn] at hd
      cases hd
    next =>
      split at h
      next run hrun =>
        have hholds : run.holds c.toNat = true :=
          List.find?_some (p := fun other : UpperRun => other.holds c.toNat) hrun
        rw [List.mem_singleton.1 h,
          upperRun_not_blank (List.mem_of_find?_eq_some hrun) hholds] at hd
        cases hd
      next => rwa [List.mem_singleton.1 h] at hd

theorem endsWithout_uppercase {s : List Char} (h : EndsWithout isBlank s) :
    EndsWithout isBlank (uppercase s) := by
  rcases List.eq_nil_or_concat' s with rfl | ⟨front, c, rfl⟩
  · exact h
  · intro d hd
    rw [← Bool.not_eq_true]
    intro hblank
    have hlast : d ∈ upperChars c := by
      rw [uppercase_append, uppercase_cons, uppercase_nil, List.append_nil, List.getLast?_append,
        List.getLast?_eq_some_getLast (upperChars_ne_nil c), Option.some_or, Option.mem_some] at hd
      rw [← hd]
      exact List.getLast_mem _
    have hc := h c (by simp)
    rw [isBlank_of_mem_upperChars hlast hblank] at hc
    cases hc

/-! ## Words -/

/-- A run has a character, and all of its characters belong to the class. -/
theorem mem_runs {p : Char → Bool} {s run : List Char} (h : run ∈ runs p s) :
    run ≠ [] ∧ ∀ c ∈ run, p c = true := by
  induction s generalizing run with
  | nil => cases h
  | cons c s ih =>
    rw [runs_cons] at h
    split at h
    next hc =>
      unfold extendRuns at h
      split at h
      next d s first others hruns =>
        have hfirst := ih (hruns ▸ List.mem_cons_self)
        split at h
        next =>
          -- the character lengthens the first run
          rcases List.mem_cons.1 h with rfl | h
          · exact ⟨List.cons_ne_nil _ _, List.forall_mem_cons.2 ⟨hc, hfirst.2⟩⟩
          · exact ih (hruns ▸ List.mem_cons_of_mem first h)
        next =>
          rcases List.mem_cons.1 h with rfl | h
          · exact ⟨List.cons_ne_nil _ _, List.forall_mem_singleton.2 hc⟩
          · exact ih (hruns ▸ h)
      next =>
        rcases List.mem_cons.1 h with rfl | h
        · exact ⟨List.cons_ne_nil _ _, List.forall_mem_singleton.2 hc⟩
        · exact ih h
    next => exact ih h

theorem mem_words {s word : List Char} (h : word ∈ words s) :
    word ≠ [] ∧ ∀ c ∈ word, isBlank c = false := by
  obtain ⟨hne, hword⟩ := mem_runs h
  exact ⟨hne, fun c hc => by simpa using hword c hc⟩

end Mainframe.Text

namespace Mainframe.Cobol

open Mainframe.Text

theorem endsWithout_of_retained {line kept : List Char} (h : retained? line = some kept) :
    EndsWithout isBlank kept := by
  unfold retained? at h
  split at h
  next => cases h
  next =>
    rw [← Option.some.inj h]
    have htrim : EndsWithout isBlank (trimEnd line) :=
      fun c hc => not_blank_of_getLast?_trimEnd (Option.mem_def.1 hc)
    exact endsWithout_uppercase (htrim.of_suffix (suffix_dropSequenceArea _))

/-- No line of a normalized text ends with a blank. -/
theorem endsWithout_normalized {source : String} {line : List Char}
    (h : line ∈ splitLines (normalize source).toList) : EndsWithout isBlank line := by
  rw [splitLines_normalize] at h
  split at h
  next =>
    rw [List.mem_singleton.1 h]
    intro c hc
    cases hc
  next =>
    obtain ⟨_, -, hkept⟩ := List.mem_filterMap.1 h
    exact endsWithout_of_retained hkept

/-! ## Bounds of a field -/

/-- The text is a name: capitals, digits and hyphens, one or more. -/
def IsName (s : List Char) : Prop := s ≠ [] ∧ ∀ c ∈ s, isNameChar c = true

/-- No full stop stands behind the first character of the text. -/
def EndsAtStop (s : List Char) : Prop := '.' ∉ s.tail

/-- The text is a condition: it opens with a character that is not blank, and
no THEN stands behind its first character. -/
structure IsCondition (s : List Char) : Prop where
  nonempty : s ≠ []
  opens : OpensWithout isBlank s
  bounded : ¬ "THEN".toList <:+: s.tail

/-- The fields of an action. -/
def Action.fields : Action → List String
  | .display value => [value]
  | .accept target => [target]
  | .move source target => [source, target]
  | .compute target expression => [target, expression]
  | .add operands result => [operands, result]
  | .multiply left right result => [left, right, result]
  | .stop => []

/-- The fields of the action keep within the bounds of its verb. -/
def Action.IsBounded : Action → Prop
  | .display value => EndsAtStop value.toList
  | .accept target => IsName target.toList
  | .move _ target => EndsAtStop target.toList
  | .compute _ expression => EndsAtStop expression.toList
  | .add _ result => EndsAtStop result.toList
  | .multiply _ _ result => EndsAtStop result.toList
  | .stop => True

/-- The fields of a branch. -/
def Branch.fields : Branch → List String
  | .conditional condition => [condition]
  | .perform target => [target]
  | .evaluate expression => [expression]
  | .goTo target => [target]

/-- The fields of the branch keep within the bounds of its verb. -/
def Branch.IsBounded : Branch → Prop
  | .conditional condition => IsCondition condition.toList
  | .perform target => EndsAtStop target.toList
  | .evaluate _ => True
  | .goTo target => IsName target.toList

/-- The action is read from the line: its fields are parts of the line and keep
within their bounds. -/
structure Action.IsReadFrom (line : List Char) (a : Action) : Prop where
  parts : ∀ field ∈ a.fields, IsPart field.toList line
  bounded : a.IsBounded

/-- The branch is read from the line: its fields are parts of the line and keep
within their bounds. -/
structure Branch.IsReadFrom (line : List Char) (b : Branch) : Prop where
  parts : ∀ field ∈ b.fields, IsPart field.toList line
  bounded : b.IsBounded

/-! ## What a line says -/

section
variable {line : List Char}

theorem spaced_atStop {s found : List Char} (h : spaced atStop s = some (found, ())) :
    IsPart found s ∧ EndsAtStop found := by
  obtain ⟨gap, here, -, -, hhere⟩ := spaced_split h
  exact ⟨(spaced_tail h).1, stop_not_mem_tail (fun t => by simp [atStop]) hhere⟩

/-- A field with a keyword behind it. -/
theorem joined_tail {α : Type} {word s found : List Char} {rest : List Char → Option α} {a : α}
    (h : spaced (gapWord word rest) s = some (found, a)) :
    IsPart found s ∧ ∃ tail, tail <:+ s ∧ rest tail = some a := by
  obtain ⟨hpart, here, hhere, hword⟩ := spaced_tail h
  obtain ⟨tail, htail, ha⟩ := gapWord_tail hword
  exact ⟨hpart, tail, htail.trans hhere, ha⟩

theorem equals_tail {α : Type} {rest : List Char → Option α} {s : List Char} {a : α}
    (h : equals rest s = some a) : ∃ tail, tail <:+ s ∧ rest tail = some a := by
  unfold equals at h
  split at h
  next => cases h
  next c here htrim =>
    split at h
    next =>
      have hsuffix : c :: here <:+ s := by
        rw [← htrim]
        exact List.dropWhile_suffix _
      exact ⟨here, (List.suffix_cons c here).trans hsuffix, h⟩
    next => cases h

theorem gapName?_bounds {s name : List Char} (h : gapName? s = some name) :
    IsPart name s ∧ IsName name := by
  obtain ⟨gap, _, -, rfl, rest, hne, hname, rfl, -⟩ := gapName?_eq_some_iff.1 h
  exact ⟨⟨hne, gap, rest, List.append_assoc ..⟩, hne, hname⟩

theorem isReadFrom_of_display? {a : Action} (h : display? line = some a) : a.IsReadFrom line := by
  obtain ⟨⟨value, _⟩, hfind, rfl⟩ := Option.map_eq_some_iff.1 h
  obtain ⟨tail, htail, hvalue⟩ := findWord?_tail (by decide) hfind
  obtain ⟨gap, here, -, -, hhere⟩ := spaced_split hvalue
  have hpart := (spaced_tail hvalue).1.of_suffix htail
  have hstop : '.' ∉ value.tail := stop_not_mem_tail (fun t => by simp [either, atStop]) hhere
  constructor
  case parts => simpa [Action.fields] using hpart
  case bounded => simpa [Action.IsBounded, EndsAtStop] using hstop

theorem isReadFrom_of_accept? {a : Action} (h : accept? line = some a) : a.IsReadFrom line := by
  obtain ⟨target, hfind, rfl⟩ := Option.map_eq_some_iff.1 h
  obtain ⟨tail, htail, htarget⟩ := findWord?_tail (by decide) hfind
  obtain ⟨hpart, hname⟩ := gapName?_bounds htarget
  constructor
  case parts => simpa [Action.fields] using hpart.of_suffix htail
  case bounded => simpa [Action.IsBounded] using hname

/-- Two fields that a keyword joins, behind a verb. -/
theorem joined_bounds {verb word left right : List Char} (hverb : verb ≠ [])
    (h : findWord? verb (spaced (gapWord word (spaced atStop))) line = some (left, right, ())) :
    IsPart left line ∧ IsPart right line ∧ EndsAtStop right := by
  obtain ⟨tail, htail, hleft⟩ := findWord?_tail hverb h
  obtain ⟨hpart, here, hhere, hright⟩ := joined_tail hleft
  obtain ⟨hpart', hstop⟩ := spaced_atStop hright
  exact ⟨hpart.of_suffix htail, hpart'.of_suffix (hhere.trans htail), hstop⟩

theorem isReadFrom_of_move? {a : Action} (h : move? line = some a) : a.IsReadFrom line := by
  obtain ⟨⟨source, target, _⟩, hfind, rfl⟩ := Option.map_eq_some_iff.1 h
  obtain ⟨hsource, htarget, hstop⟩ := joined_bounds (by decide) hfind
  constructor
  case parts => simpa [Action.fields] using ⟨hsource, htarget⟩
  case bounded => simpa [Action.IsBounded] using hstop

theorem isReadFrom_of_compute? {a : Action} (h : compute? line = some a) : a.IsReadFrom line := by
  obtain ⟨⟨target, expression, _⟩, hfind, rfl⟩ := Option.map_eq_some_iff.1 h
  obtain ⟨tail, htail, htarget⟩ := findWord?_tail (by decide) hfind
  obtain ⟨hpart, here, hhere, hequals⟩ := spaced_tail htarget
  obtain ⟨behind, hbehind, hexpression⟩ := equals_tail hequals
  obtain ⟨blanks, front, -, -, hfront⟩ := padded_split hexpression
  have hpart' := (padded_tail hexpression).1.of_suffix (hbehind.trans (hhere.trans htail))
  have hstop : '.' ∉ expression.tail := stop_not_mem_tail (fun t => by simp [atStop]) hfront
  constructor
  case parts => simpa [Action.fields] using ⟨hpart.of_suffix htail, hpart'⟩
  case bounded => simpa [Action.IsBounded, EndsAtStop] using hstop

theorem isReadFrom_of_add? {a : Action} (h : add? line = some a) : a.IsReadFrom line := by
  obtain ⟨⟨operands, result, _⟩, hfind, rfl⟩ := Option.map_eq_some_iff.1 h
  obtain ⟨hoperands, hresult, hstop⟩ := joined_bounds (by decide) hfind
  constructor
  case parts => simpa [Action.fields] using ⟨hoperands, hresult⟩
  case bounded => simpa [Action.IsBounded] using hstop

theorem isReadFrom_of_multiply? {a : Action} (h : multiply? line = some a) :
    a.IsReadFrom line := by
  obtain ⟨⟨left, right, result, _⟩, hfind, rfl⟩ := Option.map_eq_some_iff.1 h
  obtain ⟨tail, htail, hleft⟩ := findWord?_tail (by decide) hfind
  obtain ⟨hpart, here, hhere, hright⟩ := joined_tail hleft
  obtain ⟨hpart', behind, hbehind, hresult⟩ := joined_tail hright
  obtain ⟨hpart'', hstop⟩ := spaced_atStop hresult
  have hline := hhere.trans htail
  constructor
  case parts =>
    simpa [Action.fields] using ⟨hpart.of_suffix htail, hpart'.of_suffix hline,
      hpart''.of_suffix (hbehind.trans hline)⟩
  case bounded => simpa [Action.IsBounded] using hstop

theorem isReadFrom_of_stop? {a : Action} (h : stop? line = some a) : a.IsReadFrom line := by
  unfold stop? at h
  split at h
  next =>
    rw [← Option.some.inj h]
    exact ⟨by simp [Action.fields], trivial⟩
  next => cases h

/-- The statement on a line is read from the line. -/
theorem isReadFrom_of_action? {a : Action} (h : action? line = some a) : a.IsReadFrom line := by
  obtain ⟨rule, hrule, hfound⟩ := List.exists_of_findSome?_eq_some h
  simp only [statementRules, List.mem_cons, List.not_mem_nil, or_false] at hrule
  rcases hrule with rfl | rfl | rfl | rfl | rfl | rfl | rfl
  · exact isReadFrom_of_display? hfound
  · exact isReadFrom_of_accept? hfound
  · exact isReadFrom_of_move? hfound
  · exact isReadFrom_of_compute? hfound
  · exact isReadFrom_of_add? hfound
  · exact isReadFrom_of_multiply? hfound
  · exact isReadFrom_of_stop? hfound

-- the keyword and the full stop that would end the fields open them
example : action? "MOVE  TO TO .. X.".toList = some (.move "TO" ".") := by decide +kernel

theorem isReadFrom_of_conditional? (hline : EndsWithout isBlank line) {b : Branch}
    (h : conditional? line = some b) : b.IsReadFrom line := by
  obtain ⟨⟨condition, _⟩, hfind, rfl⟩ := Option.map_eq_some_iff.1 h
  obtain ⟨tail, htail, hcondition⟩ := findWord?_tail (by decide) hfind
  obtain ⟨gap, here, -, -, hhere⟩ := spaced_split hcondition
  have hpart := (spaced_tail hcondition).1.of_suffix htail
  have hopens : OpensWithout isBlank condition :=
    spaced_opensWithout rfl (hline.of_suffix htail) hcondition
  have hthen : ¬ "THEN".toList <:+: condition.tail := by
    apply not_infix_tail (by decide) _ hhere
    intro t
    rw [either, atWord, after?_append]
    exact Option.some_ne_none ()
  constructor
  case parts => simpa [Branch.fields] using hpart
  case bounded => simpa only [Branch.IsBounded, String.toList_ofList] using ⟨hpart.1, hopens, hthen⟩

theorem isReadFrom_of_perform? {b : Branch} (h : perform? line = some b) : b.IsReadFrom line := by
  obtain ⟨⟨target, _⟩, hfind, rfl⟩ := Option.map_eq_some_iff.1 h
  obtain ⟨tail, htail, htarget⟩ := findWord?_tail (by decide) hfind
  obtain ⟨hpart, hstop⟩ := spaced_atStop htarget
  constructor
  case parts => simpa [Branch.fields] using hpart.of_suffix htail
  case bounded => simpa [Branch.IsBounded] using hstop

theorem isReadFrom_of_evaluate? {b : Branch} (h : evaluate? line = some b) : b.IsReadFrom line := by
  obtain ⟨⟨expression, _⟩, hfind, rfl⟩ := Option.map_eq_some_iff.1 h
  obtain ⟨tail, htail, hexpression⟩ := findWord?_tail (by decide) hfind
  constructor
  case parts => simpa [Branch.fields] using (spaced_tail hexpression).1.of_suffix htail
  case bounded => trivial

theorem isReadFrom_of_goTo? {b : Branch} (h : goTo? line = some b) : b.IsReadFrom line := by
  obtain ⟨target, hfind, rfl⟩ := Option.map_eq_some_iff.1 h
  obtain ⟨tail, htail, hto⟩ := findWord?_tail (by decide) hfind
  obtain ⟨here, hhere, htarget⟩ := gapWord_tail hto
  obtain ⟨hpart, hname⟩ := gapName?_bounds htarget
  constructor
  case parts => simpa [Branch.fields] using hpart.of_suffix (hhere.trans htail)
  case bounded => simpa [Branch.IsBounded] using hname

/-- The branch on a line is read from the line, if the line ends with no
blank. -/
theorem isReadFrom_of_branch? (hline : EndsWithout isBlank line) {b : Branch}
    (h : branch? line = some b) : b.IsReadFrom line := by
  obtain ⟨rule, hrule, hfound⟩ := List.exists_of_findSome?_eq_some h
  simp only [branchRules, List.mem_cons, List.not_mem_nil, or_false] at hrule
  rcases hrule with rfl | rfl | rfl | rfl
  · exact isReadFrom_of_conditional? hline hfound
  · exact isReadFrom_of_perform? hfound
  · exact isReadFrom_of_evaluate? hfound
  · exact isReadFrom_of_goTo? hfound

-- a target of nothing but blanks takes one of them back, and a condition may open with a THEN
example : branch? "PERFORM  .".toList = some (.perform " ") ∧
    branch? "IF  THEN  THEN X".toList = some (.conditional "THEN  ") := by decide +kernel

theorem isName_of_performTarget? {target : List Char} (h : performTarget? line = some target) :
    IsName target := by
  obtain ⟨tail, -, htarget⟩ := findWord?_tail (by decide) h
  exact (gapName?_bounds htarget).2

end

/-! ## Declarations and labels -/

/-- What a data item is made of: two digits, a name, and a picture without
blanks and full stops. -/
structure DataItem.IsSpelled (v : DataItem) : Prop where
  twoDigits : v.level.toList.length = 2
  level : ∀ c ∈ v.level.toList, c.isDigit = true
  name : IsName v.name.toList
  pictured : v.picture.toList ≠ []
  picture : ∀ c ∈ v.picture.toList, isBlank c = false ∧ c ≠ '.'

/-- What the label of a paragraph is made of: a name that opens with a capital
letter, does not hold SECTION and ends no scope. -/
structure Paragraph.IsSpelled (p : Paragraph) : Prop where
  name : IsName p.name.toList
  opens : ∃ c ∈ p.name.toList.head?, c.isUpper = true
  noSection : ¬ "SECTION".toList <:+: p.name.toList
  noScopeEnd : p.name ∉ ["END-IF", "ELSE", "END-PERFORM"]

theorem mem_tokens {lines : List (List Char)} {t : Token} (h : t ∈ tokens lines) :
    t.word ≠ [] ∧ ∀ c ∈ t.word, isBlank c = false := by
  obtain ⟨line, -, ht⟩ := List.mem_flatMap.1 h
  have hword : t.word ∈ words line := by
    unfold lineTokens at ht
    split at ht
    next => cases ht
    next first others hwords =>
      rw [hwords]
      rcases List.mem_cons.1 ht with rfl | ht
      · exact List.mem_cons_self
      · obtain ⟨w, hw, rfl⟩ := List.mem_map.1 ht
        exact List.mem_cons_of_mem first hw
  exact mem_words hword

theorem twoDigits_of_isLevel {w : List Char} (h : isLevel w = true) :
    w.length = 2 ∧ ∀ c ∈ w, c.isDigit = true := by
  unfold isLevel at h
  split at h
  next a b => simpa using h
  next => cases h

theorem isSpelled_of_mem_dataItems {lines : List (List Char)} {v : DataItem}
    (h : v ∈ dataItems (tokens lines)) : v.IsSpelled := by
  rw [dataItems_eq_filterMap] at h
  obtain ⟨e, he, hitem⟩ := List.mem_filterMap.1 h
  have hwithin := (mem_entries he).1.subset
  have hname := mem_tokens (hwithin (show e.name ∈ e.tokens by simp [Entry.tokens]))
  have hpicture := mem_tokens (hwithin (show e.picture ∈ e.tokens by simp [Entry.tokens]))
  unfold Entry.item? dataItem? at hitem
  split at hitem
  next hall =>
    simp only [Bool.and_eq_true, Bool.not_eq_true', List.isEmpty_eq_false_iff] at hall
    obtain ⟨⟨⟨⟨-, hlevel⟩, hnamed⟩, -⟩, hpictured⟩ := hall
    rw [← Option.some.inj hitem]
    constructor <;> simp only [String.toList_ofList]
    case twoDigits => exact (twoDigits_of_isLevel hlevel).1
    case level => exact (twoDigits_of_isLevel hlevel).2
    case name => exact ⟨hname.1, List.all_eq_true.1 hnamed⟩
    case pictured => exact hpictured
    case picture =>
      intro c hc
      have hword := hpicture.2 c ((List.takeWhile_sublist _).subset hc)
      have hfront := List.mem_takeWhile_imp hc
      exact ⟨hword, by simpa using hfront⟩
  next => cases hitem

theorem label?_bounds {line name : List Char} (h : label? line = some name) :
    IsPart name line ∧ IsName name ∧ ∃ c ∈ name.head?, c.isUpper = true := by
  unfold label? at h
  split at h
  next c others rest hname =>
    split at h
    next hcapital =>
      obtain rfl := Option.some.inj h
      obtain ⟨hne, hchars, hline, -⟩ := name?_eq_some_iff.1 hname
      have hinside : c :: others <:+: trimStart line := by
        rw [hline]
        exact (List.prefix_append _ _).isInfix
      rw [Bool.and_eq_true] at hcapital
      exact ⟨⟨hne, hinside.trans (List.dropWhile_suffix _).isInfix⟩, ⟨hne, hchars⟩, c, rfl,
        hcapital.1⟩
    next => cases h
  next => cases h

theorem isSpelled_of_mem_paragraphs {lines : List NumberedLine} {p : Paragraph}
    (h : p ∈ paragraphs false lines) : p.IsSpelled := by
  rw [paragraphs, mem_collect] at h
  obtain ⟨line, -, name, hfound, rfl⟩ := h
  unfold paragraphName? at hfound
  split at hfound
  next => cases hfound
  next hnot =>
    obtain ⟨hlabel, hscope⟩ := Option.filter_eq_some_iff.1 hfound
    obtain ⟨hpart, hname, hopens⟩ := label?_bounds hlabel
    rw [Bool.or_eq_true, contains_iff, not_or] at hnot
    constructor <;> simp only [String.toList_ofList]
    case name => exact hname
    case opens => exact hopens
    case noSection => exact fun hsection => hnot.2 (hsection.trans hpart.2)
    case noScopeEnd =>
      intro hmem
      have hend : name ∈ ["END-IF", "ELSE", "END-PERFORM"].map String.toList := by
        have hchars := List.mem_map_of_mem (f := String.toList) hmem
        rwa [String.toList_ofList] at hchars
      rw [Bool.not_eq_true', ← Bool.not_eq_true, List.contains_iff_mem] at hscope
      exact hscope hend

theorem isName_of_programId? {text id : List Char} (h : programId? text = some id) : IsName id := by
  obtain ⟨n, -, hfound, -⟩ := leftmost_eq_some_iff.1 h
  obtain ⟨here, -, hid⟩ := Option.bind_eq_some_iff.1 hfound
  exact (gapName?_bounds hid).2

/-! ## Outlines -/

/-- Every text in the outline. -/
def Outline.texts (o : Outline) : List String :=
  o.programId.toList ++ o.dataItems.flatMap (fun v => [v.level, v.name, v.picture])
    ++ o.paragraphs.flatMap (fun p => [p.id, p.name])
    ++ o.statements.flatMap (fun s => s.id :: s.action.fields)
    ++ o.controlFlow.flatMap (fun c => c.id :: c.branch.fields)
    ++ o.conditions ++ o.performs.flatMap (fun p => [p.id, p.target]) ++ o.warnings

/-- The number is that of the line. -/
def IsLine (lines : List (List Char)) (n : Nat) (line : List Char) : Prop :=
  1 ≤ n ∧ lines[n - 1]? = some line

/-- What the texts of an outline are made of. A statement and a branch are read
from the line whose number they have, and no text has a line feed in it. -/
structure Outline.IsSpelled (lines : List (List Char)) (o : Outline) : Prop where
  programId : ∀ id ∈ o.programId, IsName id.toList
  dataItems : ∀ v ∈ o.dataItems, v.IsSpelled
  paragraphs : ∀ p ∈ o.paragraphs, p.IsSpelled
  statements : ∀ s ∈ o.statements, ∃ line, IsLine lines s.line line ∧ s.action.IsReadFrom line
  controlFlow : ∀ c ∈ o.controlFlow, ∃ line, IsLine lines c.line line ∧ c.branch.IsReadFrom line
  conditions : ∀ c ∈ o.conditions, IsCondition c.toList
  performs : ∀ p ∈ o.performs, IsName p.target.toList
  oneLine : ∀ text ∈ o.texts, '\n' ∉ text.toList

theorem isLine_of_mem_numbered {lines : List (List Char)} {line : NumberedLine}
    (h : line ∈ numbered 0 lines) : IsLine lines line.2 line.1 :=
  ⟨(List.mk_mem_zipIdx_iff_le_and_getElem?_sub.1 h).1, getElem?_of_mem_numbered h⟩

theorem IsLine.unique {lines : List (List Char)} {n : Nat} {line line' : List Char}
    (h : IsLine lines n line) (h' : IsLine lines n line') : line = line' :=
  Option.some.inj (h.2.symm.trans h'.2)

theorem mem_numbered_of_isLine {lines : List (List Char)} {n : Nat} {line : List Char}
    (h : IsLine lines n line) : (line, n) ∈ numbered 0 lines :=
  List.mk_mem_zipIdx_iff_le_and_getElem?_sub.2 h

theorem exists_isLine_of_mem {lines : List (List Char)} {line : List Char} (h : line ∈ lines) :
    ∃ n, IsLine lines n line := by
  obtain ⟨k, hk, rfl⟩ := List.getElem_of_mem h
  exact ⟨k + 1, Nat.le_add_left 1 k, List.getElem?_eq_getElem hk⟩

theorem IsName.newline_not_mem {s : List Char} (h : IsName s) : '\n' ∉ s :=
  fun hmem => absurd (h.2 _ hmem) (by decide)

theorem DataItem.IsSpelled.newline_not_mem {v : DataItem} (h : v.IsSpelled) :
    ∀ text ∈ [v.level, v.name, v.picture], '\n' ∉ text.toList := by
  simp only [List.mem_cons, List.not_mem_nil, or_false, forall_eq_or_imp, forall_eq]
  refine ⟨fun hmem => ?_, h.name.newline_not_mem, fun hmem => ?_⟩
  · exact absurd (h.level _ hmem) (by decide)
  · exact absurd (h.picture _ hmem).1 (by decide)

theorem newline_not_mem_toString (n : Nat) : '\n' ∉ (toString n).toList := by
  rw [Nat.toString_eq_repr, Nat.toList_repr]
  exact fun hmem => absurd (Nat.isDigit_of_mem_toDigits (by omega) (by omega) hmem) (by decide)

/-- An id made of a stem and a number, and the fields beside it. -/
theorem newline_not_mem_record {stem id : String} {n : Nat} {fields : List String}
    (hid : id = stem ++ toString n) (hstem : '\n' ∉ stem.toList)
    (hfields : ∀ field ∈ fields, '\n' ∉ field.toList) :
    ∀ text ∈ id :: fields, '\n' ∉ text.toList := by
  rw [List.forall_mem_cons, hid, String.toList_append, List.mem_append, not_or]
  exact ⟨⟨hstem, newline_not_mem_toString n⟩, hfields⟩

section
variable (source : String)

theorem warnings_outline : ∀ w ∈ (outline source).warnings, w = Outline.declarativeWarning := by
  intro w hw
  rw [outline, warnings_checked rfl] at hw
  split at hw
  next => exact List.mem_singleton.1 hw
  next => cases hw

theorem isName_of_mem_programId {id : String} (h : id ∈ (outline source).programId) :
    IsName id.toList := by
  rw [programId_outline] at h
  obtain ⟨found, hfound, rfl⟩ := Option.map_eq_some_iff.1 h
  rw [String.toList_ofList]
  exact isName_of_programId? hfound

theorem isSpelled_dataItems : ∀ v ∈ (outline source).dataItems, v.IsSpelled := by
  rw [dataItems_outline]
  exact fun v hv => isSpelled_of_mem_dataItems hv

theorem isSpelled_paragraphs : ∀ p ∈ (outline source).paragraphs, p.IsSpelled := by
  rw [paragraphs_outline]
  exact fun p hp => isSpelled_of_mem_paragraphs hp

theorem isReadFrom_statements {s : Statement} (h : s ∈ (outline source).statements) :
    ∃ line, IsLine (splitLines (normalize source).toList) s.line line ∧
      s.action.IsReadFrom line := by
  rw [statements_outline, statements, mem_collect] at h
  obtain ⟨line, hline, action, hfound, rfl⟩ := h
  exact ⟨line.1, isLine_of_mem_numbered hline, isReadFrom_of_action? hfound⟩

theorem isReadFrom_controlFlow {c : ControlFlow} (h : c ∈ (outline source).controlFlow) :
    ∃ line, IsLine (splitLines (normalize source).toList) c.line line ∧
      c.branch.IsReadFrom line := by
  rw [controlFlow_outline, controlFlow, mem_collect] at h
  obtain ⟨line, hline, branch, hfound, rfl⟩ := h
  have hat := isLine_of_mem_numbered hline
  have hend := endsWithout_normalized (List.mem_of_getElem? hat.2)
  exact ⟨line.1, hat, isReadFrom_of_branch? hend hfound⟩

theorem exists_of_mem_conditions {condition : String}
    (h : condition ∈ (outline source).conditions) :
    ∃ c ∈ (outline source).controlFlow, c.branch = .conditional condition := by
  rw [conditions_eq_filterMap] at h
  obtain ⟨c, hc, hcondition⟩ := List.mem_filterMap.1 h
  refine ⟨c, hc, ?_⟩
  cases hbranch : c.branch with
  | conditional other =>
    rw [hbranch] at hcondition
    rw [← Option.some.inj hcondition]
  | perform | evaluate | goTo =>
    rw [hbranch] at hcondition
    cases hcondition

theorem isCondition_of_mem_conditions {condition : String}
    (h : condition ∈ (outline source).conditions) : IsCondition condition.toList := by
  obtain ⟨c, hc, hbranch⟩ := exists_of_mem_conditions source h
  obtain ⟨line, -, hread⟩ := isReadFrom_controlFlow source hc
  have hbounded := hread.bounded
  rwa [hbranch] at hbounded

theorem isName_of_mem_performs {p : Perform} (h : p ∈ (outline source).performs) :
    IsName p.target.toList := by
  rw [performs_outline, performs, mem_collect] at h
  obtain ⟨line, -, target, hfound, rfl⟩ := h
  rw [String.toList_ofList]
  exact isName_of_performTarget? hfound

/-- A part of a line of the normalized text has no line feed in it. -/
theorem newline_not_mem_of_isPart {n : Nat} {line part : List Char}
    (hline : IsLine (splitLines (normalize source).toList) n line) (hpart : IsPart part line) :
    '\n' ∉ part :=
  fun hmem => newline_not_mem_splitLines _ line (List.mem_of_getElem? hline.2)
    (hpart.2.subset hmem)

theorem newline_not_mem_statement {s : Statement} (hs : s ∈ (outline source).statements) :
    ∀ text ∈ s.id :: s.action.fields, '\n' ∉ text.toList := by
  obtain ⟨line, hline, hread⟩ := isReadFrom_statements source hs
  apply newline_not_mem_record ((isLedger_statements source).ids s hs) (by decide)
  exact fun field h => newline_not_mem_of_isPart source hline (hread.parts field h)

theorem newline_not_mem_controlFlow {c : ControlFlow} (hc : c ∈ (outline source).controlFlow) :
    ∀ text ∈ c.id :: c.branch.fields, '\n' ∉ text.toList := by
  obtain ⟨line, hline, hread⟩ := isReadFrom_controlFlow source hc
  apply newline_not_mem_record ((isLedger_controlFlow source).ids c hc) (by decide)
  exact fun field h => newline_not_mem_of_isPart source hline (hread.parts field h)

theorem newline_not_mem_paragraph {p : Paragraph} (hp : p ∈ (outline source).paragraphs) :
    ∀ text ∈ [p.id, p.name], '\n' ∉ text.toList := by
  apply newline_not_mem_record ((isLedger_paragraphs source).ids p hp) (by decide)
  exact List.forall_mem_singleton.2 (isSpelled_paragraphs source p hp).name.newline_not_mem

theorem newline_not_mem_perform {p : Perform} (hp : p ∈ (outline source).performs) :
    ∀ text ∈ [p.id, p.target], '\n' ∉ text.toList := by
  apply newline_not_mem_record ((isLedger_performs source).ids p hp) (by decide)
  exact List.forall_mem_singleton.2 (isName_of_mem_performs source hp).newline_not_mem

/-- No text in the outline of a source has a line feed in it. -/
theorem newline_not_mem_texts : ∀ text ∈ (outline source).texts, '\n' ∉ text.toList := by
  simp only [Outline.texts, List.forall_mem_append, List.forall_mem_flatMap]
  refine ⟨⟨⟨⟨⟨⟨⟨?programId, ?dataItems⟩, ?paragraphs⟩, ?statements⟩, ?controlFlow⟩,
    ?conditions⟩, ?performs⟩, ?warnings⟩
  case programId =>
    exact fun id h => (isName_of_mem_programId source (Option.mem_toList.1 h)).newline_not_mem
  case dataItems => exact fun v hv => (isSpelled_dataItems source v hv).newline_not_mem
  case paragraphs => exact fun p hp => newline_not_mem_paragraph source hp
  case statements => exact fun s hs => newline_not_mem_statement source hs
  case controlFlow => exact fun c hc => newline_not_mem_controlFlow source hc
  case conditions =>
    intro condition h
    obtain ⟨c, hc, hbranch⟩ := exists_of_mem_conditions source h
    apply newline_not_mem_controlFlow source hc
    rw [hbranch]
    exact List.mem_cons_of_mem _ List.mem_cons_self
  case performs => exact fun p hp => newline_not_mem_perform source hp
  case warnings =>
    intro w hw
    rw [warnings_outline source w hw]
    decide

/-- The texts in the outline of a source are made as the fields demand. -/
theorem outline_isSpelled :
    (outline source).IsSpelled (splitLines (normalize source).toList) := by
  constructor
  case programId => exact fun id h => isName_of_mem_programId source h
  case dataItems => exact isSpelled_dataItems source
  case paragraphs => exact isSpelled_paragraphs source
  case statements => exact fun s h => isReadFrom_statements source h
  case controlFlow => exact fun c h => isReadFrom_controlFlow source h
  case conditions => exact fun c h => isCondition_of_mem_conditions source h
  case performs => exact fun p h => isName_of_mem_performs source h
  case oneLine => exact newline_not_mem_texts source

end

end Mainframe.Cobol
