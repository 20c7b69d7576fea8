import Mainframe.Proofs.WholeKeywords

/-
  Where the condition of an IF ends.

  A condition is what stands behind the first IF with a gap, up to the next
  place where the letters of THEN stand, or up to the end of the line. The
  letters may be a part of a longer word, of a name such as STRENGTHEN-SW or
  AUTHENTICATED, and then the condition is cut short in the middle of the name.
  A field is never empty, so the letters right behind the gap do not end it.

  What is proved:
    1. `field_eq_take_iff`: the end of a field, by places.
    2. `findWord?_spaced_iff`: a field behind a keyword begins behind the first
       keyword with a gap, if the field may go on to the end of the line.
    3. `mem_controlFlow_conditional_iff`: the IFs on record and their
       conditions.
    4. `conditions_whole_iff`: what the conditions of a source are, and when all
       of them end at whole words.
    5. `condition_cut_in_name`: a condition that is cut short in a name.
-/

namespace Mainframe.Text

variable {α : Type}

/-! ## Where a field ends -/

/-- A field ends at the first place behind its first character at which the rest
of the phrase fits. -/
theorem field_eq_take_iff {rest : List Char → Option α} {s found : List Char} {a : α} :
    field rest s = some (found, a) ↔
      ∃ e, 1 ≤ e ∧ e ≤ s.length ∧ found = s.take e ∧ rest (s.drop e) = some a ∧
        ∀ m, 1 ≤ m → m < e → rest (s.drop m) = none := by
  rw [field_eq_some_iff]
  constructor
  · rintro ⟨tail, rfl, hne, ha, hearly⟩
    have hpos : 1 ≤ found.length := List.length_pos_iff.2 hne
    refine ⟨found.length, hpos, by simp, List.take_left.symm, by rwa [List.drop_left], ?_⟩
    intro m hm hlt
    rw [List.drop_append_of_le_length (Nat.le_of_lt hlt)]
    apply hearly (found.take m) (found.drop m) (List.take_append_drop m found).symm
    · exact List.ne_nil_of_length_pos (by rw [List.length_take]; omega)
    · exact List.ne_nil_of_length_pos (by rw [List.length_drop]; omega)
  · rintro ⟨e, hpos, hwithin, rfl, ha, hearly⟩
    have hlength : (s.take e).length = e := List.length_take_of_le hwithin
    refine ⟨s.drop e, (List.take_append_drop e s).symm, ?_, ha, ?_⟩
    · exact List.ne_nil_of_length_pos (by omega)
    · intro short long hsplit hshort hlong
      have hparts : short.length + long.length = e := by
        rw [← List.length_append, ← hsplit, hlength]
      have hdrop : s.drop short.length = long ++ s.drop e := by
        conv_lhs => rw [← List.take_append_drop e s, hsplit, List.append_assoc]
        exact List.drop_left
      have hlongPos := List.length_pos_iff.2 hlong
      rw [← hdrop]
      exact hearly _ (List.length_pos_iff.2 hshort) (by omega)

/-- The first end from `start` on: the first place that stops the text, or the
end of the text if there is none. -/
structure IsFirstEnd (stops : Nat → Prop) (start : Nat) (s : List Char) (e : Nat) : Prop where
  fromStart : start ≤ e
  within : e ≤ s.length
  stopped : e < s.length → stops e
  first : ∀ m, start ≤ m → m < e → ¬ stops m

/-- Where fewer places stop the text, its first end stays the same if and only if
the text is still stopped there, and is not stopped at the front. -/
theorem IsFirstEnd.narrow_iff {wide narrow : Nat → Prop} (hsub : ∀ n, narrow n → wide n)
    {s : List Char} {e : Nat} (h : IsFirstEnd wide 1 s e) :
    IsFirstEnd narrow 0 s e ↔ ¬ narrow 0 ∧ (e < s.length → narrow e) := by
  constructor
  · intro hnarrow
    exact ⟨hnarrow.first 0 (Nat.le_refl 0) h.fromStart, hnarrow.stopped⟩
  · rintro ⟨hfront, hstopped⟩
    refine ⟨Nat.zero_le e, h.within, hstopped, fun m _ hlt => ?_⟩
    rcases Nat.eq_zero_or_pos m with rfl | hpos
    · exact hfront
    · exact fun hm => h.first m hpos hlt (hsub m hm)

theorem either_atWord_eq_some_iff {word s : List Char} :
    either (atWord word) atEnd s = some () ↔ word <+: s ∨ s = [] := by
  have hend : atEnd s = some () ↔ s = [] := by cases s <;> simp [atEnd]
  rw [← startsWith_iff, ← hend, either, atWord, startsWith]
  cases after? word s <;> simp

theorem either_atWord_eq_none_iff {word s : List Char} :
    either (atWord word) atEnd s = none ↔ ¬ word <+: s ∧ s ≠ [] := by
  rw [← not_or, ← either_atWord_eq_some_iff]
  cases either (atWord word) atEnd s <;> simp

/-- The field in front of a word, or of the end of the text. -/
theorem field_either_atWord_iff {word s found : List Char} :
    field (either (atWord word) atEnd) s = some (found, ()) ↔
      ∃ e, IsFirstEnd (fun m => word <+: s.drop m) 1 s e ∧ found = s.take e := by
  simp only [field_eq_take_iff, either_atWord_eq_some_iff, either_atWord_eq_none_iff, ne_eq,
    List.drop_eq_nil_iff]
  constructor
  · rintro ⟨e, hpos, hwithin, hfound, hend, hearly⟩
    refine ⟨e, ⟨hpos, hwithin, ?_, fun m hm hlt => (hearly m hm hlt).1⟩, hfound⟩
    intro hlt
    exact hend.resolve_right (Nat.not_le_of_lt hlt)
  · rintro ⟨e, ⟨hpos, hwithin, hstopped, hfirst⟩, hfound⟩
    refine ⟨e, hpos, hwithin, hfound, ?_, fun m hm hlt => ⟨hfirst m hm hlt, by omega⟩⟩
    rcases Nat.lt_or_ge e s.length with hlt | hge
    · exact .inl (hstopped hlt)
    · exact .inr hge

/-! ## Behind a keyword and a gap -/

/-- The text stands behind the word and the gap that follows it, and the word
stands apart at the place. -/
structure StandsBehind (word line : List Char) (n : Nat) (text : List Char) : Prop where
  apart : IsApart line n
  gap : ∃ gap, IsGap gap ∧ line.drop n = word ++ (gap ++ text)
  opens : OpensWithout isBlank text

/-- The text stands behind the first such word of the line. -/
def Follows (word line text : List Char) : Prop :=
  ∃ n, StandsBehind word line n text ∧ ∀ m < n, ∀ other, ¬ StandsBehind word line m other

theorem fitsAt_gap?_iff {word line text : List Char} {n : Nat} :
    FitsAt word gap? line n text ↔ StandsBehind word line n text := by
  simp only [FitsAt, gap?_eq_some_iff]
  constructor
  · rintro ⟨hapart, _, hdrop, gap, hgap, rfl, hopens⟩
    exact ⟨hapart, ⟨gap, hgap, hdrop⟩, hopens⟩
  · rintro ⟨hapart, ⟨gap, hgap, hdrop⟩, hopens⟩
    exact ⟨hapart, _, hdrop, gap, hgap, rfl, hopens⟩

theorem follows_iff {word line text : List Char} (hne : word ≠ []) :
    Follows word line text ↔ findWord? word gap? line = some text := by
  simp only [findWord?_eq_some_iff hne, fitsAt_gap?_iff, Follows]

theorem Follows.unique {word line text text' : List Char} (hne : word ≠ [])
    (h : Follows word line text) (h' : Follows word line text') : text = text' :=
  Option.some.inj (((follows_iff hne).1 h).symm.trans ((follows_iff hne).1 h'))

section
variable {rest : List Char → Option α} (hend : (rest []).isSome)
include hend

/-- Behind a gap there is a field, if it may go on to the end of the text and
the text ends with no blank. -/
theorem isSome_field_of_gap? {s here : List Char} (hlast : EndsWithout isBlank s)
    (h : gap? s = some here) : (field rest here).isSome := by
  obtain ⟨gap, ⟨hne, hblank⟩, rfl, -⟩ := gap?_eq_some_iff.1 h
  have hhere : here ≠ [] := by
    rintro rfl
    rw [List.append_nil] at hlast
    have hfree := hlast _ (List.getLast?_eq_some_getLast hne)
    rw [hblank _ (List.getLast_mem hne)] at hfree
    cases hfree
  have hsome : (field rest (here ++ [])).isSome := isSome_field hhere hend
  rwa [List.append_nil] at hsome

/-- Such a field begins behind the whole gap. -/
theorem spaced_eq_bind {s : List Char} (hlast : EndsWithout isBlank s) :
    spaced rest s = (gap? s).bind (field rest) := by
  cases hgap : gap? s with
  | none =>
    cases s with
    | nil => rfl
    | cons c s =>
      rw [gap?] at hgap
      split at hgap
      next => cases hgap
      next hc => rw [spaced, if_neg hc, Option.bind_none]
  | some here =>
    obtain ⟨f, hf⟩ := Option.isSome_iff_exists.1 (isSome_field_of_gap? hend hlast hgap)
    obtain ⟨gap, hblanks, rfl, hopens⟩ := gap?_eq_some_iff.1 hgap
    rw [spaced_of_gap hblanks hopens hf, Option.bind_some, hf]

theorem fitsAt_spaced_iff {word line : List Char} (hline : EndsWithout isBlank line) {n : Nat}
    {f : List Char × α} :
    FitsAt word (spaced rest) line n f ↔
      ∃ text, FitsAt word gap? line n text ∧ field rest text = some f := by
  have hspaced : ∀ tail, line.drop n = word ++ tail →
      spaced rest tail = (gap? tail).bind (field rest) := by
    intro tail hdrop
    exact spaced_eq_bind hend (hline.of_suffix (suffix_of_drop_eq hdrop))
  constructor
  · rintro ⟨hapart, tail, hdrop, hf⟩
    rw [hspaced tail hdrop] at hf
    obtain ⟨text, htext, hfield⟩ := Option.bind_eq_some_iff.1 hf
    exact ⟨text, ⟨hapart, tail, hdrop, htext⟩, hfield⟩
  · rintro ⟨text, ⟨hapart, tail, hdrop, htext⟩, hfield⟩
    refine ⟨hapart, tail, hdrop, ?_⟩
    rw [hspaced tail hdrop, htext, Option.bind_some, hfield]

/-- A field that may go on to the end of the line is read behind the first
keyword with a gap, if the line ends with no blank. -/
theorem findWord?_spaced_iff {word line : List Char} (hne : word ≠ [])
    (hline : EndsWithout isBlank line) {f : List Char × α} :
    findWord? word (spaced rest) line = some f ↔
      ∃ text, Follows word line text ∧ field rest text = some f := by
  -- where a gap stands behind the keyword, there is a field as well
  have hfield : ∀ m text, FitsAt word gap? line m text →
      ∃ f, FitsAt word (spaced rest) line m f := by
    rintro m text ⟨hapart, tail, hdrop, htext⟩
    have hlast := hline.of_suffix (suffix_of_drop_eq hdrop)
    obtain ⟨f, hf⟩ := Option.isSome_iff_exists.1 (isSome_field_of_gap? hend hlast htext)
    exact ⟨f, (fitsAt_spaced_iff hend hline).2 ⟨text, ⟨hapart, tail, hdrop, htext⟩, hf⟩⟩
  simp only [findWord?_eq_some_iff hne, follows_iff hne]
  constructor
  · rintro ⟨n, hfits, hfirst⟩
    obtain ⟨text, htext, hf⟩ := (fitsAt_spaced_iff hend hline).1 hfits
    refine ⟨text, ⟨n, htext, fun m hm other hother => ?_⟩, hf⟩
    obtain ⟨f, hfits⟩ := hfield m other hother
    exact hfirst m hm f hfits
  · rintro ⟨text, ⟨n, htext, hfirst⟩, hf⟩
    refine ⟨n, (fitsAt_spaced_iff hend hline).2 ⟨text, htext, hf⟩, fun m hm f hfits => ?_⟩
    obtain ⟨other, hother, -⟩ := (fitsAt_spaced_iff hend hline).1 hfits
    exact hfirst m hm other hother

end

end Mainframe.Text

namespace Mainframe.Cobol

open Mainframe.Text

/-! ## The condition of an IF -/

/-- The letters of THEN stand at the place. -/
def ThenAt (text : List Char) (n : Nat) : Prop := "THEN".toList <+: text.drop n

/-- THEN stands at the place as a whole word. -/
def WholeThenAt (text : List Char) (n : Nat) : Prop :=
  StandsAlone isWordPart "THEN".toList text n

instance (text : List Char) (n : Nat) : Decidable (WholeThenAt text n) :=
  inferInstanceAs (Decidable (StandsAlone _ _ _ _))

theorem WholeThenAt.letters {text : List Char} {n : Nat} (h : WholeThenAt text n) :
    ThenAt text n := by
  obtain ⟨tail, hdrop, -⟩ := h.behind
  exact ⟨tail, hdrop.symm⟩

/-- The condition is what stands behind the IF of the line, up to the first
place from `start` on that stops it, or up to the end of the line. -/
def IsReadUpTo (stops : List Char → Nat → Prop) (start : Nat) (line condition : List Char) :
    Prop :=
  ∃ text e, Follows "IF".toList line text ∧ IsFirstEnd (stops text) start text e ∧
    condition = text.take e

theorem conditional?_eq_some_iff {line : List Char} (hline : EndsWithout isBlank line)
    {condition : String} :
    conditional? line = some (.conditional condition) ↔
      IsReadUpTo ThenAt 1 line condition.toList := by
  have hend : (either (atWord "THEN".toList) atEnd []).isSome := rfl
  have hfound : ∀ found, findWord? "IF".toList (spaced (either (atWord "THEN".toList) atEnd)) line =
      some (found, ()) ↔ IsReadUpTo ThenAt 1 line found := by
    intro found
    simp only [findWord?_spaced_iff hend (by decide : "IF".toList ≠ []) hline,
      field_either_atWord_iff, IsReadUpTo, exists_and_left]
    rfl
  constructor
  · intro h
    obtain ⟨⟨found, _⟩, hfind, hcondition⟩ := Option.map_eq_some_iff.1 h
    rw [← Branch.conditional.inj hcondition, String.toList_ofList]
    exact (hfound found).1 hfind
  · intro h
    rw [conditional?, (hfound _).2 h, Option.map_some, String.ofList_toList]

/-- Where the letters end a condition, it ends at a whole word if they are one,
and if none stands at the front of the text. -/
theorem isReadUpTo_whole_iff {line text : List Char} {e : Nat}
    (htext : Follows "IF".toList line text) (he : IsFirstEnd (ThenAt text) 1 text e) :
    IsReadUpTo WholeThenAt 0 line (text.take e) ↔
      ¬ WholeThenAt text 0 ∧ (e < text.length → WholeThenAt text e) := by
  have hletters : ∀ n, WholeThenAt text n → ThenAt text n := fun _ h => h.letters
  constructor
  · rintro ⟨text', e', htext', he', htake⟩
    obtain rfl := htext.unique (by decide) htext'
    have hlength := congrArg List.length htake
    rw [List.length_take_of_le he.within, List.length_take_of_le he'.within] at hlength
    rw [← hlength] at he'
    exact (he.narrow_iff hletters).1 he'
  · intro h
    exact ⟨text, e, htext, (he.narrow_iff hletters).2 h, rfl⟩

/-- An IF goes before every other branch. -/
theorem branch?_eq_conditional_iff {line : List Char} {condition : String} :
    branch? line = some (.conditional condition) ↔
      conditional? line = some (.conditional condition) := by
  have hperform : perform? line ≠ some (.conditional condition) := by simp [perform?]
  have hevaluate : evaluate? line ≠ some (.conditional condition) := by simp [evaluate?]
  have hgoTo : goTo? line ≠ some (.conditional condition) := by simp [goTo?]
  constructor
  · intro h
    obtain ⟨rule, hrule, hfound⟩ := List.exists_of_findSome?_eq_some h
    simp only [branchRules, List.mem_cons, List.not_mem_nil, or_false] at hrule
    rcases hrule with rfl | rfl | rfl | rfl
    · exact hfound
    · exact absurd hfound hperform
    · exact absurd hfound hevaluate
    · exact absurd hfound hgoTo
  · intro h
    rw [branch?, branchRules, List.findSome?_cons, h]

/-! ## The conditions of a source -/

section
variable (source : String)

/-- The IFs on record are those of the lines, and their conditions end at the
letters of THEN. -/
theorem mem_controlFlow_conditional_iff {n : Nat} {condition : String} :
    (∃ r ∈ (outline source).controlFlow, r.line = n ∧ r.branch = .conditional condition) ↔
      ∃ line, IsLine (normalizedLines source) n line ∧
        IsReadUpTo ThenAt 1 line condition.toList := by
  simp only [controlFlow_outline, controlFlow, mem_collect]
  constructor
  · rintro ⟨r, ⟨line, hline, branch, hfound, rfl⟩, rfl, rfl⟩
    have hat := isLine_of_mem_numbered hline
    have hlast := endsWithout_normalized (List.mem_of_getElem? hat.2)
    have hconditional := branch?_eq_conditional_iff.1 hfound
    exact ⟨line.1, hat, (conditional?_eq_some_iff hlast).1 hconditional⟩
  · rintro ⟨line, hat, hread⟩
    have hlast := endsWithout_normalized (List.mem_of_getElem? hat.2)
    have hconditional := (conditional?_eq_some_iff hlast).2 hread
    exact ⟨_, ⟨(line, n), mem_numbered_of_isLine hat, _,
      branch?_eq_conditional_iff.2 hconditional, rfl⟩, rfl, rfl⟩

/-- Every IF is recorded with what stands behind it up to the first THEN that is
a whole word, or up to the end of its line. -/
def RecordsWholeConditions : Prop :=
  ∀ r ∈ (outline source).controlFlow, ∀ condition, r.branch = .conditional condition →
    ∃ line, IsLine (normalizedLines source) r.line line ∧
      IsReadUpTo WholeThenAt 0 line condition.toList

/-- The IFs on record are those of the lines, with what stands behind them up to
the letters of THEN or to the end of the line. They are whole conditions if and
only if the letters that end them are whole words, and no whole THEN stands
where the condition would begin. -/
theorem conditions_whole_iff :
    (∀ n condition,
      (∃ r ∈ (outline source).controlFlow, r.line = n ∧ r.branch = .conditional condition) ↔
        ∃ line, IsLine (normalizedLines source) n line ∧
          IsReadUpTo ThenAt 1 line condition.toList) ∧
    (RecordsWholeConditions source ↔
      ∀ line ∈ normalizedLines source, ∀ text e, Follows "IF".toList line text →
        IsFirstEnd (ThenAt text) 1 text e →
          ¬ WholeThenAt text 0 ∧ (e < text.length → WholeThenAt text e)) := by
  refine ⟨fun n condition => mem_controlFlow_conditional_iff source, ?_, ?_⟩
  · intro hwhole line hmem text e htext he
    obtain ⟨n, hline⟩ := exists_isLine_of_mem hmem
    have hread : IsReadUpTo ThenAt 1 line (String.ofList (text.take e)).toList := by
      rw [String.toList_ofList]
      exact ⟨text, e, htext, he, rfl⟩
    obtain ⟨r, hr, hnumber, hbranch⟩ :=
      (mem_controlFlow_conditional_iff source).2 ⟨line, hline, hread⟩
    -- the record is read from the same line
    obtain ⟨other, hother, hcondition⟩ := hwhole r hr _ hbranch
    rw [hnumber] at hother
    obtain rfl := hline.unique hother
    rw [String.toList_ofList] at hcondition
    exact (isReadUpTo_whole_iff htext he).1 hcondition
  · intro hends r hr condition hbranch
    obtain ⟨line, hline, text, e, htext, he, hcondition⟩ :=
      (mem_controlFlow_conditional_iff source).1 ⟨r, hr, rfl, hbranch⟩
    refine ⟨line, hline, ?_⟩
    rw [hcondition]
    exact (isReadUpTo_whole_iff htext he).2
      (hends line (List.mem_of_getElem? hline.2) text e htext he)

end

/-- A statement with an IF on a name that has the letters of THEN in it. -/
def strengthenIf : String := "IF STRENGTHEN-SW = 1 THEN"

/-- The condition is cut short in the middle of the name. -/
theorem condition_cut_in_name :
    (outline strengthenIf).conditions = ["STRENG"] ∧ ¬ RecordsWholeConditions strengthenIf := by
  have hrecord : (outline strengthenIf).controlFlow = [⟨"CF_1", 1, .conditional "STRENG"⟩] := by
    decide +kernel
  have hlines : normalizedLines strengthenIf = [strengthenIf.toList] := by decide +kernel
  have hfollows : Follows "IF".toList strengthenIf.toList "STRENGTHEN-SW = 1 THEN".toList :=
    (follows_iff (by decide)).2 (by decide +kernel)
  refine ⟨by decide +kernel, fun hwhole => ?_⟩
  rw [RecordsWholeConditions, hrecord, hlines] at hwhole
  obtain ⟨line, hline, text, e, htext, he, htake⟩ := hwhole _ List.mem_cons_self _ rfl
  obtain rfl : strengthenIf.toList = line := Option.some.inj hline.2
  obtain rfl := hfollows.unique (by decide) htext
  -- the condition has six letters, and no THEN behind them is a whole word
  have hlength := congrArg List.length htake
  rw [List.length_take_of_le he.within] at hlength
  obtain rfl : 6 = e := hlength
  exact absurd (he.stopped (by decide)) (by decide +kernel)

end Mainframe.Cobol
