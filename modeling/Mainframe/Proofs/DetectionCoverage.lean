import Mainframe.Detection
import Mainframe.Proofs.DeckGrouping
import Mainframe.Proofs.JoinedSources
import Mainframe.Proofs.PhrasePlaces
import Mainframe.Proofs.SpelledLine

/-
  What the readers recognize is detected.

  Detection looks at the source as it stands, in upper case. A deck is read
  from cards, which are lines without what stands at their ends, in the case in
  which they are written. A program is read from retained lines, which have
  lost their sequence areas too. So a text that a reader finds has to be traced
  back to a line of the source and from there to the source in upper case.

  Mapping to upper case may lengthen a text and never reaches over a character,
  so it keeps the beginnings of a text, its parts and its lines. A phrase that
  holds no line feed stands on one line.

  What is proved:
    1. `splitLines_uppercase`: the lines of a text in upper case are its lines,
       each in upper case.
    2. `line_of_mem_cards` and `contains_uppercase_of_normalize`: a card opens
       a line of its deck; what is on one line of a normalized text is in its
       source in upper case.
    3. `detect_covers`: a source that is read as a deck with a plainly named
       step is detected as a deck, and one in which a program's id or one of
       three headers is found is not taken for nothing.
-/

namespace Mainframe

namespace Text

/-! ## Upper case, part by part -/

theorem prefix_uppercase {s t : List Char} (h : s <+: t) : uppercase s <+: uppercase t := by
  obtain ⟨rest, rfl⟩ := h
  exact ⟨uppercase rest, (uppercase_append s rest).symm⟩

theorem infix_uppercase {s t : List Char} (h : s <:+: t) : uppercase s <:+: uppercase t := by
  obtain ⟨before, behind, rfl⟩ := h
  exact ⟨uppercase before, uppercase behind, by rw [uppercase_append, uppercase_append]⟩

/-- A text contains a word in capitals in upper case too. -/
theorem contains_uppercase {word s : List Char} (hcapitals : uppercase word = word)
    (h : contains word s = true) : contains word (uppercase s) = true := by
  have hupper := infix_uppercase (contains_iff.1 h)
  rw [hcapitals] at hupper
  exact contains_iff.2 hupper

theorem uppercase_joinLines (lines : List (List Char)) :
    uppercase (joinLines lines) = joinLines (lines.map uppercase) := by
  induction lines with
  | nil => rfl
  | cons line lines ih =>
    cases lines with
    | nil => rw [List.map_singleton, joinLines_singleton, joinLines_singleton]
    | cons next lines =>
      rw [joinLines_cons_cons, uppercase_append, uppercase_cons, ih, List.map_cons, List.map_cons,
        List.map_cons, joinLines_cons_cons]
      rfl

theorem splitLines_uppercase (s : List Char) :
    splitLines (uppercase s) = (splitLines s).map uppercase := by
  have hfeed : ∀ line ∈ (splitLines s).map uppercase, '\n' ∉ line := by
    intro line hline
    obtain ⟨written, hwritten, rfl⟩ := List.mem_map.1 hline
    exact newline_not_mem_uppercase (newline_not_mem_splitLines s written hwritten)
  have hne : (splitLines s).map uppercase ≠ [] :=
    fun hnil => splitLines_ne_nil s (List.map_eq_nil_iff.1 hnil)
  have hjoined : uppercase s = joinLines ((splitLines s).map uppercase) := by
    rw [← uppercase_joinLines, joinLines_splitLines]
  rw [hjoined, splitLines_joinLines hne hfeed]

theorem upperChars_of_isBlank {c : Char} (h : isBlank c = true) : upperChars c = [c] := by
  have hall : ∀ n ∈ blankCodes, upperChars (Char.ofNat n) = [Char.ofNat n] := by decide +kernel
  have hc := hall c.toNat (mem_blankCodes_of_isBlank h)
  rwa [Char.ofNat_toNat] at hc

/-- What holds a word in upper case is not blank, as blanks are their own upper
case. -/
theorem allBlank_eq_false_of_contains {word s : List Char} {c : Char} (hc : c ∈ word)
    (hblank : isBlank c = false) (h : contains word (uppercase s) = true) :
    allBlank s = false := by
  rw [← Bool.not_eq_true]
  intro hall
  have hs : ∀ d ∈ s, isBlank d = true := List.all_eq_true.1 hall
  have hupper : uppercase s = s := uppercase_of_forall fun d hd => upperChars_of_isBlank (hs d hd)
  rw [hupper, contains_iff] at h
  have htrue := hs c (h.subset hc)
  rw [hblank] at htrue
  cases htrue

/-! ## Lines and their beginnings -/

theorem infix_joinLines {line : List Char} {lines : List (List Char)} (h : line ∈ lines) :
    line <:+: joinLines lines := by
  induction lines with
  | nil => cases h
  | cons first lines ih =>
    cases lines with
    | nil =>
      obtain rfl := List.mem_singleton.1 h
      exact ⟨[], [], by rw [joinLines_singleton, List.nil_append, List.append_nil]⟩
    | cons next lines =>
      rw [joinLines_cons_cons]
      rcases List.mem_cons.1 h with rfl | hmem
      · exact (List.prefix_append ..).isInfix
      · exact (ih hmem).trans ((List.suffix_cons ..).trans (List.suffix_append ..)).isInfix

theorem infix_of_mem_splitLines {line s : List Char} (h : line ∈ splitLines s) : line <:+: s := by
  have hjoined := infix_joinLines h
  rwa [joinLines_splitLines] at hjoined

theorem prefix_trimEnd (s : List Char) : trimEnd s <+: s := by
  induction s with
  | nil => exact List.prefix_rfl
  | cons c s ih =>
    rw [trimEnd_cons]
    split
    · exact List.nil_prefix
    · exact List.prefix_cons_inj c |>.2 ih

theorem prefix_dropReturn (line : List Char) : dropReturn line <+: line := by
  unfold dropReturn
  split
  · exact List.dropLast_prefix line
  · exact List.prefix_rfl

theorem prefix_of_mem_endedLines {line : List Char} {lines : List (List Char)}
    (h : line ∈ endedLines lines) : ∃ written ∈ lines, line <+: written := by
  induction lines with
  | nil => cases h
  | cons first lines ih =>
    cases lines with
    | nil =>
      simp only [endedLines] at h
      split at h
      · cases h
      · rw [List.mem_singleton.1 h]
        exact ⟨first, List.mem_cons_self, List.prefix_rfl⟩
    | cons next lines =>
      rcases List.mem_cons.1 h with rfl | hmem
      · exact ⟨first, List.mem_cons_self, prefix_dropReturn first⟩
      · obtain ⟨written, hwritten, hprefix⟩ := ih hmem
        exact ⟨written, List.mem_cons_of_mem first hwritten, hprefix⟩

theorem contains_of_find? {α : Type} {word s : List Char} {rest : List Char → Option α} {a : α}
    (h : find? word rest s = some a) : contains word s = true := by
  obtain ⟨n, -, hfound, -⟩ := leftmost_eq_some_iff.1 h
  obtain ⟨behind, hword, -⟩ := Option.bind_eq_some_iff.1 hfound
  have hplace : s.drop n = word ++ behind := after?_eq_some_iff.1 hword
  rw [contains_iff]
  exact (List.prefix_append word behind).isInfix.trans
    (hplace ▸ (List.drop_suffix n s).isInfix)

end Text

open Text

/-! ## Cards and their lines -/

namespace Jcl

/-- A card opens a line of its deck. -/
theorem line_of_mem_cards {deck card : List Char} (h : card ∈ cards deck) :
    ∃ line ∈ splitLines deck, card <+: line := by
  obtain ⟨hcard, -⟩ := List.mem_filter.1 h
  obtain ⟨ended, hended, rfl⟩ := List.mem_map.1 hcard
  obtain ⟨line, hline, hprefix⟩ := prefix_of_mem_endedLines hended
  exact ⟨line, hline, (prefix_trimEnd ended).trans hprefix⟩

/-- A step keeps the EXEC card that opened it. -/
theorem exec_of_mem_stepsOf {cards : List (List Char)} {step : Step} (h : step ∈ stepsOf cards) :
    ∃ card ∈ cards, cardKind card = .exec ∧ step.raw = String.ofList card := by
  induction cards with
  | nil => cases h
  | cons card cards ih =>
    have hlater : step ∈ stepsOf cards →
        ∃ c ∈ card :: cards, cardKind c = .exec ∧ step.raw = String.ofList c := by
      intro hmem
      obtain ⟨exec, hexec, hstep⟩ := ih hmem
      exact ⟨exec, List.mem_cons_of_mem card hexec, hstep⟩
    unfold stepsOf at h
    split at h
    next hexec =>
      rcases List.mem_cons.1 h with rfl | hmem
      · exact ⟨card, List.mem_cons_self, hexec, rfl⟩
      · exact hlater hmem
    next => exact hlater h

theorem contains_of_exec {card : List Char} (h : cardKind card = .exec) :
    contains " EXEC ".toList card = true := by
  unfold cardKind at h
  split at h
  · cases h
  · split at h
    next hexec => exact hexec
    next => split at h <;> cases h

/-- The check leaves the steps as they are. -/
theorem steps_of_outline {deck : String} {o : Outline} (h : outline deck = .ok o) :
    o.steps = stepsOf (cards deck.toList) := by
  have hsteps := (reflects_ofCards (cards deck.toList)).steps
  rw [outline, Outline.checked] at h
  split at h
  · cases h
  · rw [← Except.ok.inj h, ← hsteps]
    split <;> rfl

/-- An ASCII letter, an ASCII digit or an underscore stands behind the slashes
of the card. -/
def IsPlainlyNamed (card : List Char) : Prop :=
  ∃ c rest, card = '/' :: '/' :: c :: rest ∧ (c.isAlphanum || c == '_') = true

theorem isWordChar_toUpper {c : Char} (h : (c.isAlphanum || c == '_') = true) :
    upperChars c = [c.toUpper] ∧ isWordChar c.toUpper = true := by
  have hall : ∀ n < 128, ((Char.ofNat n).isAlphanum || Char.ofNat n == '_') = true →
      isWordChar (Char.ofNat n).toUpper = true := by decide +kernel
  have hascii : c.toNat < 128 := by
    delta Char.isAlphanum Char.isAlpha Char.isUpper Char.isLower Char.isDigit at h
    simp only [Bool.or_eq_true, Bool.and_eq_true, decide_eq_true_eq, beq_iff_eq,
      UInt32.le_iff_toNat_le, ge_iff_le] at h
    rcases h with ((h | h) | h) | rfl
    · exact Nat.lt_of_le_of_lt h.2 (by decide)
    · exact Nat.lt_of_le_of_lt h.2 (by decide)
    · exact Nat.lt_of_le_of_lt h.2 (by decide)
    · decide
  refine ⟨upperChars_of_ascii c hascii, ?_⟩
  exact of_ascii (p := fun c => (c.isAlphanum || c == '_') = true → isWordChar c.toUpper = true)
    hall hascii h

/-- A line that starts with a plainly named card starts, in upper case, with
slashes and a word character. -/
theorem IsPlainlyNamed.isNamedCard {card line : List Char} (h : IsPlainlyNamed card)
    (hline : card <+: line) : isNamedCard (uppercase line) = true := by
  obtain ⟨c, rest, rfl, hc⟩ := h
  obtain ⟨hupper, hword⟩ := isWordChar_toUpper hc
  obtain ⟨behind, hbehind⟩ := prefix_uppercase hline
  have hslash : upperChars '/' = ['/'] := rfl
  rw [← hbehind, uppercase_cons, uppercase_cons, uppercase_cons, hupper, hslash]
  exact hword

end Jcl

/-! ## Retained lines and their source -/

namespace Cobol

theorem suffix_dropSequenceArea (line : List Char) : dropSequenceArea line <:+ line := by
  unfold dropSequenceArea
  split
  · exact List.drop_suffix 6 line
  · exact List.suffix_rfl

/-- A retained line is a part of the line in upper case. -/
theorem infix_of_retained {line kept : List Char} (h : retained? line = some kept) :
    kept <:+: uppercase line := by
  unfold retained? at h
  split at h
  · cases h
  · rw [← Option.some.inj h]
    exact infix_uppercase
      ((suffix_dropSequenceArea _).isInfix.trans (prefix_trimEnd line).isInfix)

/-- What stands on a line of the normalized text stands in its source, in upper
case. -/
theorem contains_uppercase_of_normalize {word : List Char} (hne : word ≠ [])
    (hfeed : '\n' ∉ word) {source : String}
    (h : contains word (normalize source).toList = true) :
    contains word (uppercase source.toList) = true := by
  rw [normalize, String.toList_ofList, contains_joinLines hne hfeed, List.any_eq_true] at h
  obtain ⟨kept, hkept, hword⟩ := h
  obtain ⟨line, hline, hretained⟩ := List.mem_filterMap.1 hkept
  rw [contains_iff] at hword ⊢
  exact hword.trans ((infix_of_retained hretained).trans
    (infix_uppercase (infix_of_mem_splitLines hline)))

theorem contains_of_programId {source : String}
    (h : (outline source).programId.isSome = true) :
    contains "PROGRAM-ID".toList (uppercase source.toList) = true := by
  rw [programId_outline, Option.isSome_map] at h
  obtain ⟨name, hname⟩ := Option.isSome_iff_exists.1 h
  have hdotted := contains_uppercase_of_normalize (by decide) (by decide) (contains_of_find? hname)
  rw [contains_iff] at hdotted ⊢
  have hmarker : "PROGRAM-ID".toList <+: "PROGRAM-ID.".toList := by decide
  exact hmarker.isInfix.trans hdotted

theorem contains_of_division {source : String} {d : Division}
    (h : ((outline source).divisions.mark? d).isSome = true) :
    contains d.header.toList (uppercase source.toList) = true := by
  have hheader : hasDivision (normalize source).toList d = true := by
    rw [divisions_outline, Divisions.mark?_ofPresent] at h
    split at h
    next hheader => exact hheader
    next => cases h
  have hne : d.header.toList ≠ [] := by cases d <;> decide
  have hfeed : '\n' ∉ d.header.toList := by cases d <;> decide
  exact contains_uppercase_of_normalize hne hfeed hheader

end Cobol

/-! ## Detection -/

/-- A line that, in upper case, names a card and contains EXEC makes its source
a deck. -/
theorem detect_of_line {source : String} {line : List Char}
    (hline : line ∈ splitLines source.toList) (hname : isNamedCard (uppercase line) = true)
    (hexec : contains " EXEC ".toList (uppercase line) = true) : detect source = some .jcl := by
  have hupper : contains " EXEC ".toList (uppercase source.toList) = true :=
    contains_iff.2
      ((contains_iff.1 hexec).trans (infix_uppercase (infix_of_mem_splitLines hline)))
  have hnamed : (splitLines (uppercase source.toList)).any isNamedCard = true := by
    rw [splitLines_uppercase, List.any_eq_true]
    exact ⟨uppercase line, List.mem_map_of_mem hline, hname⟩
  have hdeck : looksLikeDeck (uppercase source.toList) = true := by
    rw [looksLikeDeck, hnamed, hupper, Bool.or_true]
    rfl
  have hletter : 'X' ∈ " EXEC ".toList := by decide
  have hblank : allBlank source.toList = false :=
    allBlank_eq_false_of_contains hletter (by decide) hupper
  rw [detect, hblank, hdeck]
  rfl

theorem detect_of_card {source : String} {card line : List Char}
    (hline : line ∈ splitLines source.toList) (hcard : card <+: line)
    (hexec : Jcl.cardKind card = .exec) (hname : Jcl.IsPlainlyNamed card) :
    detect source = some .jcl := by
  have hupper : contains " EXEC ".toList (uppercase card) = true :=
    contains_uppercase (by decide) (Jcl.contains_of_exec hexec)
  have hword := (contains_iff.1 hupper).trans (infix_uppercase hcard.isInfix)
  exact detect_of_line hline (hname.isNamedCard hcard) (contains_iff.2 hword)

theorem isSome_detect_of_marker {source marker : String} (hmarker : marker ∈ programMarkers)
    (h : contains marker.toList (uppercase source.toList) = true) :
    (detect source).isSome = true := by
  have hprogram : looksLikeProgram (uppercase source.toList) = true :=
    List.any_eq_true.2 ⟨marker, hmarker, h⟩
  have hletter : ∀ m ∈ programMarkers, 'D' ∈ m.toList := by decide
  have hblank : allBlank source.toList = false :=
    allBlank_eq_false_of_contains (hletter marker hmarker) (by decide) h
  rw [detect, hblank, hprogram]
  split
  · contradiction
  · split <;> rfl

/-- A source from which a deck is read, with a step whose card has an ASCII
letter, digit or underscore right behind its slashes, is detected as a deck. A
source in which a program's id or one of three divisions is found is detected. -/
theorem detect_covers (source : String) :
    (∀ o, Jcl.outline source = .ok o →
      (∃ step ∈ o.steps, Jcl.IsPlainlyNamed step.raw.toList) → detect source = some .jcl) ∧
    ((Cobol.outline source).programId.isSome = true ∨
      (∃ d ∈ [Cobol.Division.identification, .data, .procedure],
        ((Cobol.outline source).divisions.mark? d).isSome = true) →
      (detect source).isSome = true) := by
  refine ⟨?_, ?_⟩
  · rintro o ho ⟨step, hstep, hname⟩
    rw [Jcl.steps_of_outline ho] at hstep
    obtain ⟨card, hcard, hexec, hraw⟩ := Jcl.exec_of_mem_stepsOf hstep
    rw [hraw, String.toList_ofList] at hname
    obtain ⟨line, hline, hprefix⟩ := Jcl.line_of_mem_cards hcard
    exact detect_of_card hline hprefix hexec hname
  · rintro (hid | ⟨d, hd, hmark⟩)
    · exact isSome_detect_of_marker (by decide) (Cobol.contains_of_programId hid)
    · have hheaders : ∀ d ∈ [Cobol.Division.identification, .data, .procedure],
          d.header ∈ programMarkers := by decide
      exact isSome_detect_of_marker (hheaders d hd) (Cobol.contains_of_division hmark)

/-- A deck whose step card stands between a comment and a program's header, with
blanks and a carriage return behind it. -/
def mixedDeck : String :=
  "//* NOTE\n//s_1 EXEC PGM=P \u00A0\r\n000100 PROCEDURE DIVISION.\n"

/-- A program with a sequence area in front of its id, and letters that become
several in upper case. -/
def numberedProgram : String := "000100 \uFB01 Program-Id. stra\u00DFe."

/-- The deck is detected as one, although a division is found in it; the program
is detected by its id. -/
theorem detect_covers_mixedDeck :
    (∃ o, Jcl.outline mixedDeck = .ok o ∧
      (∃ step ∈ o.steps, Jcl.IsPlainlyNamed step.raw.toList) ∧ detect mixedDeck = some .jcl) ∧
    (Cobol.outline numberedProgram).programId = some "STRASSE" ∧
    (detect numberedProgram).isSome = true := by
  have hdeck : Jcl.outline mixedDeck = .ok
      { job := none
        steps := [⟨"s_1", some "P", none, none, [], "//s_1 EXEC PGM=P"⟩]
        datasets := []
        warnings := ["No JOB card found"] } := by decide +kernel
  have hname : ∃ step ∈ [(⟨"s_1", some "P", none, none, [], "//s_1 EXEC PGM=P"⟩ : Jcl.Step)],
      Jcl.IsPlainlyNamed step.raw.toList :=
    ⟨_, List.mem_cons_self, 's', "_1 EXEC PGM=P".toList, by decide, by decide⟩
  have hid : (Cobol.outline numberedProgram).programId = some "STRASSE" := by decide +kernel
  refine ⟨⟨_, hdeck, hname, (detect_covers mixedDeck).1 _ hdeck hname⟩, hid, ?_⟩
  exact (detect_covers numberedProgram).2 (.inl (by rw [hid]; rfl))

/-- A step without a name is not enough, and neither is the environment
division. -/
example : detect "// EXEC PGM=P" = none ∧ detect "ENVIRONMENT DIVISION." = none := by
  decide +kernel

end Mainframe
