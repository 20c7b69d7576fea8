import Mainframe.Proofs.JoinedSources

/-
  Data items and the lines on which they are declared.

  An entry is four words in a row. The data items of a text are those of the
  entries that are taken, from left to right, no word belonging to two of them.
  Only the first word of an entry has to open a line, so an entry may begin on a
  line with fewer than four words and go on with the words of the lines below.
  Such an entry mixes the text of several lines, and it may take the level of a
  declaration that stands there.

  What is proved:
    1. `dataItems_eq_filterMap`: the data items are those of the entries taken.
    2. `forall_taken_iff`: every entry that is taken stands on one line if and
       only if every entry that declares an item does.
    3. `entries_tokens`: if every entry that declares an item stands on one
       line, the entries are those of the lines, each read alone.
    4. `readsByLine_iff`: the data items of a source are read line by line if
       and only if no entry across lines declares an item.
    5. `declared_across_lines`: a level and a name that take the level of the
       next line for a picture.
-/

namespace Mainframe.Cobol

open Mainframe.Text

/-! ## Entries -/

/-- Four words in a row. -/
structure Entry where
  level : Token
  name : Token
  clause : Token
  picture : Token
  deriving DecidableEq, Repr

namespace Entry

/-- The words of the entry. -/
def tokens (e : Entry) : List Token := [e.level, e.name, e.clause, e.picture]

/-- The data item that the entry declares. -/
def item? (e : Entry) : Option DataItem := dataItem? e.level e.name e.clause e.picture

/-- Whether the entry declares a data item. -/
def declares (e : Entry) : Bool := e.item?.isSome

/-- Whether the entry stands on one line: no word behind the first opens one. -/
def onOneLine (e : Entry) : Bool :=
  !e.name.opensLine && !e.clause.opensLine && !e.picture.opensLine

theorem opensLine_level {e : Entry} (h : e.declares = true) : e.level.opensLine = true := by
  unfold declares item? dataItem? at h
  split at h
  next hall =>
    simp only [Bool.and_eq_true] at hall
    exact hall.1.1.1.1
  next => cases h

/-- Words begin with one entry at most. -/
theorem eq_of_prefix {e : Entry} {level name clause picture : Token} {rest : List Token}
    (h : e.tokens <+: level :: name :: clause :: picture :: rest) :
    e = ⟨level, name, clause, picture⟩ := by
  have htokens : e.tokens = [level, name, clause, picture] := List.prefix_iff_eq_take.1 h
  cases e
  simpa [tokens] using htokens

/-- If the first word opens no line, an entry that declares an item is found
behind it. -/
theorem infix_of_infix_cons {e : Entry} {t : Token} {ts : List Token} (he : e.declares = true)
    (ht : t.opensLine = false) (h : e.tokens <:+: t :: ts) : e.tokens <:+: ts := by
  rcases List.infix_cons_iff.1 h with hfront | hwithin
  · have hlevel : e.level = t := (List.cons_prefix_cons.1 hfront).1
    have hopens := opensLine_level he
    rw [hlevel, ht] at hopens
    cases hopens
  · exact hwithin

theorem opensLine_of_onOneLine {e : Entry} (h : e.onOneLine = true) :
    e.name.opensLine = false ∧ e.clause.opensLine = false ∧ e.picture.opensLine = false := by
  simpa [onOneLine, and_assoc] using h

end Entry

/-- The entries that are taken from the words, from left to right. -/
def entries : List Token → List Entry
  | level :: name :: clause :: picture :: rest =>
    if (Entry.mk level name clause picture).declares then
      ⟨level, name, clause, picture⟩ :: entries rest
    else entries (name :: clause :: picture :: rest)
  | _ => []

theorem dataItems_eq_filterMap (ts : List Token) :
    dataItems ts = (entries ts).filterMap Entry.item? := by
  induction ts using entries.induct with
  | case1 level name clause picture rest htaken ih =>
    obtain ⟨item, hitem⟩ := Option.isSome_iff_exists.1 htaken
    rw [entries, if_pos htaken, List.filterMap_cons, hitem, ← ih]
    simp only [Entry.item?] at hitem
    rw [dataItems, hitem]
  | case2 level name clause picture rest hnot ih =>
    have hnone : dataItem? level name clause picture = none := by
      simpa [Entry.declares, Entry.item?] using hnot
    rw [entries, if_neg hnot, ← ih, dataItems, hnone]
  | case3 ts hshort =>
    rw [dataItems, entries]
    · rfl
    · exact hshort
    · exact hshort

theorem mem_entries {ts : List Token} {e : Entry} (h : e ∈ entries ts) :
    e.tokens <:+: ts ∧ e.declares = true := by
  induction ts using entries.induct with
  | case1 level name clause picture rest htaken ih =>
    rw [entries, if_pos htaken] at h
    rcases List.mem_cons.1 h with rfl | h
    · exact ⟨⟨[], rest, rfl⟩, htaken⟩
    · obtain ⟨hwithin, hdeclares⟩ := ih h
      exact ⟨hwithin.trans (List.suffix_append [level, name, clause, picture] rest).isInfix,
        hdeclares⟩
  | case2 level name clause picture rest hnot ih =>
    rw [entries, if_neg hnot] at h
    obtain ⟨hwithin, hdeclares⟩ := ih h
    exact ⟨hwithin.trans (List.suffix_cons level _).isInfix, hdeclares⟩
  | case3 ts hshort =>
    rw [entries] at h
    · cases h
    · exact hshort

/-- A word with which no entry begins is passed over. -/
theorem entries_cons {t : Token} {ts : List Token}
    (h : ∀ e : Entry, e.tokens <+: t :: ts → e.declares = false) :
    entries (t :: ts) = entries ts := by
  match ts with
  | [] => rfl
  | [_] => rfl
  | [_, _] => rfl
  | name :: clause :: picture :: rest =>
    have hnot := h ⟨t, name, clause, picture⟩ ⟨rest, rfl⟩
    rw [entries, if_neg (by simp [hnot])]

/-! ## Entries on one line -/

/-- Every entry among the words that declares an item stands on one line. -/
def DeclaresOnLines (ts : List Token) : Prop :=
  ∀ e : Entry, e.tokens <:+: ts → e.declares = true → e.onOneLine = true

theorem DeclaresOnLines.of_infix {ts ts' : List Token} (h : DeclaresOnLines ts)
    (hsub : ts' <:+: ts) : DeclaresOnLines ts' :=
  fun e he => h e (he.trans hsub)

/-- The entries that are taken stand on one line if and only if all that declare
an item do. -/
theorem forall_taken_iff (ts : List Token) :
    (∀ e ∈ entries ts, e.onOneLine = true) ↔ DeclaresOnLines ts := by
  constructor
  · -- the first entry across lines is taken, as none in front of it reaches its level
    intro h e he hdeclares
    induction ts using entries.induct with
    | case1 level name clause picture rest htaken ih =>
      rw [entries, if_pos htaken] at h
      have hone := h _ List.mem_cons_self
      obtain ⟨hname, hclause, hpicture⟩ := Entry.opensLine_of_onOneLine hone
      rcases List.infix_cons_iff.1 he with hfront | hwithin
      · rw [Entry.eq_of_prefix hfront]
        exact hone
      · have hrest : e.tokens <:+: rest := Entry.infix_of_infix_cons hdeclares hpicture
          (Entry.infix_of_infix_cons hdeclares hclause
            (Entry.infix_of_infix_cons hdeclares hname hwithin))
        exact ih (fun e he => h e (List.mem_cons_of_mem _ he)) hrest
    | case2 level name clause picture rest hnot ih =>
      rw [entries, if_neg hnot] at h
      rcases List.infix_cons_iff.1 he with hfront | hwithin
      · rw [Entry.eq_of_prefix hfront] at hdeclares
        exact absurd hdeclares hnot
      · exact ih h hwithin
    | case3 ts hshort =>
      have hlength : 4 ≤ ts.length := he.length_le
      match ts with
      | level :: name :: clause :: picture :: rest => exact absurd rfl (hshort _ _ _ _ rest)
      | [] | [_] | [_, _] | [_, _, _] => simp at hlength
  · intro h e he
    obtain ⟨hwithin, hdeclares⟩ := mem_entries he
    exact h e hwithin hdeclares

/-- The words begin with one that opens a line, if there are any. -/
def OpensLine (ts : List Token) : Prop := ∀ t ∈ ts.head?, t.opensLine = true

theorem mem_of_prefix_append {α : Type} {l front back : List α} {a : α}
    (h : l <+: front ++ a :: back) (hlength : front.length < l.length) : a ∈ l := by
  obtain ⟨rest, hrest⟩ := h
  have hget : (l ++ rest)[front.length]? = some a := by
    rw [hrest, List.getElem?_append_right (Nat.le_refl _), Nat.sub_self, List.getElem?_cons_zero]
  rw [List.getElem?_append_left hlength] at hget
  exact List.mem_of_getElem? hget

/-- An entry that begins on a line with fewer than four words goes on with the
first word below it. -/
theorem not_declares_of_short {e : Entry} {t : Token} {ts below : List Token}
    (hshort : ts.length < 3) (hbelow : OpensLine below) (h : DeclaresOnLines (t :: (ts ++ below)))
    (he : e.tokens <+: t :: (ts ++ below)) : e.declares = false := by
  rw [← Bool.not_eq_true]
  intro hdeclares
  have hothers : [e.name, e.clause, e.picture] <+: ts ++ below := (List.cons_prefix_cons.1 he).2
  obtain ⟨hname, hclause, hpicture⟩ :=
    Entry.opensLine_of_onOneLine (h e he.isInfix hdeclares)
  cases below with
  | nil =>
    have hlength := hothers.length_le
    simp at hlength
    omega
  | cons u below =>
    have hu : u.opensLine = true := hbelow u rfl
    have hmem : u ∈ [e.name, e.clause, e.picture] := mem_of_prefix_append hothers hshort
    simp only [List.mem_cons, List.not_mem_nil, or_false] at hmem
    rcases hmem with rfl | rfl | rfl
    · simp [hu] at hname
    · simp [hu] at hclause
    · simp [hu] at hpicture

theorem entries_short_append {ts : List Token} (hshort : ts.length < 4) {below : List Token}
    (hbelow : OpensLine below) (h : DeclaresOnLines (ts ++ below)) :
    entries (ts ++ below) = entries below := by
  induction ts with
  | nil => rfl
  | cons t ts ih =>
    rw [List.length_cons] at hshort
    rw [List.cons_append] at h ⊢
    rw [entries_cons (fun e he => not_declares_of_short (by omega) hbelow h he)]
    exact ih (by omega) (h.of_infix (List.suffix_cons t _).isInfix)

/-- The entries of the words of a line and those below it, if none that declares
an item goes on from the line to the next. -/
theorem entries_append {ts below : List Token} (hbelow : OpensLine below)
    (h : DeclaresOnLines (ts ++ below)) : entries (ts ++ below) = entries ts ++ entries below := by
  induction ts using entries.induct with
  | case1 level name clause picture rest htaken ih =>
    have hrest := h.of_infix (List.suffix_append [level, name, clause, picture] _).isInfix
    simp only [List.cons_append]
    rw [entries, if_pos htaken, ih hrest, entries, if_pos htaken, List.cons_append]
  | case2 level name clause picture rest hnot ih =>
    have hrest := ih (h.of_infix (List.suffix_cons level _).isInfix)
    simp only [List.cons_append] at hrest ⊢
    rw [entries, if_neg hnot, hrest, entries, if_neg hnot]
  | case3 ts hshort =>
    have hnone : entries ts = [] := by
      rw [entries]
      exact hshort
    have hlength : ts.length < 4 := by
      match ts with
      | level :: name :: clause :: picture :: rest => exact absurd rfl (hshort _ _ _ _ rest)
      | [] | [_] | [_, _] | [_, _, _] => simp
    rw [hnone, entries_short_append hlength hbelow h, List.nil_append]

/-! ## Lines -/

theorem tokens_cons (line : List Char) (lines : List (List Char)) :
    tokens (line :: lines) = lineTokens line ++ tokens lines := rfl

theorem tokens_singleton (line : List Char) : tokens [line] = lineTokens line :=
  List.append_nil _

theorem opensLine_tokens (lines : List (List Char)) : OpensLine (tokens lines) := by
  induction lines with
  | nil => simp [OpensLine, tokens]
  | cons line lines ih =>
    rw [tokens_cons, lineTokens]
    cases words line with
    | nil => exact ih
    | cons first others =>
      intro t ht
      rw [← Option.some.inj ht]

/-- If no entry across lines declares an item, the entries are those of the
lines, each read alone. -/
theorem entries_tokens {lines : List (List Char)} (h : DeclaresOnLines (tokens lines)) :
    entries (tokens lines) = lines.flatMap (fun line => entries (tokens [line])) := by
  induction lines with
  | nil => rfl
  | cons line lines ih =>
    rw [tokens_cons] at h ⊢
    have hlines := ih (h.of_infix (List.suffix_append (lineTokens line) _).isInfix)
    rw [entries_append (opensLine_tokens lines) h, hlines, List.flatMap_cons, tokens_singleton]

/-- The lines of a normalized text have the words of the retained lines. -/
theorem tokens_normalize (source : String) :
    tokens (splitLines (normalize source).toList) = tokens (retainedLines source.toList) := by
  rw [splitLines_normalize]
  split
  next hnone => rw [hnone]; rfl
  next => rfl

/-- The data items of a source are read line by line: they are those of the
retained lines, each read alone; no item mixes words of two lines; and no
declaration of a line is lost. -/
structure ReadsByLine (source : String) : Prop where
  items : (outline source).dataItems =
    (retainedLines source.toList).flatMap (fun line => dataItems (tokens [line]))
  unmixed : ∀ e ∈ entries (tokens (retainedLines source.toList)), e.onOneLine = true
  kept : ∀ line ∈ retainedLines source.toList, ∀ e ∈ entries (tokens [line]),
    e ∈ entries (tokens (retainedLines source.toList))

/-- The data items of a source are read line by line if and only if every four
words that declare an item stand on one line. -/
theorem readsByLine_iff (source : String) :
    ReadsByLine source ↔ DeclaresOnLines (tokens (retainedLines source.toList)) := by
  constructor
  · intro h
    exact (forall_taken_iff _).1 h.unmixed
  · intro h
    have hentries := entries_tokens h
    refine ⟨?_, (forall_taken_iff _).2 h, ?_⟩
    · rw [dataItems_outline, tokens_normalize, dataItems_eq_filterMap, hentries,
        List.filterMap_flatMap]
      simp only [dataItems_eq_filterMap]
    · intro line hline e he
      rw [hentries]
      exact List.mem_flatMap.2 ⟨line, hline, he⟩

/-- A level and a name without a picture, and the declaration of an item. -/
def unfinishedEntry : String := "01 A PIC\n05 B PIC 9."

/-- The unfinished entry takes the level of the next line for its picture, and
the declaration on that line is lost. -/
theorem declared_across_lines :
    (outline unfinishedEntry).dataItems = [⟨"01", "A", "05"⟩] ∧
      (retainedLines unfinishedEntry.toList).flatMap (fun line => dataItems (tokens [line])) =
        [⟨"05", "B", "9"⟩] := by
  decide +kernel

end Mainframe.Cobol
