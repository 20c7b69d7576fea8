import Mathlib.Data.List.Perm.Subperm
import Mainframe.Proofs.Interchange
import Mainframe.Proofs.LineNumbers

/-
  How many records there are in the outline of a source.

  No list of an outline is longer than its source has lines: there is one
  record for a line at most, and a data item starts with the first word of a
  line. So if the characters of a source can be counted with 64 bits, every
  line number and every count in its outline and in its summary can.

  What is proved:
    1. `InLineOrder.length_le` and `length_dataItems_le`: a list is no longer
       than there are lines.
    2. `Tally.le_length_of_mem`: no name is counted more often than there are
       names.
    3. `linesFit_outline` and `countsFit_outline`: the numbers of an outline
       and of its summary are in range.
-/

namespace Mainframe

open Text

/-! ## Lines -/

/-- There is at most one line more than there are characters. -/
theorem Text.length_splitLines_le (s : List Char) : (splitLines s).length ≤ s.length + 1 := by
  induction s with
  | nil => exact Nat.le_refl 1
  | cons c s ih =>
    by_cases hc : c = '\n'
    · rw [hc, splitLines_cons_newline, List.length_cons, List.length_cons]
      omega
    · obtain ⟨line, lines, hs, hcs⟩ := splitLines_cons_of_ne hc s
      rw [hs, List.length_cons] at ih
      rw [hcs, List.length_cons, List.length_cons]
      omega

/-! ## Tallies -/

namespace Tally

theorem mem_of_lookup {name : String} {n : Nat} {es : List (String × Nat)}
    (h : lookup name es = some n) : (name, n) ∈ es := by
  induction es with
  | nil => cases h
  | cons e es ih =>
    rw [lookup] at h
    split at h
    next heq =>
      rw [← heq, ← Option.some.inj h]
      exact List.mem_cons_self
    next => exact List.mem_cons_of_mem e (ih h)

/-- One more name raises a count by one at most. -/
theorem le_of_mem_add {t : Tally} {k : Nat} (ht : ∀ e ∈ t.entries, e.2 ≤ k) (name : String) :
    ∀ e ∈ (t.add name).entries, e.2 ≤ k + 1 := by
  intro e he
  rcases mem_put he with rfl | he
  · show (t.count? name).getD 0 + 1 ≤ k + 1
    cases hcount : t.count? name with
    | none => exact Nat.succ_le_succ (Nat.zero_le k)
    | some n => exact Nat.succ_le_succ (ht (name, n) (mem_of_lookup hcount))
  · exact Nat.le_succ_of_le (ht e he)

theorem le_of_mem_foldl_add (names : List String) {t : Tally} {k : Nat}
    (ht : ∀ e ∈ t.entries, e.2 ≤ k) :
    ∀ e ∈ (names.foldl add t).entries, e.2 ≤ k + names.length := by
  induction names generalizing t k with
  | nil => exact ht
  | cons name names ih =>
    intro e he
    have hle := ih (le_of_mem_add ht name) e he
    rw [List.length_cons]
    omega

theorem le_length_of_mem {names : List String} {e : String × Nat}
    (he : e ∈ (ofNames names).entries) : e.2 ≤ names.length := by
  have hle := le_of_mem_foldl_add names (t := empty) (k := 0) (by simp [empty]) e he
  omega

end Tally

/-! ## Counts -/

/-- A summary counts what is in the lists of its outline, and no more. -/
theorem Summary.countsFit_ofOutline {o : Cobol.Outline}
    (dataItems : o.dataItems.length ≤ Json.maxNatural)
    (paragraphs : o.paragraphs.length ≤ Json.maxNatural)
    (statements : o.statements.length ≤ Json.maxNatural)
    (controlFlow : o.controlFlow.length ≤ Json.maxNatural)
    (conditions : o.conditions.length ≤ Json.maxNatural)
    (fileOperations : o.fileOperations.length ≤ Json.maxNatural)
    (performs : o.performs.length ≤ Json.maxNatural) : (Summary.ofOutline o).CountsFit := by
  have hbranches : ∀ verb, countBranches verb o.controlFlow ≤ Json.maxNatural :=
    fun verb => Nat.le_trans List.countP_le_length controlFlow
  have htally : ∀ names : List String, names.length ≤ Json.maxNatural →
      ∀ e ∈ (Tally.ofNames names).entries, e.2 ≤ Json.maxNatural :=
    fun names hnames e he => Nat.le_trans (Tally.le_length_of_mem he) hnames
  constructor
  case dataItems => exact dataItems
  case statements => exact statements
  case statementTypes => exact htally _ (by rwa [List.length_map])
  case conditions => exact conditions
  case conditionals => exact hbranches .conditional
  case performStatements => exact hbranches .perform
  case evaluates => exact hbranches .evaluate
  case goTos => exact hbranches .goTo
  case fileOperations => exact fileOperations
  case fileOperationTypes => exact htally _ (by rwa [List.length_map])
  case paragraphs => exact paragraphs
  case performs => exact performs

namespace Cobol

open Json

/-! ## Data items -/

/-- Every data item takes a word that opens a line. -/
theorem length_dataItems_le (ts : List Token) :
    (dataItems ts).length ≤ ts.countP Token.opensLine := by
  induction ts using dataItems.induct with
  | case1 level name clause picture rest item hitem ih =>
    have hopens : level.opensLine = true := by
      unfold dataItem? at hitem
      split at hitem
      next h =>
        simp only [Bool.and_eq_true] at h
        exact h.1.1.1.1
      next => cases hitem
    rw [dataItems, hitem, List.length_cons, List.countP_cons_of_pos hopens]
    have hrest : rest.countP Token.opensLine ≤
        (name :: clause :: picture :: rest).countP Token.opensLine :=
      (List.suffix_append [name, clause, picture] rest).sublist.countP_le
    omega
  | case2 level name clause picture rest hnone ih =>
    rw [dataItems, hnone]
    exact Nat.le_trans ih ((List.sublist_cons_self level _).countP_le)
  | case3 ts hshort =>
    rw [dataItems]
    · exact Nat.zero_le _
    · exact hshort

theorem countP_lineTokens_le (line : List Char) :
    (lineTokens line).countP Token.opensLine ≤ 1 := by
  unfold lineTokens
  split
  next => exact Nat.zero_le 1
  next first others _ =>
    have hothers : (others.map (fun w => (⟨false, w⟩ : Token))).countP Token.opensLine = 0 := by
      rw [List.countP_map]
      exact List.countP_eq_zero.2 (fun w _ => by simp)
    rw [List.countP_cons, hothers]
    simp

theorem countP_tokens_le (lines : List (List Char)) :
    (tokens lines).countP Token.opensLine ≤ lines.length := by
  induction lines with
  | nil => exact Nat.le_refl 0
  | cons line lines ih =>
    have hline := countP_lineTokens_le line
    have hcons : tokens (line :: lines) = lineTokens line ++ tokens lines := rfl
    rw [hcons, List.countP_append, List.length_cons]
    omega

theorem length_splitLines_normalize_le (source : String) :
    (splitLines (normalize source).toList).length ≤ (splitLines source.toList).length := by
  rw [splitLines_normalize]
  split
  next =>
    have hpos := List.length_pos_iff.2 (splitLines_ne_nil source.toList)
    rw [List.length_singleton]
    omega
  next => exact length_retainedLines_le source.toList

/-! ## Lists of records -/

theorem InLineOrder.length_le {β : Type} {lineOf : β → Nat} {last : Nat} {records : List β}
    (h : InLineOrder lineOf last records) : records.length ≤ last := by
  have hnodup : (records.map lineOf).Nodup := h.increasing.imp Nat.ne_of_lt
  have hsubset : records.map lineOf ⊆ List.range' 1 last := by
    intro n hn
    obtain ⟨r, hr, rfl⟩ := List.mem_map.1 hn
    have hwithin := h.within r hr
    rw [List.mem_range'_1]
    omega
  have hle := (List.subperm_of_subset hnodup hsubset).length_le
  rwa [List.length_map, List.length_range'] at hle

section
variable {source : String} (h : source.length < maxNatural)
include h

theorem length_splitLines_le_maxNatural : (splitLines source.toList).length ≤ maxNatural := by
  have hle := length_splitLines_le source.toList
  rw [String.length_toList] at hle
  omega

theorem length_retainedLines_le_maxNatural : (retainedLines source.toList).length ≤ maxNatural :=
  Nat.le_trans (length_retainedLines_le source.toList) (length_splitLines_le_maxNatural h)

/-- Every line number in the outline of the source is a 64-bit number. -/
theorem linesFit_outline : (outline source).LinesFit := by
  have hlast := length_retainedLines_le_maxNatural h
  constructor
  case paragraphs =>
    exact fun p hp => Nat.le_trans ((isLedger_paragraphs source).within p hp).2 hlast
  case statements =>
    exact fun s hs => Nat.le_trans ((isLedger_statements source).within s hs).2 hlast
  case controlFlow =>
    exact fun c hc => Nat.le_trans ((isLedger_controlFlow source).within c hc).2 hlast
  case fileOperations =>
    exact fun f hf => Nat.le_trans ((inLineOrder_fileOperations source).within f hf).2 hlast
  case performs =>
    exact fun p hp => Nat.le_trans ((isLedger_performs source).within p hp).2 hlast

theorem length_dataItems_outline_le : (outline source).dataItems.length ≤ maxNatural := by
  rw [dataItems_outline]
  calc (dataItems (tokens (splitLines (normalize source).toList))).length
    _ ≤ (tokens (splitLines (normalize source).toList)).countP Token.opensLine :=
      length_dataItems_le _
    _ ≤ (splitLines (normalize source).toList).length := countP_tokens_le _
    _ ≤ (splitLines source.toList).length := length_splitLines_normalize_le source
    _ ≤ maxNatural := length_splitLines_le_maxNatural h

/-- Every count in the summary of the outline is a 64-bit number. -/
theorem countsFit_outline : (Summary.ofOutline (outline source)).CountsFit := by
  have hlast := length_retainedLines_le_maxNatural h
  apply Summary.countsFit_ofOutline
  case dataItems => exact length_dataItems_outline_le h
  case paragraphs => exact Nat.le_trans (isLedger_paragraphs source).toInLineOrder.length_le hlast
  case statements => exact Nat.le_trans (isLedger_statements source).toInLineOrder.length_le hlast
  case controlFlow => exact Nat.le_trans (isLedger_controlFlow source).toInLineOrder.length_le hlast
  case conditions =>
    rw [conditions_eq_filterMap]
    exact Nat.le_trans (List.length_filterMap_le _ _)
      (Nat.le_trans (isLedger_controlFlow source).toInLineOrder.length_le hlast)
  case fileOperations => exact Nat.le_trans (inLineOrder_fileOperations source).length_le hlast
  case performs => exact Nat.le_trans (isLedger_performs source).toInLineOrder.length_le hlast

end

end Cobol

end Mainframe
