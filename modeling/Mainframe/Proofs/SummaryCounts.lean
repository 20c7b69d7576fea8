import Mathlib.Data.List.Count
import Mathlib.Data.List.Induction
import Mainframe.Proofs.SourceCounts

/-
  What a summary counts.

  A tally takes in one name after the other, and each of them raises one count
  by one: that of an entry that is there, or that of a new one. So after any
  number of names there is an entry for each name that occurs, its count is the
  number of the occurrences, and all counts together are as many as the names.
  Kinds with different names are counted by their names.

  The branches are counted verb by verb, and there are four verbs. Of a source,
  the conditions are those of its IFs, and the warning says that nothing has
  been counted.

  What is proved:
    1. `Tally.count?_ofNames` and `Tally.total_ofNames`: every count of a tally,
       and all of them together.
    2. `Summary.sum_countBranches`: every branch is counted once.
    3. `Cobol.warnings_outline_eq`: when the outline of a source has a warning.
    4. `Summary.ofOutline_counts`: the counts of a summary, for every outline
       and for the outline of a source.
-/

namespace Mainframe

/-! ## Tallies -/

namespace Tally

/-- The sum of the counts in a list of entries. -/
def sumOf : List (String × Nat) → Nat
  | [] => 0
  | e :: es => e.2 + sumOf es

/-- All counts together. -/
def total (t : Tally) : Nat := sumOf t.entries

theorem lookup_eq_none_of_lt {name : String} {es : List (String × Nat)}
    (h : ∀ e ∈ es, name < e.1) : lookup name es = none := by
  induction es with
  | nil => rfl
  | cons e es ih =>
    have hne : e.1 ≠ name := fun heq => String.lt_irrefl name (heq ▸ h e List.mem_cons_self)
    rw [lookup, if_neg hne]
    exact ih (fun d hd => h d (List.mem_cons_of_mem e hd))

/-- What stands among the entries is found, since no name has two of them. -/
theorem mem_entries_iff {t : Tally} {name : String} {n : Nat} :
    (name, n) ∈ t.entries ↔ t.count? name = some n := by
  refine ⟨fun h => ?_, mem_of_lookup⟩
  obtain ⟨es, hascending⟩ := t
  show lookup name es = some n
  induction es with
  | nil => cases h
  | cons e es ih =>
    obtain ⟨hfirst, hothers⟩ := List.pairwise_cons.1 hascending
    rcases List.mem_cons.1 h with rfl | h
    · rw [lookup, if_pos rfl]
    · have hlt : e.1 < name := hfirst (name, n) h
      have hne : e.1 ≠ name := fun heq => String.lt_irrefl name (heq ▸ hlt)
      rw [lookup, if_neg hne]
      exact ih hothers h

/-- Setting a count replaces the one that was there. -/
theorem sumOf_put {name : String} {n : Nat} {es : List (String × Nat)}
    (h : es.Pairwise (fun a b => a.1 < b.1)) :
    sumOf (put name n es) + (lookup name es).getD 0 = sumOf es + n := by
  induction es with
  | nil => simp [put, lookup, sumOf]
  | cons e es ih =>
    obtain ⟨hfirst, hothers⟩ := List.pairwise_cons.1 h
    rw [put]
    split
    next hlt =>
      -- the name is smaller than all others, so it had no count
      have hnone : lookup name (e :: es) = none := by
        apply lookup_eq_none_of_lt
        intro d hd
        rcases List.mem_cons.1 hd with rfl | hd
        · exact hlt
        · exact String.lt_trans hlt (hfirst d hd)
      rw [hnone]
      simp only [sumOf, Option.getD_none]
      omega
    next =>
      split
      next heq =>
        rw [lookup, if_pos heq]
        simp only [sumOf, Option.getD_some]
        omega
      next hne =>
        have hrest := ih hothers
        rw [lookup, if_neg hne]
        simp only [sumOf] at hrest ⊢
        omega

theorem total_add (t : Tally) (name : String) : (t.add name).total = t.total + 1 := by
  have hput : (t.add name).total + (t.count? name).getD 0 =
      t.total + ((t.count? name).getD 0 + 1) := sumOf_put t.ascending
  omega

theorem count?_add_self (t : Tally) (name : String) :
    (t.add name).count? name = some ((t.count? name).getD 0 + 1) := count?_set_self ..

theorem count?_add_of_ne (t : Tally) {name other : String} (h : name ≠ other) :
    (t.add name).count? other = t.count? other := count?_set_of_ne t _ h

theorem ofNames_concat (names : List String) (name : String) :
    ofNames (names ++ [name]) = (ofNames names).add name := List.foldl_concat ..

/-- A name is counted if it occurs, as often as it does. -/
theorem count?_ofNames (names : List String) (name : String) :
    (ofNames names).count? name = if name ∈ names then some (names.count name) else none := by
  induction names using List.reverseRecOn with
  | nil => rfl
  | append_singleton names last ih =>
    rw [ofNames_concat, List.count_append]
    by_cases hlast : last = name
    · subst hlast
      have hmem : last ∈ names ++ [last] := List.mem_append_right names List.mem_cons_self
      rw [count?_add_self, ih, if_pos hmem, List.count_singleton_self]
      split
      next => rfl
      next hnew => rw [List.count_eq_zero_of_not_mem hnew, Option.getD_none]
    · have hmem : name ∈ names ++ [last] ↔ name ∈ names := by simp [Ne.symm hlast]
      have hzero : [last].count name = 0 :=
        List.count_eq_zero_of_not_mem (by simp [Ne.symm hlast])
      rw [count?_add_of_ne _ hlast, ih, hzero, Nat.add_zero]
      simp only [hmem]

theorem total_ofNames (names : List String) : (ofNames names).total = names.length := by
  induction names using List.reverseRecOn with
  | nil => rfl
  | append_singleton names last ih =>
    rw [ofNames_concat, total_add, ih, List.length_append, List.length_singleton]

/-- The tally counts kinds by their names. It has an entry for each kind that
occurs and no other one, with the number of the occurrences. -/
structure CountsKinds {κ : Type} [DecidableEq κ] (nameOf : κ → String) (kinds : List κ)
    (t : Tally) : Prop where
  keys : ∀ name, name ∈ t.entries.map Prod.fst ↔ ∃ kind ∈ kinds, nameOf kind = name
  counts : ∀ kind ∈ kinds, t.count? (nameOf kind) = some (kinds.count kind)
  positive : ∀ e ∈ t.entries, 0 < e.2
  total : t.total = kinds.length

theorem countsKinds_ofNames {κ : Type} [DecidableEq κ] {nameOf : κ → String}
    (hinj : Function.Injective nameOf) (kinds : List κ) :
    CountsKinds nameOf kinds (ofNames (kinds.map nameOf)) := by
  have hcounts : ∀ kind ∈ kinds,
      (ofNames (kinds.map nameOf)).count? (nameOf kind) = some (kinds.count kind) := by
    intro kind hkind
    rw [count?_ofNames, if_pos (List.mem_map_of_mem hkind),
      List.count_map_of_injective kinds nameOf hinj kind]
  have hoccurs : ∀ e ∈ (ofNames (kinds.map nameOf)).entries,
      ∃ kind ∈ kinds, nameOf kind = e.1 ∧ e.2 = kinds.count kind := by
    intro e he
    have hcount := mem_entries_iff.1 he
    rw [count?_ofNames] at hcount
    split at hcount
    next hmem =>
      obtain ⟨kind, hkind, hname⟩ := List.mem_map.1 hmem
      rw [← hname, List.count_map_of_injective kinds nameOf hinj kind] at hcount
      exact ⟨kind, hkind, hname, (Option.some.inj hcount).symm⟩
    next => cases hcount
  constructor
  case keys =>
    intro name
    constructor
    · intro hname
      obtain ⟨e, he, rfl⟩ := List.mem_map.1 hname
      obtain ⟨kind, hkind, hname, -⟩ := hoccurs e he
      exact ⟨kind, hkind, hname⟩
    · rintro ⟨kind, hkind, rfl⟩
      exact List.mem_map.2 ⟨_, mem_entries_iff.2 (hcounts kind hkind), rfl⟩
  case counts => exact hcounts
  case positive =>
    intro e he
    obtain ⟨kind, hkind, -, hcount⟩ := hoccurs e he
    rw [hcount]
    exact List.count_pos_iff.2 hkind
  case total => rw [total_ofNames, List.length_map]

end Tally

/-! ## Branches and warnings -/

/-- Every branch has one of the four verbs. -/
theorem Summary.sum_countBranches (branches : List Cobol.ControlFlow) :
    countBranches .conditional branches + countBranches .perform branches
      + countBranches .evaluate branches + countBranches .goTo branches = branches.length := by
  induction branches with
  | nil => rfl
  | cons c branches ih =>
    have hcons : ∀ verb, countBranches verb (c :: branches) =
        countBranches verb branches + if c.branch.verb == verb then 1 else 0 :=
      fun verb => List.countP_cons
    simp only [hcons, List.length_cons]
    cases c.branch.verb <;> simp only [reduceCtorEq, beq_iff_eq, if_true, if_false] <;> omega

/-- The conditions of branches are those of the IFs among them. -/
theorem Summary.length_conditions (branches : List Cobol.ControlFlow) :
    (branches.filterMap (fun c => c.branch.condition?)).length =
      countBranches .conditional branches := by
  rw [List.length_filterMap_eq_countP, countBranches]
  apply List.countP_congr
  intro c _
  cases c.branch <;> simp [Cobol.Branch.condition?, Cobol.Branch.verb]

/-- The outline of a source has one warning if nothing in it is executable, and
none otherwise. -/
theorem Cobol.warnings_outline_eq (source : String) :
    (Cobol.outline source).warnings =
      if (Cobol.outline source).isDeclarative then [Cobol.Outline.declarativeWarning] else [] := by
  rw [Cobol.outline, Cobol.isDeclarative_checked]
  exact Cobol.warnings_checked rfl

/-! ## Summaries -/

namespace Summary

/-- The summary counts what is in the outline: the statements by their verbs,
the uses of files by theirs, and every branch under one of four verbs. -/
structure Counts (o : Cobol.Outline) (s : Summary) : Prop where
  statementTypes :
    s.statementTypes.CountsKinds Cobol.Verb.name (o.statements.map (fun r => r.action.verb))
  statements : s.statementTypes.total = s.statements
  fileOperationTypes :
    s.fileOperationTypes.CountsKinds Cobol.FileVerb.keyword (o.fileOperations.map (fun r => r.verb))
  fileOperations : s.fileOperationTypes.total = s.fileOperations
  branches : s.conditionals + s.performStatements + s.evaluates + s.goTos = o.controlFlow.length

/-- No statement, no branch of any kind and no use of a file is counted. -/
def CountsNothing (s : Summary) : Prop :=
  s.statements = 0 ∧ s.conditionals = 0 ∧ s.performStatements = 0 ∧ s.evaluates = 0 ∧
    s.goTos = 0 ∧ s.fileOperations = 0

theorem counts_ofOutline (o : Cobol.Outline) : (ofOutline o).Counts o := by
  have hstatements : (ofOutline o).statementTypes.CountsKinds Cobol.Verb.name
      (o.statements.map (fun r => r.action.verb)) := by
    have hkinds := Tally.countsKinds_ofNames (fun _ _ => Cobol.Verb.name_inj)
      (o.statements.map (fun r => r.action.verb))
    rwa [List.map_map] at hkinds
  have hfiles : (ofOutline o).fileOperationTypes.CountsKinds Cobol.FileVerb.keyword
      (o.fileOperations.map (fun r => r.verb)) := by
    have hkinds := Tally.countsKinds_ofNames (fun _ _ => Cobol.FileVerb.keyword_inj)
      (o.fileOperations.map (fun r => r.verb))
    rwa [List.map_map] at hkinds
  constructor
  case statementTypes => exact hstatements
  case statements => rw [hstatements.total, List.length_map]; rfl
  case fileOperationTypes => exact hfiles
  case fileOperations => rw [hfiles.total, List.length_map]; rfl
  case branches => exact sum_countBranches o.controlFlow

theorem isDeclarative_iff_countsNothing (o : Cobol.Outline) :
    o.isDeclarative = true ↔ (ofOutline o).CountsNothing := by
  have hbranches := (counts_ofOutline o).branches
  have hflow : o.controlFlow = [] ↔ o.controlFlow.length = 0 := List.length_eq_zero_iff.symm
  have hstatements : o.statements = [] ↔ (ofOutline o).statements = 0 :=
    List.length_eq_zero_iff.symm
  have hfiles : o.fileOperations = [] ↔ (ofOutline o).fileOperations = 0 :=
    List.length_eq_zero_iff.symm
  simp only [Cobol.Outline.isDeclarative, Bool.and_eq_true, List.isEmpty_iff, hflow, hstatements,
    hfiles, CountsNothing]
  omega

/-- A summary counts what is in its outline. The summary of a source has as many
conditions as IFs, and a warning if and only if it counts nothing. -/
theorem ofOutline_counts :
    (∀ o, (ofOutline o).Counts o) ∧
      ∀ source, (ofOutline (Cobol.outline source)).conditions =
          (ofOutline (Cobol.outline source)).conditionals ∧
        ((ofOutline (Cobol.outline source)).warnings ≠ [] ↔
          (ofOutline (Cobol.outline source)).CountsNothing) := by
  have hconditions : ∀ o, (ofOutline o).conditions = o.conditions.length := fun _ => rfl
  have hconditionals : ∀ o, (ofOutline o).conditionals =
    countBranches .conditional o.controlFlow := fun _ => rfl
  have hwarnings : ∀ o, (ofOutline o).warnings = o.warnings := fun _ => rfl
  refine ⟨counts_ofOutline, fun source => ⟨?_, ?_⟩⟩
  · rw [hconditions, hconditionals, Cobol.conditions_eq_filterMap, length_conditions]
  · rw [hwarnings, ← isDeclarative_iff_countsNothing, Cobol.warnings_outline_eq]
    cases (Cobol.outline source).isDeclarative <;> simp

end Summary

end Mainframe
