import Mainframe.Proofs.FieldBounds
import Mainframe.Proofs.UnusedParagraphs

/-
  The two views of a PERFORM.

  A PERFORM is read twice. As a branch it names whatever stands in front of the
  next full stop; as a call it names the run of name characters behind the gap.
  Each view looks for the first PERFORM of the line that it can read. They read
  the same one, if the branch names something that starts like a name: a call
  further left would have the full stop of that branch behind it, and so would
  be a branch as well.

  What is proved:
    1. `fitsAt_of_callsAt`: a call in front of a full stop is a branch.
    2. `callsFirst_of_perform?`: the first PERFORM that is a branch is the first
       one that is a call.
    3. `InLineOrder.filter_line`: of records in line order, no two stand on one
       line.
    4. `perform_views_agree`: the calls of a source on the line of a branch.
-/

namespace Mainframe.Cobol

open Mainframe.Text

/-! ## The first PERFORM of a line -/

/-- A target that starts like a name starts with a call of that name. -/
theorem startsCall_of_field {here target : List Char} (h : field atStop here = some (target, ()))
    (hopens : ∃ c ∈ target.head?, isNameChar c = true) :
    StartsCall (target.takeWhile isNameChar) [] here := by
  obtain ⟨tail, rfl, -, htail, -⟩ := field_eq_some_iff.1 h
  refine ⟨target.dropWhile isNameChar ++ tail, ?_, List.all_eq_true.1 List.all_takeWhile, ?_, ?_⟩
  · obtain ⟨c, hc, hname⟩ := hopens
    obtain ⟨others, rfl⟩ := List.head?_eq_some_iff.1 hc
    rw [List.takeWhile_cons_of_pos hname]
    exact List.cons_ne_nil _ _
  · rw [← List.append_assoc, List.takeWhile_append_dropWhile]
  · -- the name ends inside the target, or at the full stop behind it
    obtain ⟨behind, rfl⟩ := atStop_eq_some_iff.1 htail
    have hinside := opensWithout_dropWhile isNameChar target
    cases hrest : target.dropWhile isNameChar with
    | nil =>
      intro d hd
      rw [← Option.some.inj hd]
      rfl
    | cons d rest =>
      rw [hrest] at hinside
      exact hinside

/-- A call in front of a full stop is a branch. -/
theorem fitsAt_of_callsAt {line name : List Char} {n : Nat} (h : CallsAt performWords line n name)
    (hstop : '.' ∈ line.drop n) : ∃ f, FitsAt "PERFORM".toList (spaced atStop) line n f := by
  obtain ⟨hapart, gap, rest, hgap, hdrop, hcall⟩ := h
  have hopens : OpensWithout isBlank rest := hcall.opensWithout (by simp)
  obtain ⟨behind, hne, hname, rfl, -⟩ := hcall
  obtain ⟨c, others, rfl⟩ := List.exists_cons_of_ne_nil hne
  -- the full stop is none of the keyword, the gap and the first character of the name
  have htail : '.' ∈ (c :: others ++ behind).tail := by
    rw [hdrop, List.mem_append, List.mem_append, List.cons_append, List.mem_cons] at hstop
    rcases hstop with hword | hblank | rfl | htail
    · exact absurd hword (by decide)
    · exact absurd (hgap.2 _ hblank) (by decide)
    · exact absurd (hname _ List.mem_cons_self) (by decide)
    · exact htail
  obtain ⟨f, hf⟩ := Option.isSome_iff_exists.1 (isSome_field_stop htail)
  exact ⟨f, hapart, gap ++ (c :: others ++ behind), hdrop, spaced_of_gap hgap hopens hf⟩

/-- The first PERFORM that is a branch is the first one that is a call, if what
it names starts like a name. -/
theorem callsFirst_of_perform? {line : List Char} {target : String}
    (h : perform? line = some (.perform target))
    (hopens : ∃ c ∈ target.toList.head?, isNameChar c = true) :
    CallsFirst performWords line (target.toList.takeWhile isNameChar) := by
  obtain ⟨⟨found, _⟩, hfind, htarget⟩ := Option.map_eq_some_iff.1 h
  rw [← Branch.perform.inj htarget, String.toList_ofList] at hopens ⊢
  obtain ⟨n, ⟨hapart, tail, hdrop, htail⟩, hfirst⟩ := (findWord?_eq_some_iff (by decide)).1 hfind
  obtain ⟨gap, here, hgap, rfl, hfield⟩ := spaced_split htail
  refine ⟨n, ⟨hapart, gap, here, hgap, hdrop, startsCall_of_field hfield hopens⟩, ?_⟩
  intro m hm other hcall
  -- the full stop of the branch stands behind the place of the call
  have hstop : '.' ∈ line.drop n := by
    obtain ⟨behind, rfl, -, hbehind, -⟩ := field_eq_some_iff.1 hfield
    obtain ⟨after, rfl⟩ := atStop_eq_some_iff.1 hbehind
    rw [hdrop]
    simp
  have hsuffix : line.drop n <:+ line.drop m := by
    rw [← Nat.add_sub_cancel' (Nat.le_of_lt hm), ← List.drop_drop]
    exact List.drop_suffix _ _
  obtain ⟨f, hfits⟩ := fitsAt_of_callsAt hcall (hsuffix.subset hstop)
  exact hfirst m hm f hfits

/-! ## Records on a line -/

/-- Of records in line order, no other one stands on the line of a record. -/
theorem InLineOrder.filter_line {β : Type} {lineOf : β → Nat} {last : Nat} {records : List β}
    (h : InLineOrder lineOf last records) {r : β} (hr : r ∈ records) :
    records.filter (fun q => lineOf q == lineOf r) = [r] := by
  obtain ⟨above, below, rfl⟩ := List.append_of_mem hr
  have horder := h.increasing
  rw [List.map_append, List.map_cons, List.pairwise_append, List.pairwise_cons] at horder
  obtain ⟨-, ⟨hbelow, -⟩, habove⟩ := horder
  have hnone : ∀ qs : List β, (∀ q ∈ qs, lineOf q ≠ lineOf r) →
      qs.filter (fun q => lineOf q == lineOf r) = [] := by
    intro qs hqs
    rw [List.filter_eq_nil_iff]
    exact fun q hq heq => hqs q hq (beq_iff_eq.1 heq)
  have hover := hnone above
    (fun q hq => Nat.ne_of_lt (habove _ (List.mem_map_of_mem hq) _ List.mem_cons_self))
  have hunder := hnone below (fun q hq => Nat.ne_of_gt (hbelow _ (List.mem_map_of_mem hq)))
  rw [List.filter_append, hover, List.nil_append, List.filter_cons_of_pos (by simp), hunder]

theorem perform?_of_branch? {line : List Char} {target : String}
    (h : branch? line = some (.perform target)) : perform? line = some (.perform target) := by
  have hconditional : conditional? line ≠ some (.perform target) := by simp [conditional?]
  have hevaluate : evaluate? line ≠ some (.perform target) := by simp [evaluate?]
  have hgoTo : goTo? line ≠ some (.perform target) := by simp [goTo?]
  obtain ⟨rule, hrule, hfound⟩ := List.exists_of_findSome?_eq_some h
  simp only [branchRules, List.mem_cons, List.not_mem_nil, or_false] at hrule
  rcases hrule with rfl | rfl | rfl | rfl
  · exact absurd hfound hconditional
  · exact hfound
  · exact absurd hfound hevaluate
  · exact absurd hfound hgoTo

/-- Beside a branch that performs what starts like a name stands a call of that
name. -/
theorem mem_performs_of_branch {source : String} {c : ControlFlow}
    (hc : c ∈ (outline source).controlFlow) {target : String} (hbranch : c.branch = .perform target)
    (hopens : ∃ d ∈ target.toList.head?, isNameChar d = true) :
    ⟨recordId "PERFORM" c.line, String.ofList (target.toList.takeWhile isNameChar), c.line⟩ ∈
      (outline source).performs := by
  rw [controlFlow_outline, controlFlow, mem_collect] at hc
  obtain ⟨line, hline, branch, hfound, rfl⟩ := hc
  have hperform : branch? line.1 = some (.perform target) := hfound.trans (congrArg some hbranch)
  rw [performs_outline, performs, mem_collect]
  exact ⟨line, hline, _, performTarget?_eq_some_iff.2
    (callsFirst_of_perform? (perform?_of_branch? hperform) hopens), rfl⟩

/-- The two views of a PERFORM agree where what it names starts like a name: on
the line of the branch stands one call, and it names the longest part of the
target, from its start, that is a name. -/
theorem perform_views_agree (source : String) {c : ControlFlow}
    (hc : c ∈ (outline source).controlFlow) {target : String} (hbranch : c.branch = .perform target)
    (hopens : ∃ d ∈ target.toList.head?, isNameChar d = true) :
    (outline source).performs.filter (fun p => p.line == c.line) =
      [⟨recordId "PERFORM" c.line, String.ofList (target.toList.takeWhile isNameChar),
        c.line⟩] := by
  have hone := (isLedger_performs source).filter_line (mem_performs_of_branch hc hbranch hopens)
  exact hone

/-- A line with four PERFORMs: inside a word, without a gap, with a name and a
clause, and with a name behind that clause. -/
def fourPerforms : String := "XPERFORM A PERFORM- PERFORM  B-1 VARYING PERFORM C."

theorem perform_views_fourPerforms :
    (outline fourPerforms).performs.filter (fun p => p.line == 1) = [⟨"PERFORM_1", "B-1", 1⟩] := by
  have hc : (⟨"CF_1", 1, .perform "B-1 VARYING PERFORM C"⟩ : ControlFlow) ∈
      (outline fourPerforms).controlFlow := by decide +kernel
  exact perform_views_agree fourPerforms hc rfl ⟨'B', rfl, by decide⟩

end Mainframe.Cobol
