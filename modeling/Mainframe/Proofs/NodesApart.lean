import Mainframe.Proofs.CallGraph

/-
  Nodes of a flowchart that are told apart.

  A node's name is safe for every name: it is made of alphanumeric characters
  and underscores, and opens with no number. It keeps thirty characters of the
  name at most, and an underscore may stand in front of them.

  Two names may become the same node: long ones that begin alike, or names in
  which different characters are replaced. Short names of paragraphs that do not
  open with a hyphen stay apart, since they can be read back. The only character
  that is replaced in them is the hyphen, by an underscore, which no name holds.
  An underscore at the front replaces none, so it was put there for a number.

  What is proved:
    1. `length_nodeName_le`: how long the name of a node is.
    2. `labelOf_nodeName`: a short name is read back from the name of its node.
    3. `nodeName_of_edgeLine`: a line of the flowchart names its two nodes.
    4. `nodes_safe_and_apart`: the nodes and the lines of every flowchart.
-/

namespace Mainframe.Report

open Cobol Text

/-! ## The length of a node's name -/

theorem length_guardNumber_le (s : List Char) : (guardNumber s).length ≤ s.length + 1 := by
  cases s with
  | nil => exact Nat.zero_le _
  | cons c s =>
    rw [guardNumber]
    split
    next => exact Nat.le_refl _
    next => exact Nat.le_succ _

theorem length_nodeName_le (name : String) :
    (nodeName name).toList.length ≤ nodeNameLength + 1 := by
  unfold nodeName
  split
  next => decide
  next c others _ =>
    rw [String.toList_ofList]
    calc (guardNumber (((c :: others).take nodeNameLength).map nodeChar)).length
        ≤ (((c :: others).take nodeNameLength).map nodeChar).length + 1 := length_guardNumber_le _
      _ ≤ nodeNameLength + 1 := by
        rw [List.length_map, List.length_take]
        omega

/-! ## Names that are read back -/

/-- The name is short enough for its node to keep all of it, and does not open
with a hyphen. -/
structure IsNodeLabel (name : String) : Prop where
  isName : IsName name.toList
  short : name.toList.length ≤ nodeNameLength
  opens : name.toList.head? ≠ some '-'

instance (s : List Char) : Decidable (IsName s) :=
  @instDecidableAnd _ _ _ (List.decidableBAll _ s)

instance (name : String) : Decidable (IsNodeLabel name) :=
  decidable_of_iff
    (IsName name.toList ∧ name.toList.length ≤ nodeNameLength ∧ name.toList.head? ≠ some '-')
    ⟨fun h => ⟨h.1, h.2.1, h.2.2⟩, fun h => ⟨h.isName, h.short, h.opens⟩⟩

/-- The text without an underscore at its front. -/
def dropUnderscore : List Char → List Char
  | [] => []
  | c :: s => if c = '_' then s else c :: s

/-- A hyphen for an underscore. -/
def labelChar (c : Char) : Char := if c = '_' then '-' else c

/-- The name that the name of a node is read back as. -/
def labelOf (node : List Char) : List Char := (dropUnderscore node).map labelChar

/-- A character of a name is read back. It becomes an underscore only if it is a
hyphen. -/
theorem labelChar_nodeChar {c : Char} (h : isNameChar c = true) :
    labelChar (nodeChar c) = c ∧ (nodeChar c = '_' → c = '-') := by
  have hall : ∀ n < 128, isNameChar (Char.ofNat n) = true →
      labelChar (nodeChar (Char.ofNat n)) = Char.ofNat n ∧
        (nodeChar (Char.ofNat n) = '_' → Char.ofNat n = '-') := by
    decide +kernel
  have hfacts := hall c.toNat (toNat_lt_of_isNameChar h) (by rwa [Char.ofNat_toNat])
  rwa [Char.ofNat_toNat] at hfacts

theorem map_labelChar_nodeChar {s : List Char} (h : ∀ c ∈ s, isNameChar c = true) :
    (s.map nodeChar).map labelChar = s := by
  rw [List.map_map]
  calc s.map (labelChar ∘ nodeChar)
      = s.map id := List.map_congr_left (fun c hc => (labelChar_nodeChar (h c hc)).1)
    _ = s := List.map_id s

/-- The underscore in front of a number is taken off again. -/
theorem dropUnderscore_guardNumber {s : List Char} (h : s.head? ≠ some '_') :
    dropUnderscore (guardNumber s) = s := by
  cases s with
  | nil => rfl
  | cons c s =>
    rw [guardNumber]
    split
    next => rw [dropUnderscore, if_pos rfl]
    next =>
      rw [dropUnderscore, if_neg]
      rintro rfl
      exact h rfl

theorem labelOf_nodeName {name : String} (h : IsNodeLabel name) :
    labelOf (nodeName name).toList = name.toList := by
  obtain ⟨⟨hne, hchars⟩, hshort, hopens⟩ := h
  unfold nodeName
  split
  next hnil => exact absurd hnil hne
  next c others hname =>
    rw [hname] at hchars hshort hopens ⊢
    have hfirst : ((c :: others).map nodeChar).head? ≠ some '_' := by
      intro hunder
      have hhyphen := (labelChar_nodeChar (hchars c List.mem_cons_self)).2
        (Option.some.inj hunder)
      exact hopens (congrArg some hhyphen)
    rw [String.toList_ofList, List.take_of_length_le hshort, labelOf,
      dropUnderscore_guardNumber hfirst, map_labelChar_nodeChar hchars]

/-- Names that are read back have different nodes. -/
theorem nodeName_inj {a b : String} (ha : IsNodeLabel a) (hb : IsNodeLabel b)
    (h : nodeName a = nodeName b) : a = b := by
  apply String.toList_inj.1
  rw [← labelOf_nodeName ha, h, labelOf_nodeName hb]

/-! ## The lines of a flowchart -/

theorem blank_not_mem_nodeName (name : String) : ' ' ∉ (nodeName name).toList := by
  intro hmem
  have hchar := (isNodeName_nodeName name).chars _ hmem
  exact absurd hchar (by decide)

/-- The name of a node ends at the first blank behind it. -/
theorem takeWhile_nodeName (name : String) (rest : List Char) :
    ((nodeName name).toList ++ ' ' :: rest).takeWhile (fun c => c != ' ') =
        (nodeName name).toList ∧
      ((nodeName name).toList ++ ' ' :: rest).dropWhile (fun c => c != ' ') = ' ' :: rest := by
  apply takeWhile_append_of_opensWithout
  · intro c hc
    rw [bne_iff_ne]
    rintro rfl
    exact blank_not_mem_nodeName name hc
  · intro c hc
    rw [← Option.some.inj hc]
    rfl

/-- A line of the flowchart names its two nodes. -/
theorem nodeName_of_edgeLine {e e' : String × String} (h : edgeLine e = edgeLine e') :
    nodeName e.1 = nodeName e'.1 ∧ nodeName e.2 = nodeName e'.2 := by
  have hline : ∀ e, (edgeLine e).toList =
      "    ".toList ++
        ((nodeName e.1).toList ++ ' ' :: ("--> ".toList ++ (nodeName e.2).toList)) := by
    intro e
    have harrow : " --> ".toList = ' ' :: "--> ".toList := by decide
    simp only [edgeLine, String.toList_append, harrow, List.append_assoc, List.cons_append]
  have hnodes := congrArg String.toList h
  rw [hline, hline, List.append_cancel_left_eq] at hnodes
  obtain ⟨hcaller, hbehind⟩ := takeWhile_nodeName e.1 ("--> ".toList ++ (nodeName e.2).toList)
  obtain ⟨hcaller', hbehind'⟩ := takeWhile_nodeName e'.1 ("--> ".toList ++ (nodeName e'.2).toList)
  rw [hnodes, hcaller'] at hcaller
  rw [hnodes, hbehind'] at hbehind
  have hcallee := List.append_cancel_left (List.cons.inj hbehind).2
  exact ⟨(String.toList_inj.1 hcaller).symm, (String.toList_inj.1 hcallee).symm⟩

/-- Both ends of the edge are names that are read back. -/
def IsLabelled (e : String × String) : Prop := IsNodeLabel e.1 ∧ IsNodeLabel e.2

theorem edgeLine_inj {e e' : String × String} (he : IsLabelled e) (he' : IsLabelled e')
    (h : edgeLine e = edgeLine e') : e = e' := by
  obtain ⟨hcaller, hcallee⟩ := nodeName_of_edgeLine h
  exact Prod.ext (nodeName_inj he.1 he'.1 hcaller) (nodeName_inj he.2 he'.2 hcallee)

/-- Different edges of a flowchart have different lines. -/
theorem edgeLines_apart (o : Cobol.Outline) :
    (edges o).Pairwise (fun e e' => IsLabelled e → IsLabelled e' → edgeLine e ≠ edgeLine e') := by
  have honce : (edges o).Nodup := (isFirstOccurrences_distinct _).once
  exact honce.imp (fun hne he he' hline => hne (edgeLine_inj he he' hline))

/-- Every name has a node with a safe name of at most thirty-one characters.
Short names that do not open with a hyphen have different nodes, so that no two
edges between them have the same line in a flowchart. -/
theorem nodes_safe_and_apart :
    (∀ name, IsNodeName (nodeName name).toList ∧
      (nodeName name).toList.length ≤ nodeNameLength + 1) ∧
    (∀ a b, IsNodeLabel a → IsNodeLabel b → a ≠ b → nodeName a ≠ nodeName b) ∧
    ∀ o : Cobol.Outline, (edges o).Pairwise
      (fun e e' => IsLabelled e → IsLabelled e' → edgeLine e ≠ edgeLine e') :=
  ⟨fun name => ⟨isNodeName_nodeName name, length_nodeName_le name⟩,
    fun _ _ ha hb hne h => hne (nodeName_inj ha hb h), edgeLines_apart⟩

/-- A program with names that open with numbers and differ by a hyphen. -/
def numberedParagraphs : String :=
  "PROCEDURE DIVISION.\nA-1.\nPERFORM 9-A.\nA--1.\nPERFORM 9-A.\nPERFORM 9--A."

theorem nodes_numberedParagraphs :
    IsNodeName (nodeName "9--A").toList ∧ (nodeName "9--A").toList.length ≤ 31 ∧
      (IsNodeLabel "9-A" ∧ IsNodeLabel "9--A" ∧ nodeName "9-A" ≠ nodeName "9--A") ∧
      (edges (outline numberedParagraphs) = [("A-1", "9-A"), ("A--1", "9-A"), ("A--1", "9--A")] ∧
        edgeLine ("A-1", "9-A") ≠ edgeLine ("A--1", "9-A")) := by
  have hedges : edges (outline numberedParagraphs) =
      [("A-1", "9-A"), ("A--1", "9-A"), ("A--1", "9--A")] := by decide +kernel
  have hshort : IsNodeLabel "9-A" := by decide
  have hlong : IsNodeLabel "9--A" := by decide
  obtain ⟨hsafe, hnodes, hlines⟩ := nodes_safe_and_apart
  have hfirst := hlines (outline numberedParagraphs)
  rw [hedges, List.pairwise_cons] at hfirst
  have hline : edgeLine ("A-1", "9-A") ≠ edgeLine ("A--1", "9-A") :=
    hfirst.1 _ List.mem_cons_self ⟨by decide, hshort⟩ ⟨by decide, hshort⟩
  exact ⟨(hsafe _).1, (hsafe _).2, ⟨hshort, hlong, hnodes _ _ hshort hlong (by decide)⟩,
    hedges, hline⟩

-- a hyphen at the front, and what stands behind thirty characters, are not told apart
example : nodeName "-1" = nodeName "1" ∧
    nodeName "A-NAME-OF-EXACTLY-THIRTY-CHARS1" = nodeName "A-NAME-OF-EXACTLY-THIRTY-CHARS2" := by
  decide +kernel

end Mainframe.Report
