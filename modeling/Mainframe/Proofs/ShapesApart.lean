import Mainframe.Outline
import Mainframe.Proofs.WrittenRecord

/-
  The two shapes of an outline, told apart.

  JSON text carries no mark of the language, and a value is tried as a deck
  before it is tried as a program. The order says nothing about the outcome, as
  long as no value has both shapes.

  Both records are closed, so an object with both shapes would have to lack
  whatever field only one of them has, and a deck must have its job. The array
  form of a record names no fields, but it tells how many there are.

  What is proved:
    1. `slot_eq_none_of_closed`: a field is missing wherever a closed record
       that does not have it, and has another number of fields, is also found.
    2. `shapes_apart`: no value is read as a deck and as a program, so a reader
       that tries the programs first answers every text in the same way.
-/

namespace Mainframe

namespace Json

theorem slots?_length {isClosed : Bool} {names : List String} {items : List Json}
    {slots : List (Option Json)} (h : slots? isClosed names (.array items) = some slots) :
    items.length = names.length := by
  simp only [slots?] at h
  split at h
  · assumption
  · exact absurd h (by simp)

theorem slot_of_slots?_object {isClosed : Bool} {key : String} {names : List String}
    {members : List (String × Json)} {slot : Option Json} {slots : List (Option Json)}
    (h : slots? isClosed (key :: names) (.object members) = some (slot :: slots)) :
    atMostOnce key members = some slot := by
  rw [slots?] at h
  split at h
  · exact absurd h (by simp)
  · rw [List.mapM_cons] at h
    simp only [Option.pure_def, Option.bind_eq_bind, Option.bind_eq_some_iff] at h
    obtain ⟨first, hfirst, rest, -, hslots⟩ := h
    rw [hfirst, (List.cons.inj (Option.some.inj hslots)).1]

theorem named_key_of_closed {names : List String} {members : List (String × Json)}
    {slots : List (Option Json)} (h : slots? true names (.object members) = some slots)
    {m : String × Json} (hm : m ∈ members) : m.1 ∈ names := by
  refine Decidable.byContradiction fun hname => ?_
  rw [slots?_of_foreign hm hname] at h
  exact absurd h (by simp)

/-- The field would be a member that the closed record does not allow, or one
item among too many or too few. -/
theorem slot_eq_none_of_closed {isClosed : Bool} {key : String} {names others : List String}
    {value : Json} {slot : Option Json} {slots slots' : List (Option Json)}
    (hkey : key ∉ others) (hlen : names.length + 1 ≠ others.length)
    (h : slots? isClosed (key :: names) value = some (slot :: slots))
    (hothers : slots? true others value = some slots') : slot = none := by
  cases value with
  | object members =>
    have hmissing : key ∉ members.map Prod.fst := by
      intro hmem
      obtain ⟨m, hm, hname⟩ := List.mem_map.1 hmem
      exact hkey (hname ▸ named_key_of_closed hothers hm)
    have hslot : atMostOnce key members = some none := by
      rw [atMostOnce, named_eq_nil hmissing]
    exact Option.some.inj ((slot_of_slots?_object h).symm.trans hslot)
  | array items =>
    have hitems : items.length = names.length + 1 := slots?_length h
    exact absurd (hitems.symm.trans (slots?_length hothers)) hlen
  | _ => exact absurd h (by simp [slots?])

end Json

open Json

/-- What has the shape of a deck has a member for the job, or an item in its
place, and the job is read from there. -/
theorem Jcl.Outline.job_of_ofJson? {value : Json} {o : Jcl.Outline}
    (h : Jcl.Outline.ofJson? value = some o) :
    ∃ job slots, slots? true Jcl.outlineFields value = some (some job :: slots) ∧
      Jcl.job? job = some o.job := by
  rw [Jcl.Outline.ofJson?, Option.bind_eq_bind, Option.bind_eq_some_iff] at h
  obtain ⟨slots, hslots, hfields⟩ := h
  split at hfields
  next slot steps datasets warnings =>
    simp only [Option.bind_eq_bind, Option.bind_eq_some_iff, Option.some.injEq] at hfields
    obtain ⟨_, hjob, _, -, _, -, _, -, rfl⟩ := hfields
    rw [required, Option.bind_eq_some_iff] at hjob
    obtain ⟨job, rfl, hread⟩ := hjob
    exact ⟨job, _, hslots, hread⟩
  next => cases hfields

theorem Cobol.Outline.slots_of_ofJson? {value : Json} {o : Cobol.Outline}
    (h : Cobol.Outline.ofJson? value = some o) :
    ∃ slots, slots? true Cobol.outlineFields value = some slots := by
  rw [Cobol.Outline.ofJson?, Option.bind_eq_bind, Option.bind_eq_some_iff] at h
  obtain ⟨slots, hslots, -⟩ := h
  exact ⟨slots, hslots⟩

/-- No value has both shapes. -/
theorem Outline.deck_or_program (value : Json) :
    Jcl.Outline.ofJson? value = none ∨ Cobol.Outline.ofJson? value = none := by
  rcases hdeck : Jcl.Outline.ofJson? value with _ | deck
  · exact .inl rfl
  · refine .inr (Option.eq_none_iff_forall_not_mem.2 fun program hprogram => ?_)
    obtain ⟨job, slots, hjob, -⟩ := Jcl.Outline.job_of_ofJson? hdeck
    obtain ⟨slots', hslots⟩ := Cobol.Outline.slots_of_ofJson? hprogram
    have hforeign : "job" ∉ Cobol.outlineFields := by decide
    have hnone := slot_eq_none_of_closed hforeign (by decide) hjob hslots
    exact absurd hnone (by simp)

namespace Outline

/-! ## The order of the shapes -/

/-- The outline whose shape the value has, with the programs' shape tried
first. -/
def ofJsonProgramFirst? (value : Json) : Option Outline :=
  match Cobol.Outline.ofJson? value with
  | some program => some (.cobol program)
  | none => (Jcl.Outline.ofJson? value).map .jcl

/-- The outline whose JSON text this is, by the shapes that `shape?` tells
apart. -/
def ofTextBy (shape? : Json → Option Outline) (text : String) : Except DecodeError Outline :=
  match Json.read .strict text with
  | .error .ended => .error .ended
  | .error .malformed => .error .malformed
  | .ok reading =>
    match shape? reading.value with
    | none => .error .shape
    | some o => if reading.isClean then .ok o else .error .malformed

theorem ofText_eq_ofTextBy : ofText = ofTextBy ofJson? := rfl

theorem ofJsonProgramFirst?_eq : ofJsonProgramFirst? = ofJson? := by
  funext value
  rcases deck_or_program value with hdeck | hprogram
  · rw [ofJsonProgramFirst?, ofJson?, hdeck]
    cases Cobol.Outline.ofJson? value <;> rfl
  · rw [ofJsonProgramFirst?, ofJson?, hprogram]
    cases Jcl.Outline.ofJson? value <;> rfl

/-- No value is read as a deck and as a program, and no text is. So the outcome
of reading a text, with its variant or its failure, does not depend on which of
the two shapes is tried first. -/
theorem shapes_apart :
    (∀ value, Jcl.Outline.ofJson? value = none ∨ Cobol.Outline.ofJson? value = none) ∧
    (∀ text, decodeText? Jcl.Outline.ofJson? text = none ∨
      decodeText? Cobol.Outline.ofJson? text = none) ∧
    ∀ text, ofTextBy ofJsonProgramFirst? text = ofText text := by
  refine ⟨deck_or_program, fun text => ?_, fun text => ?_⟩
  · rw [decodeText?, decodeText?]
    rcases readWhole? .lenient text with _ | value
    · exact .inl rfl
    · exact deck_or_program value
  · rw [ofText_eq_ofTextBy, ofJsonProgramFirst?_eq]

/-- A deck with one of the fields of a program is neither. -/
example : ofText ("\x7b\"job\":\x7b\x7d,\"steps\":[],\"datasets\":[],\"warnings\":[]," ++
    "\"program_info\":\x7b\x7d\x7d") = .error .shape := by
  rfl

end Outline

end Mainframe
