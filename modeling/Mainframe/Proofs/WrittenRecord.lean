import Mainframe.Json.Record
import Mainframe.Proofs.WrittenValue

/-
  Records written as JSON values, decoded.

  A record is written as an object that lists its fields in order. These lemmas
  say what the decoder's tools find in such an object, whatever the fields are,
  so that a particular record needs only its list of names.

  What is proved:
    1. `slots?_zip`: the fields of a written record are found in their order.
    2. `field_eq_of_mem`: a field is found wherever it stands, as long as its
       key is not repeated.
    3. `slots?_of_foreign`: a closed record has no member of another name.
-/

namespace Mainframe.Json

variable {α : Type}

/-! ## Members -/

theorem named_eq_nil {key : String} {members : List (String × Json)}
    (h : key ∉ members.map Prod.fst) : named key members = [] := by
  have hnone : ∀ m ∈ members, ¬(m.1 == key) = true := by
    intro m hm heq
    exact h (eq_of_beq heq ▸ List.mem_map_of_mem hm)
  rw [named, List.filter_eq_nil_iff.2 hnone, List.map_nil]

theorem named_eq_singleton {key : String} {value : Json} {members : List (String × Json)}
    (hnodup : (members.map Prod.fst).Nodup) (h : (key, value) ∈ members) :
    named key members = [value] := by
  induction members with
  | nil => simp at h
  | cons m members ih =>
    rw [List.map_cons, List.nodup_cons] at hnodup
    rcases List.mem_cons.1 h with heq | hmem
    · subst heq
      have hrest := named_eq_nil hnodup.1
      simp only [named] at hrest ⊢
      simp [hrest]
    · have hne : (m.1 == key) = false := by
        apply beq_false_of_ne
        rintro rfl
        exact hnodup.1 (List.mem_map.2 ⟨_, hmem, rfl⟩)
      have hrest := ih hnodup.2 hmem
      simp only [named] at hrest ⊢
      simp [hne, hrest]

theorem atMostOnce_of_mem {key : String} {value : Json} {members : List (String × Json)}
    (hnodup : (members.map Prod.fst).Nodup) (h : (key, value) ∈ members) :
    atMostOnce key members = some (some value) := by
  rw [atMostOnce, named_eq_singleton hnodup h]

/-- A value that is found for a key is the only one that the members have for
it. -/
theorem named_of_atMostOnce {key : String} {value : Json} {members : List (String × Json)}
    (h : atMostOnce key members = some (some value)) : named key members = [value] := by
  rw [atMostOnce] at h
  split at h
  next => cases h
  next hnamed => rw [hnamed, Option.some.inj (Option.some.inj h)]
  next => cases h

theorem field_eq_of_mem (decode : Json → Option α) {key : String} {value : Json}
    {members : List (String × Json)} (hnodup : (members.map Prod.fst).Nodup)
    (h : (key, value) ∈ members) : field key decode members = decode value := by
  rw [field, atMostOnce_of_mem hnodup h]
  rfl

/-! ## Slots -/

theorem mapM_atMostOnce {members : List (String × Json)} {names : List String}
    {values : List Json} (hlen : names.length = values.length)
    (h : ∀ m ∈ names.zip values, atMostOnce m.1 members = some (some m.2)) :
    names.mapM (fun name => atMostOnce name members) = some (values.map some) := by
  induction names generalizing values with
  | nil =>
    cases values with
    | nil => rfl
    | cons v values => simp at hlen
  | cons name names ih =>
    cases values with
    | nil => simp at hlen
    | cons v values =>
      have hfirst := h (name, v) (by simp)
      have hrest := ih (by simpa using hlen) (fun m hm => h m (by simp [hm]))
      rw [List.mapM_cons, hfirst, hrest]
      rfl

/-- The fields of an object that lists them in order are found in that order. -/
theorem slots?_zip (isClosed : Bool) (names : List String) (values : List Json) {record : Json}
    (hrecord : record = .object (names.zip values)) (hnodup : names.Nodup)
    (hlen : names.length = values.length) :
    slots? isClosed names record = some (values.map some) := by
  have hkeys : (names.zip values).map Prod.fst = names := List.map_fst_zip (by omega)
  have hall : (names.zip values).all (fun m => names.contains m.1) = true := by
    rw [List.all_eq_true]
    intro m hm
    have hname : m.1 ∈ (names.zip values).map Prod.fst := List.mem_map_of_mem hm
    rw [hkeys] at hname
    simpa using hname
  have hslots : names.mapM (fun name => atMostOnce name (names.zip values)) =
      some (values.map some) :=
    mapM_atMostOnce hlen (fun m hm => atMostOnce_of_mem (by rw [hkeys]; exact hnodup) hm)
  rw [hrecord, slots?, hall, hslots]
  simp

theorem slots?_of_foreign {names : List String} {members : List (String × Json)}
    {m : String × Json} (hm : m ∈ members) (hname : m.1 ∉ names) :
    slots? true names (.object members) = none := by
  have hall : members.all (fun m => names.contains m.1) = false := by
    rw [List.all_eq_false]
    exact ⟨m, hm, by simpa using hname⟩
  rw [slots?, hall]
  simp

/-! ## Lists, options and names -/

/-- A field that was found and can be read hands its value on. -/
theorem required_bind {β : Type} {decode : Json → Option α} {value : Json} {a : α}
    (h : decode value = some a) (next : α → Option β) :
    (required decode (some value) >>= next) = next a := by
  rw [required, Option.bind_some, h]
  rfl

theorem list?_ofList {decode : Json → Option α} {encode : α → Json}
    (h : ∀ a, decode (encode a) = some a) (as : List α) :
    list? decode (.ofList encode as) = some as := by
  rw [ofList, list?]
  induction as with
  | nil => rfl
  | cons a as ih =>
    rw [List.map_cons, List.mapM_cons, h, ih]
    rfl

theorem list?_strings (ss : List String) : list? string? (.ofList .string ss) = some ss :=
  list?_ofList (fun s => (rfl : string? (.string s) = some s)) ss

theorem optional_ofOption {decode : Json → Option α} {encode : α → Json}
    (h : ∀ a, decode (encode a) = some a) (hnull : ∀ a, encode a ≠ .null) (o : Option α) :
    optional decode (some (.ofOption encode o)) = some o := by
  cases o with
  | none => rfl
  | some a =>
    have hdecode := h a
    have hne := hnull a
    rw [ofOption]
    unfold optional
    split
    next heq => cases heq
    next heq => exact absurd (Option.some.inj heq) hne
    next heq =>
      cases heq
      rw [hdecode]
      rfl

theorem optional_string (o : Option String) :
    optional string? (some (.ofOption .string o)) = some o :=
  optional_ofOption (fun s => (rfl : string? (.string s) = some s)) (fun _ => by simp) o

/-! ## Plain records -/

theorem plain_ofList {encode : α → Json} {room : Nat} {as : List α}
    (h : ∀ a ∈ as, Plain room (encode a)) : Plain (room + 1) (.ofList encode as) := by
  refine .array (fun item hitem => ?_)
  obtain ⟨a, ha, rfl⟩ := List.mem_map.1 hitem
  exact h a ha

theorem plain_strings {room : Nat} (ss : List String) : Plain (room + 1) (.ofList .string ss) :=
  plain_ofList (fun s _ => .string s)

theorem plain_ofOption {encode : α → Json} {room : Nat} {o : Option α}
    (h : ∀ a, o = some a → Plain room (encode a)) : Plain room (.ofOption encode o) := by
  cases o with
  | none => exact .null
  | some a => exact h a rfl

theorem itemsFit_iff {room : Nat} {items : List Json} :
    itemsFit room items = true ↔ ∀ item ∈ items, fits room item = true := by
  induction items with
  | nil => simp [itemsFit]
  | cons item items ih => simp [itemsFit, ih]

theorem membersFit_iff {room : Nat} {members : List (String × Json)} :
    membersFit room members = true ↔ ∀ m ∈ members, fits room m.2 = true := by
  induction members with
  | nil => simp [membersFit]
  | cons m members ih => simp [membersFit, ih]

/-- Whatever is plain can be read, and stands no deeper than it may. -/
theorem fits_of_plain {room : Nat} {v : Json} (h : Plain room v) : fits room v = true := by
  induction h with
  | null => rfl
  | bool _ => rfl
  | natural _ => rfl
  | string _ => rfl
  | array _ ih => simpa [fits] using itemsFit_iff.2 ih
  | object _ ih => simpa [fits] using membersFit_iff.2 ih

end Mainframe.Json
