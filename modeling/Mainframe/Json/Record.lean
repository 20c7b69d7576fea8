import Mainframe.Json.Basic

/-
  Records in JSON.

  A record is written as an object whose members are its fields, in any order,
  or as an array of its fields in their own order. In an object no field may be
  repeated; members that are no fields are passed over unless the record is
  closed.

  A decoder is a function to `Option`, and `none` means that the value has
  another shape.

  What is proved:
    1. `atMostOnce_perm`: what is found for a key does not depend on the order
       of the members.
-/

namespace Mainframe.Json

variable {α : Type}

/-- The values of the members that have the key. -/
def named (key : String) (members : List (String × Json)) : List Json :=
  (members.filter (fun m => m.1 == key)).map Prod.snd

/-- The value of the key's member, if there is one; no result if there are
several. -/
def atMostOnce (key : String) (members : List (String × Json)) : Option (Option Json) :=
  match named key members with
  | [] => some none
  | [value] => some (some value)
  | _ :: _ :: _ => none

/-- The value of each field of a record, in the order of the names, with `none`
for a field that an object does not have. -/
def slots? (isClosed : Bool) (names : List String) : Json → Option (List (Option Json))
  | .object members =>
    if isClosed && !members.all (fun m => names.contains m.1) then none
    else names.mapM (fun name => atMostOnce name members)
  | .array items => if items.length = names.length then some (items.map some) else none
  | _ => none

/-- A field that must be there. -/
def required (decode : Json → Option α) (slot : Option Json) : Option α := slot.bind decode

/-- A field that may be missing or null. -/
def optional (decode : Json → Option α) : Option Json → Option (Option α)
  | none | some .null => some none
  | some value => (decode value).map some

/-- A field that must be there, among the members of an object. -/
def field (key : String) (decode : Json → Option α) (members : List (String × Json)) : Option α :=
  (atMostOnce key members).bind (required decode)

/-- A text. -/
def string? : Json → Option String
  | .string s => some s
  | _ => none

/-- A truth value. -/
def bool? : Json → Option Bool
  | .bool b => some b
  | _ => none

/-- A count. -/
def natural? : Json → Option Nat
  | .natural n => some n
  | _ => none

/-- A list of values. -/
def list? (decode : Json → Option α) : Json → Option (List α)
  | .array items => items.mapM decode
  | _ => none

/-- A keyword: a text, or an object whose only member has the keyword as its
key and null as its value. -/
def keyword? (ofName : String → Option α) : Json → Option α
  | .string s => ofName s
  | .object [(key, .null)] => ofName key
  | _ => none

/-- A tag: a keyword, or its place in the list of all of them. -/
def tag? (all : List α) (name : α → String) : Json → Option α
  | .string s => all.find? (fun a => name a == s)
  | .natural n => all[n]?
  | _ => none

theorem atMostOnce_perm {ms ms' : List (String × Json)} (h : ms.Perm ms') (key : String) :
    atMostOnce key ms = atMostOnce key ms' := by
  have hn : (named key ms).Perm (named key ms') := (h.filter _).map _
  simp only [atMostOnce]
  revert hn
  generalize named key ms = xs
  generalize named key ms' = ys
  intro hn
  match xs, ys, hn with
  | [], ys, hn => rw [hn.nil_eq]
  | [x], ys, hn => rw [List.perm_singleton.1 hn.symm]
  | x :: y :: xs, ys, hn =>
    have hl := hn.length_eq
    match ys, hl with
    | [], hl => simp at hl
    | [_], hl => simp at hl
    | _ :: _ :: _, _ => rfl

end Mainframe.Json
