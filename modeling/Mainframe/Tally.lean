import Mainframe.Json.Record

/-
  Tallies: how often each name occurs.

  A tally has one entry for a name at most, and its entries ascend by name, so
  two tallies that count alike are equal. Names are ordered by code point.

  What is proved:
    1. `count?_set_self` and `count?_set_of_ne`: setting a count changes the
       count of that name and of no other.
-/

namespace Mainframe

/-- Counts by name, in ascending order of the names. -/
structure Tally where
  entries : List (String × Nat)
  ascending : entries.Pairwise (fun a b => a.1 < b.1)
  deriving DecidableEq

namespace Tally

/-- Nothing has been counted. -/
def empty : Tally := ⟨[], .nil⟩

/-- Whether there is no entry. -/
def isEmpty (t : Tally) : Bool := t.entries.isEmpty

/-- The count of a name in a list of entries. -/
def lookup (name : String) : List (String × Nat) → Option Nat
  | [] => none
  | e :: es => if e.1 = name then some e.2 else lookup name es

/-- The count of a name, if it has one. -/
def count? (t : Tally) (name : String) : Option Nat := lookup name t.entries

/-- The entries with the count of a name put in its place. -/
def put (name : String) (n : Nat) : List (String × Nat) → List (String × Nat)
  | [] => [(name, n)]
  | e :: es =>
    if name < e.1 then (name, n) :: e :: es
    else if e.1 = name then (name, n) :: es
    else e :: put name n es

theorem mem_put {name : String} {n : Nat} {e : String × Nat} {es : List (String × Nat)}
    (h : e ∈ put name n es) : e = (name, n) ∨ e ∈ es := by
  induction es with
  | nil => simpa [put] using h
  | cons d es ih =>
    simp only [put] at h
    split at h
    · simpa using h
    · split at h
      · simp only [List.mem_cons] at h ⊢
        rcases h with h | h
        · exact .inl h
        · exact .inr (.inr h)
      · simp only [List.mem_cons] at h ⊢
        rcases h with h | h
        · exact .inr (.inl h)
        · exact (ih h).imp_right .inr

theorem put_ascending (name : String) (n : Nat) {es : List (String × Nat)}
    (h : es.Pairwise (fun a b => a.1 < b.1)) :
    (put name n es).Pairwise (fun a b => a.1 < b.1) := by
  induction es with
  | nil => simp [put]
  | cons e es ih =>
    have hes := List.pairwise_cons.1 h
    simp only [put]
    split
    next hlt =>
      refine List.pairwise_cons.2 ⟨?_, h⟩
      intro a ha
      rcases List.mem_cons.1 ha with rfl | ha
      · exact hlt
      · exact String.lt_trans hlt (hes.1 a ha)
    next hlt =>
      split
      next heq =>
        subst heq
        exact List.pairwise_cons.2 ⟨hes.1, hes.2⟩
      next hne =>
        refine List.pairwise_cons.2 ⟨?_, ih hes.2⟩
        intro a ha
        rcases mem_put ha with rfl | ha
        · exact Std.lt_of_le_of_ne (String.not_lt.1 hlt) hne
        · exact hes.1 a ha

/-- The tally with the count of a name set. -/
def set (t : Tally) (name : String) (n : Nat) : Tally :=
  ⟨put name n t.entries, put_ascending name n t.ascending⟩

/-- The tally with one more of a name. -/
def add (t : Tally) (name : String) : Tally := t.set name ((t.count? name).getD 0 + 1)

/-- How often each name stands in the list. -/
def ofNames (names : List String) : Tally := names.foldl add empty

/-- The tally as an object. -/
def toJson (t : Tally) : Json := .object (t.entries.map (fun e => (e.1, .natural e.2)))

/-- The tally with one more member read; the last count of a name holds. -/
def addMember (t : Tally) (member : String × Json) : Option Tally :=
  (Json.natural? member.2).map (t.set member.1)

/-- The tally that an object of counts stands for. -/
def ofJson? : Json → Option Tally
  | .object members => members.foldlM addMember empty
  | _ => none

theorem lookup_put_self (name : String) (n : Nat) (es : List (String × Nat)) :
    lookup name (put name n es) = some n := by
  induction es with
  | nil => simp [put, lookup]
  | cons e es ih =>
    simp only [put]
    split
    · simp [lookup]
    · split
      · simp [lookup]
      next hne => simp [lookup, hne, ih]

theorem lookup_put_of_ne {name other : String} (n : Nat) (h : name ≠ other)
    (es : List (String × Nat)) : lookup other (put name n es) = lookup other es := by
  induction es with
  | nil => simp [put, lookup, h]
  | cons e es ih =>
    simp only [put]
    split
    · simp [lookup, h]
    · split
      next heq => simp [lookup, heq, h]
      · simp [lookup, ih]

theorem count?_set_self (t : Tally) (name : String) (n : Nat) :
    (t.set name n).count? name = some n := lookup_put_self name n t.entries

theorem count?_set_of_ne (t : Tally) {name other : String} (n : Nat) (h : name ≠ other) :
    (t.set name n).count? other = t.count? other := lookup_put_of_ne n h t.entries

end Tally

end Mainframe
