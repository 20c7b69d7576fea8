/-
  JSON values.

  An object is the list of its members in the order in which they stand, so a
  repeated key is seen. A number is a natural number, or any other number with
  the text in which it is written. A scalar that is written by the rules but
  denotes nothing (a number beyond the range of a double, a text with half of a
  surrogate pair) is `unreadable`; so is an object with such a key.
-/

namespace Mainframe

/-- A JSON value. -/
inductive Json where
  | null
  | bool (b : Bool)
  | natural (n : Nat)
  | decimal (literal : String)
  | string (s : String)
  | array (items : List Json)
  | object (members : List (String × Json))
  | unreadable
  deriving Repr, Inhabited

namespace Json

mutual

/-- Whether the value can be read, with containers at most `room` deep. -/
def fits (room : Nat) : Json → Bool
  | .array items => decide (0 < room) && itemsFit (room - 1) items
  | .object members => decide (0 < room) && membersFit (room - 1) members
  | .unreadable => false
  | _ => true
termination_by structural value => value

/-- Whether every item fits into the room. -/
def itemsFit (room : Nat) : List Json → Bool
  | [] => true
  | item :: items => fits room item && itemsFit room items
termination_by structural items => items

/-- Whether the value of every member fits into the room. -/
def membersFit (room : Nat) : List (String × Json) → Bool
  | [] => true
  | (_, value) :: members => fits room value && membersFit room members
termination_by structural members => members

end

/-- The optional value, or `null`. -/
def ofOption {α : Type} (encode : α → Json) : Option α → Json
  | some a => encode a
  | none => .null

/-- The list of values. -/
def ofList {α : Type} (encode : α → Json) (as : List α) : Json := .array (as.map encode)

end Json

end Mainframe
