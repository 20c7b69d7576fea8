import Mainframe.Json.Basic

/-
  JSON text of a value.

  In a text, a quotation mark, a backslash and every control character below
  U+0020 is escaped, by a letter where there is one and by four lower-case
  hexadecimal digits otherwise. Every other character stands for itself.

  A layout says what stands in front of each item and what separates a key from
  its value. An empty container has nothing between its brackets.
-/

namespace Mainframe.Json

/-- The hexadecimal digit of a number below sixteen, in lower case. -/
def hexDigit (n : Nat) : Char :=
  if n < 10 then Char.ofNat ('0'.toNat + n) else Char.ofNat ('a'.toNat + (n - 10))

/-- How a character is written in a text. -/
def escapeChar (c : Char) : List Char :=
  if c = '"' then ['\\', '"']
  else if c = '\\' then ['\\', '\\']
  else if c = '\x08' then ['\\', 'b']
  else if c = '\x0c' then ['\\', 'f']
  else if c = '\n' then ['\\', 'n']
  else if c = '\r' then ['\\', 'r']
  else if c = '\t' then ['\\', 't']
  else if c.toNat < 32 then
    ['\\', 'u', '0', '0', hexDigit (c.toNat / 16), hexDigit (c.toNat % 16)]
  else [c]

/-- How a text is written, with its quotation marks. -/
def quote (s : String) : List Char := '"' :: (s.toList.flatMap escapeChar ++ ['"'])

/-- Where lines are broken and how a key is separated from its value. -/
structure Layout where
  lineBreak : Nat → List Char
  colon : List Char

namespace Layout

/-- No line breaks and no blanks. -/
def compact : Layout := ⟨fun _ => [], [':']⟩

/-- Each item on a line of its own, two blanks further in than its container. -/
def pretty : Layout := ⟨fun depth => '\n' :: List.replicate (2 * depth) ' ', [':', ' ']⟩

end Layout

mutual

/-- The text of a value that stands inside `depth` containers. -/
def write (layout : Layout) (depth : Nat) : Json → List Char
  | .null => ['n', 'u', 'l', 'l']
  | .bool true => ['t', 'r', 'u', 'e']
  | .bool false => ['f', 'a', 'l', 's', 'e']
  | .natural n => Nat.toDigits 10 n
  | .decimal literal => literal.toList
  | .string s => quote s
  | .array [] => ['[', ']']
  | .array (item :: items) =>
    '[' :: (layout.lineBreak (depth + 1) ++ (write layout (depth + 1) item
      ++ (writeItems layout (depth + 1) items ++ (layout.lineBreak depth ++ [']']))))
  | .object [] => ['\x7b', '\x7d']
  | .object ((key, value) :: members) =>
    '\x7b' :: (layout.lineBreak (depth + 1) ++ (quote key ++ (layout.colon
      ++ (write layout (depth + 1) value ++ (writeMembers layout (depth + 1) members
      ++ (layout.lineBreak depth ++ ['\x7d']))))))
  | .unreadable => ['n', 'u', 'l', 'l']
termination_by structural value => value

/-- The text of the items that follow another one. -/
def writeItems (layout : Layout) (depth : Nat) : List Json → List Char
  | [] => []
  | item :: items =>
    ',' :: (layout.lineBreak depth ++ (write layout depth item
      ++ writeItems layout depth items))
termination_by structural items => items

/-- The text of the members that follow another one. -/
def writeMembers (layout : Layout) (depth : Nat) : List (String × Json) → List Char
  | [] => []
  | (key, value) :: members =>
    ',' :: (layout.lineBreak depth ++ (quote key ++ (layout.colon
      ++ (write layout depth value ++ writeMembers layout depth members))))
termination_by structural members => members

end

/-- The text of a value in a layout. -/
def text (layout : Layout) (value : Json) : String := String.ofList (write layout 0 value)

end Mainframe.Json
