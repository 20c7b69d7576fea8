import Mainframe.Json.Number

/-
  Reading JSON text.

  The text is read one character at a time. A state says what has been read and
  what is due, so the value, or the first fault from the left, is the state
  after the last character. Once a text is malformed it stays so.

  A strict reader asks that every scalar denotes a value and that containers
  stand at most 127 deep. A lenient one keeps a scalar that denotes none as
  `unreadable` and does not limit the depth.

  A text that ends inside a value is `ended`; every other fault is `malformed`.
  What follows a whole value is looked at last: the reader gives the value and
  says whether only blanks follow it.
-/

namespace Mainframe.Json

/-- What a reader asks of scalars and of the depth. -/
inductive Policy where
  | strict
  | lenient
  deriving DecidableEq, Repr

/-- Why there is no value. -/
inductive Fault where
  | ended
  | malformed
  deriving DecidableEq, Repr

/-- How deep containers may stand under a strict policy. -/
def maxDepth : Nat := 127

/-- The members of an object that have been read, last first, or `none` if one
of their keys is unreadable. -/
abbrev Members := Option (List (String × Json))

/-- A container that has been opened and not closed, with what has been read of
it, last first. -/
inductive Frame where
  | array (before : List Json)
  | member (before : Members) (key : Option String)

/-- How far an escape inside a text has been read. -/
inductive Escape where
  | none
  | started
  | hex (taken : List Char)

/-- The part of a text that has been read, last character first; whether a
surrogate stood alone in it; a first surrogate that waits for its second. -/
structure TextState where
  chars : List Char
  isBroken : Bool
  waiting : Option Nat
  escape : Escape

/-- What a text is: a value, or the key of a member. -/
inductive Role where
  | value
  | key (before : Members)

/-- How far a number has been read. -/
inductive NumberPart where
  | sign
  | zero
  | whole
  | point
  | fraction
  | mark
  | markSign
  | exponent
  deriving DecidableEq, Repr

/-- What has been read and what is due. -/
inductive State where
  | value (frames : List Frame)
  | firstItem (frames : List Frame)
  | firstKey (frames : List Frame)
  | nextKey (before : Members) (frames : List Frame)
  | colon (before : Members) (key : Option String) (frames : List Frame)
  | afterItem (before : List Json) (frames : List Frame)
  | afterMember (before : Members) (frames : List Frame)
  | literal (next : Char) (left : List Char) (denoted : Json) (frames : List Frame)
  | number (part : NumberPart) (taken : List Char) (frames : List Frame)
  | text (role : Role) (state : TextState) (frames : List Frame)
  | complete (whole : Json)
  | trailing (whole : Json)
  | malformed

/-- The characters that may stand between the parts of a value. -/
def isSpace (c : Char) : Bool := c == ' ' || c == '\t' || c == '\n' || c == '\r'

/-- The value of a hexadecimal digit. -/
def hexValue (c : Char) : Option Nat :=
  if c.isDigit then some (c.toNat - '0'.toNat)
  else if decide ('a' ≤ c) && decide (c ≤ 'f') then some (c.toNat - 'a'.toNat + 10)
  else if decide ('A' ≤ c) && decide (c ≤ 'F') then some (c.toNat - 'A'.toNat + 10)
  else none

/-- The number that four hexadecimal digits denote, the last one first. -/
def hexUnit : List Char → Option Nat
  | [d, c, b, a] => do
    let a ← hexValue a
    let b ← hexValue b
    let c ← hexValue c
    let d ← hexValue d
    some (((16 * a + b) * 16 + c) * 16 + d)
  | _ => none

/-- The character that a letter behind a backslash stands for. -/
def simpleEscape (c : Char) : Option Char :=
  if c = '"' then some '"'
  else if c = '\\' then some '\\'
  else if c = '/' then some '/'
  else if c = 'b' then some '\x08'
  else if c = 'f' then some '\x0c'
  else if c = 'n' then some '\n'
  else if c = 'r' then some '\r'
  else if c = 't' then some '\t'
  else none

/-- Whether the number is the first half of a surrogate pair. -/
def isFirstSurrogate (n : Nat) : Bool := decide (0xD800 ≤ n) && decide (n < 0xDC00)

/-- Whether the number is the second half of a surrogate pair. -/
def isSecondSurrogate (n : Nat) : Bool := decide (0xDC00 ≤ n) && decide (n < 0xE000)

namespace TextState

/-- Nothing has been read yet. -/
def start : TextState := ⟨[], false, none, .none⟩

/-- A first surrogate that has waited in vain stands alone. -/
def settled (t : TextState) : TextState :=
  { t with isBroken := t.isBroken || t.waiting.isSome, waiting := none }

/-- One more character. -/
def push (t : TextState) (c : Char) : TextState :=
  { t.settled with chars := c :: t.chars, escape := .none }

/-- The character, or the half of one, that four hexadecimal digits denote. -/
def pushUnit (t : TextState) (n : Nat) : TextState :=
  match t.waiting with
  | some first =>
    if isSecondSurrogate n then
      { t with
        chars := Char.ofNat (0x10000 + (first - 0xD800) * 0x400 + (n - 0xDC00)) :: t.chars
        waiting := none
        escape := .none }
    else { t.settled with escape := .none }
  | none =>
    if isFirstSurrogate n then { t with waiting := some n, escape := .none }
    else if isSecondSurrogate n then { t with isBroken := true, escape := .none }
    else { t with chars := Char.ofNat n :: t.chars, escape := .none }

/-- The text without its quotation marks, unless a surrogate stands alone. -/
def result (t : TextState) : Option String :=
  if t.isBroken then none else some (String.ofList t.chars.reverse)

end TextState

/-- What a character does to a text: it goes on, it ends, or it is malformed. -/
inductive TextStep where
  | more (t : TextState)
  | done (t : TextState)
  | malformed

/-- How many bytes the characters take. -/
def byteCount (chars : List Char) : Nat := chars.foldl (fun n c => n + c.utf8Size) 0

/-- One more character of a text. Digits of an escape are looked at as soon as
they take four bytes. -/
def textStep (t : TextState) (c : Char) : TextStep :=
  match t.escape with
  | .none =>
    if c = '\\' then .more { t with escape := .started }
    else if c = '"' then .done t.settled
    else if c.toNat < 32 then .malformed
    else .more (t.push c)
  | .started =>
    if c = 'u' then .more { t with escape := .hex [] }
    else
      match simpleEscape c with
      | some d => .more (t.push d)
      | none => .malformed
  | .hex taken =>
    if byteCount (c :: taken) < 4 then .more { t with escape := .hex (c :: taken) }
    else
      match hexUnit (c :: taken) with
      | some n => .more (t.pushUnit n)
      | none => .malformed

/-- The part of a number that a character goes on with, if it goes on. -/
def NumberPart.next? (part : NumberPart) (c : Char) : Option NumberPart :=
  match part with
  | .sign => if c = '0' then some .zero else if c.isDigit then some .whole else none
  | .zero => if c = '.' then some .point else if c = 'e' ∨ c = 'E' then some .mark else none
  | .whole =>
    if c.isDigit then some .whole
    else if c = '.' then some .point
    else if c = 'e' ∨ c = 'E' then some .mark
    else none
  | .point => if c.isDigit then some .fraction else none
  | .fraction =>
    if c.isDigit then some .fraction else if c = 'e' ∨ c = 'E' then some .mark else none
  | .mark =>
    if c = '+' ∨ c = '-' then some .markSign else if c.isDigit then some .exponent else none
  | .markSign => if c.isDigit then some .exponent else none
  | .exponent => if c.isDigit then some .exponent else none

/-- Whether a number may end after the part, in front of the character. -/
def NumberPart.mayEnd (part : NumberPart) : Bool :=
  match part with
  | .zero | .whole | .fraction | .exponent => true
  | .sign | .point | .mark | .markSign => false

/-- A whole value has been read inside the frames. -/
def deliver (denoted : Json) : List Frame → State
  | [] => .complete denoted
  | .array before :: frames => .afterItem (denoted :: before) frames
  | .member before key :: frames =>
    .afterMember (before.bind (fun ms => key.map (fun k => (k, denoted) :: ms))) frames

/-- The object with the members, which stand last first. -/
def objectOf : Members → Json
  | some ms => .object ms.reverse
  | none => .unreadable

/-- A scalar has been read: it denotes a value, or it is unreadable. -/
def deliverScalar (policy : Policy) (denoted : Option Json) (frames : List Frame) : State :=
  match denoted, policy with
  | some v, _ => deliver v frames
  | none, .lenient => deliver .unreadable frames
  | none, .strict => .malformed

/-- Whether another container may be opened inside the frames. -/
def mayOpen (policy : Policy) (frames : List Frame) : Bool :=
  match policy with
  | .strict => decide (frames.length < maxDepth)
  | .lenient => true

/-- The first character of a value. -/
def beginValue (policy : Policy) (frames : List Frame) (c : Char) : State :=
  if c = '"' then .text .value .start frames
  else if c = '[' then if mayOpen policy frames then .firstItem frames else .malformed
  else if c = '\x7b' then if mayOpen policy frames then .firstKey frames else .malformed
  else if c = 'n' then .literal 'u' ['l', 'l'] .null frames
  else if c = 't' then .literal 'r' ['u', 'e'] (.bool true) frames
  else if c = 'f' then .literal 'a' ['l', 's', 'e'] (.bool false) frames
  else if c = '-' then .number .sign ['-'] frames
  else if c = '0' then .number .zero ['0'] frames
  else if c.isDigit then .number .whole [c] frames
  else .malformed

/-- A character behind a whole value. -/
def afterValue (s : State) (c : Char) : State :=
  match s with
  | .afterItem before frames =>
    if isSpace c then .afterItem before frames
    else if c = ',' then .value (.array before :: frames)
    else if c = ']' then deliver (.array before.reverse) frames
    else .malformed
  | .afterMember before frames =>
    if isSpace c then .afterMember before frames
    else if c = ',' then .nextKey before frames
    else if c = '\x7d' then deliver (objectOf before) frames
    else .malformed
  | .complete v => if isSpace c then .complete v else .trailing v
  | other => other

/-- A character of a text that stands inside the frames. -/
def stepText (policy : Policy) (role : Role) (t : TextState) (frames : List Frame) (c : Char) :
    State :=
  match textStep t c with
  | .malformed => .malformed
  | .more next =>
    if policy = .strict ∧ next.isBroken then .malformed else .text role next frames
  | .done last =>
    if policy = .strict ∧ last.isBroken then .malformed
    else
      match role with
      | .value => deliverScalar policy (last.result.map Json.string) frames
      | .key before => .colon before last.result frames

/-- A character of a number that stands inside the frames. -/
def stepNumber (policy : Policy) (part : NumberPart) (taken : List Char) (frames : List Frame)
    (c : Char) : State :=
  match part.next? c with
  | some next => .number next (c :: taken) frames
  | none =>
    if part.mayEnd && !(part == .zero && c.isDigit) then
      afterValue (deliverScalar policy (numberOf taken.reverse) frames) c
    else .malformed

/-- One more character. -/
def step (policy : Policy) (s : State) (c : Char) : State :=
  match s with
  | .value frames => if isSpace c then .value frames else beginValue policy frames c
  | .firstItem frames =>
    if isSpace c then .firstItem frames
    else if c = ']' then deliver (.array []) frames
    else beginValue policy (.array [] :: frames) c
  | .firstKey frames =>
    if isSpace c then .firstKey frames
    else if c = '\x7d' then deliver (.object []) frames
    else if c = '"' then .text (.key (some [])) .start frames
    else .malformed
  | .nextKey before frames =>
    if isSpace c then .nextKey before frames
    else if c = '"' then .text (.key before) .start frames
    else .malformed
  | .colon before key frames =>
    if isSpace c then .colon before key frames
    else if c = ':' then .value (.member before key :: frames)
    else .malformed
  | .literal next left denoted frames =>
    if c = next then
      match left with
      | [] => deliver denoted frames
      | after :: others => .literal after others denoted frames
    else .malformed
  | .number part taken frames => stepNumber policy part taken frames c
  | .text role t frames => stepText policy role t frames c
  | .afterItem before frames => afterValue (.afterItem before frames) c
  | .afterMember before frames => afterValue (.afterMember before frames) c
  | .complete v => afterValue (.complete v) c
  | .trailing v => .trailing v
  | .malformed => .malformed

/-- A value that has been read, and whether only blanks follow it. -/
structure Reading where
  value : Json
  isClean : Bool

/-- What has been read when the text is over. -/
def State.finish (policy : Policy) : State → Except Fault Reading
  | .complete v => .ok ⟨v, true⟩
  | .trailing v => .ok ⟨v, false⟩
  | .malformed => .error .malformed
  | .number part taken frames =>
    if part.mayEnd then
      match deliverScalar policy (numberOf taken.reverse) frames with
      | .complete v => .ok ⟨v, true⟩
      | .malformed => .error .malformed
      | _ => .error .ended
    else .error .ended
  | _ => .error .ended

/-- The state after the characters. -/
def run (policy : Policy) (s : State) (chars : List Char) : State := chars.foldl (step policy) s

/-- The first value in the text. -/
def read (policy : Policy) (text : String) : Except Fault Reading :=
  (run policy (.value []) text.toList).finish policy

/-- The only value in the text. -/
def readWhole? (policy : Policy) (text : String) : Option Json :=
  match read policy text with
  | .ok reading => if reading.isClean then some reading.value else none
  | .error _ => none

/-- What the only value in the text stands for, if it has the right shape. What
the decoder passes over may be unreadable. -/
def decodeText? {α : Type} (decode : Json → Option α) (text : String) : Option α :=
  (readWhole? .lenient text).bind decode

@[simp] theorem run_nil (policy : Policy) (s : State) : run policy s [] = s := rfl

theorem run_cons (policy : Policy) (s : State) (c : Char) (chars : List Char) :
    run policy s (c :: chars) = run policy (step policy s c) chars := rfl

theorem run_append (policy : Policy) (s : State) (chars chars' : List Char) :
    run policy s (chars ++ chars') = run policy (run policy s chars) chars' := by
  simp only [run, List.foldl_append]

end Mainframe.Json
