import Mainframe.Text.Ranges
import Mainframe.Text.Alphabetic
import Mainframe.Text.Mark
import Mainframe.Text.Numeral

/-
  Word characters.

  A word character is Alphabetic, a Mark, a decimal digit, connector
  punctuation or a join control, by Unicode 16: a letter that came later ends
  a word as a blank does. A keyword is looked for only where a word starts,
  which is where the character before it is no word character. ASCII
  characters are decided without the tables.
-/

namespace Mainframe.Text

/-- The ranges of connector punctuation (category Pc). -/
def connectorRanges : List (Nat × Nat) := [
    (0x005F, 0x005F), (0x203F, 0x2040), (0x2054, 0x2054), (0xFE33, 0xFE34), (0xFE4D, 0xFE4F),
    (0xFF3F, 0xFF3F)]

/-- Whether the character belongs to a word. -/
def isWordChar (c : Char) : Bool :=
  if c.toNat < 128 then c.isAlphanum || c == '_'
  else inRanges alphabeticRanges c.toNat || inRanges markRanges c.toNat
    || inRanges decimalRanges c.toNat || inRanges connectorRanges c.toNat
    || c.toNat == 0x200C || c.toNat == 0x200D

end Mainframe.Text
