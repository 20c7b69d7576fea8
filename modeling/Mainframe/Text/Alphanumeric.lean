import Mainframe.Text.Ranges
import Mainframe.Text.Alphabetic
import Mainframe.Text.Numeral

/-
  Alphanumeric characters and numeric characters.

  These classes go by Unicode 17, so the tables of what it adds count here. A
  letter that is new in it is alphanumeric though it belongs to no word. ASCII
  characters are decided without the tables.
-/

namespace Mainframe.Text

/-- Whether the character is a number of any kind. -/
def isNumeric (c : Char) : Bool :=
  if c.toNat < 128 then c.isDigit
  else inRanges decimalRanges c.toNat || inRanges otherNumberRanges c.toNat
    || inRanges laterNumberRanges c.toNat

/-- Whether the character is Alphabetic or a number of any kind. -/
def isAlphanumeric (c : Char) : Bool :=
  if c.toNat < 128 then c.isAlphanum
  else inRanges alphabeticRanges c.toNat || inRanges laterAlphabeticRanges c.toNat || isNumeric c

end Mainframe.Text
