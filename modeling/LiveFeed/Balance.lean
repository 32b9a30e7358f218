import LiveFeed.Decimal
import LiveFeed.Text.Blank

namespace LiveFeed.Balance

/-- The characters that may stand between the digits of a balance. -/
def isSeparator (c : Char) : Bool := c = ',' || c = '_' || c = ' '

/-- The balance that a text stands for, blanks at its ends and separators left aside. -/
def parse? (raw : String) : Option UInt64 :=
  Decimal.readUInt64? ((Text.trim raw.toList).filter (!isSeparator ·))

/-- A balance as it is shown, in groups of three digits. -/
def display (n : UInt64) : String := String.ofList (Decimal.group (Decimal.digits n.toNat))

end LiveFeed.Balance
