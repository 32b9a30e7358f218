namespace LiveFeed.Decimal

/-- The decimal digits of a number, the most significant first. -/
def digits (n : Nat) : List Char := Nat.toDigits 10 n

/-- The number that a row of decimal digits stands for. -/
def value (ds : List Char) : Nat := Nat.ofDigitChars 10 ds 0

/-- At least one digit, and nothing else. -/
def isNumeral (ds : List Char) : Bool := !ds.isEmpty && ds.all Char.isDigit

/-- The number below `2 ^ 64` that the digits stand for, perhaps behind a plus sign. -/
def readUInt64? (text : List Char) : Option UInt64 :=
  let ds := match text with
    | '+' :: ds => ds
    | ds => ds
  if isNumeral ds && value ds < UInt64.size then some (UInt64.ofNat (value ds)) else none

/-- Digits in groups of three, counted from the right and kept apart by commas. -/
def group : List Char → List Char
  | [] => []
  | [d] => [d]
  | d :: ds => if ds.length % 3 = 0 then d :: ',' :: group ds else d :: group ds

end LiveFeed.Decimal
