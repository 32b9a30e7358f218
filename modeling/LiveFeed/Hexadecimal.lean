namespace LiveFeed.Hexadecimal

/-- What a hexadecimal digit stands for; its letter may be small or large. -/
def digit? (c : Char) : Option Nat :=
  if '0' ≤ c && c ≤ '9' then some (c.toNat - '0'.toNat)
  else if 'a' ≤ c && c ≤ 'f' then some (c.toNat - 'a'.toNat + 10)
  else if 'A' ≤ c && c ≤ 'F' then some (c.toNat - 'A'.toNat + 10)
  else none

def isDigit (c : Char) : Bool := (digit? c).isSome

/-- The number that digits stand for to a base of at most sixteen. -/
def value (base : Nat) (ds : List Char) : Nat :=
  ds.foldl (fun n d => base * n + (digit? d).getD 0) 0

end LiveFeed.Hexadecimal
