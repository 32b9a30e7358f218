import LiveFeed.Decimal

namespace LiveFeed.Toml

/-- Takes something off the front of a text and leaves the rest, if it is there. -/
abbrev Scan (α : Type) := List Char → Option (α × List Char)

def isSpace (c : Char) : Bool := c = ' ' || c = '\t'

def skipSpace (cs : List Char) : List Char := cs.dropWhile isSpace

/-- A character that may stand in a comment or between quotes: no control but the tab. -/
def isPlain (c : Char) : Bool := c = '\t' || (0x20 ≤ c.toNat && c.toNat ≠ 0x7F)

/-- The rest behind a line feed, perhaps with a carriage return before it. -/
def newline? : List Char → Option (List Char)
  | '\n' :: cs => some cs
  | '\r' :: '\n' :: cs => some cs
  | _ => none

def skipComment (cs : List Char) : List Char :=
  match cs with
  | '#' :: cs => cs.dropWhile isPlain
  | cs => cs

/-- The rest behind what may still stand on a line: space and a comment. -/
def lineEnd (cs : List Char) : Option (List Char) :=
  match skipComment (skipSpace cs) with
  | [] => some []
  | cs => newline? cs

/-- Steps over space, comments and line ends. -/
def skipLines : (bound : Nat) → List Char → Option (List Char)
  | 0, cs => some cs
  | bound + 1, cs =>
    match skipSpace cs with
    | [] => some []
    | c :: cs =>
      if c = '#' || c = '\n' || c = '\r' then do
        skipLines bound (← newline? (skipComment (c :: cs)))
      else some (c :: cs)

/-- The rest behind a row of characters. -/
def literal : List Char → List Char → Option (List Char)
  | [], cs => some cs
  | _ :: _, [] => none
  | w :: ws, c :: cs => if c = w then literal ws cs else none

/-- A character that passes a test. -/
def oneOf (test : Char → Bool) : Scan Char
  | [] => none
  | c :: cs => if test c then some (c, cs) else none

/-- Exactly so many decimal digits, as a number within bounds. -/
def fixedNumber (count low high : Nat) : Scan Nat := fun cs => do
  let ds := cs.take count
  if ds.length = count && ds.all Char.isDigit then
    let n := Decimal.value ds
    if low ≤ n && n ≤ high then some (n, cs.drop count) else none
  else none

end LiveFeed.Toml
