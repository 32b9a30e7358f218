import LiveFeed.Double
import LiveFeed.Toml.Item
import LiveFeed.Toml.Text

namespace LiveFeed.Toml

/-- Digits that pass a test, with single low lines between them. -/
def groupedFrom (digit : Char → Bool) : (bound : Nat) → (read : List Char) → Scan (List Char)
  | 0, _, _ => none
  | bound + 1, read, cs =>
    match cs with
    | '_' :: c :: rest => if digit c then groupedFrom digit bound (c :: read) rest else none
    | c :: rest =>
      if digit c then groupedFrom digit bound (c :: read) rest else some (read.reverse, cs)
    | [] => some (read.reverse, [])

/-- At least one digit. -/
def grouped (digit : Char → Bool) (bound : Nat) : Scan (List Char) := fun cs => do
  let (c, cs) ← oneOf digit cs
  groupedFrom digit bound [c] cs

/-- A sign, if there is one: whether it is a minus. -/
def sign (cs : List Char) : Bool × List Char :=
  match cs with
  | '-' :: cs => (true, cs)
  | '+' :: cs => (false, cs)
  | cs => (false, cs)

/-- Decimal digits without a needless zero in front. -/
def decimalDigits (bound : Nat) : Scan (List Char)
  | '0' :: cs => some (['0'], cs)
  | cs => grouped Char.isDigit bound cs

/-- The digits of an exponent with its sign. -/
def exponent (bound : Nat) (cs : List Char) : Option (Int × List Char) :=
  match cs with
  | c :: cs =>
    if c = 'e' || c = 'E' then do
      let (negative, cs) := sign cs
      let (ds, cs) ← grouped Char.isDigit bound cs
      let n : Int := Decimal.value ds
      return (if negative then -n else n, cs)
    else none
  | [] => none

/-- A number with a point, an exponent, or both, that is not rounded up to positive infinity. -/
def decimalFloat (bound : Nat) (cs : List Char) : Option (List Char) := do
  let (negative, cs) := sign cs
  let (whole, cs) ← decimalDigits bound cs
  let (fraction, hasPoint, cs) ← match cs with
    | '.' :: cs => do
      let (ds, cs) ← grouped Char.isDigit bound cs
      pure (ds, true, cs)
    | cs => pure ([], false, cs)
  let (scale, hasExponent, cs) := match exponent bound cs with
    | some (n, cs) => (n, true, cs)
    | none => (0, false, cs)
  if !hasPoint && !hasExponent then none
  else if negative || Double.fits (Decimal.value (whole ++ fraction)) (scale - fraction.length)
  then some cs
  else none

/-- A float, also one that is infinite or not a number by name. -/
def float (bound : Nat) (cs : List Char) : Option (List Char) :=
  match decimalFloat bound cs with
  | some cs => some cs
  | none =>
    let (_, cs) := sign cs
    (literal ['i', 'n', 'f'] cs).or (literal ['n', 'a', 'n'] cs)

/-- Digits to a base other than ten, within the range of a signed 64-bit number. -/
def basedInteger (base : Nat) (digit : Char → Bool) (bound : Nat) (cs : List Char) :
    Option (Int × List Char) := do
  let (ds, cs) ← grouped digit bound cs
  let n := Hexadecimal.value base ds
  if n < UInt64.size / 2 then some (n, cs) else none

/-- A signed 64-bit integer, to base ten unless it says otherwise. -/
def integer (bound : Nat) (cs : List Char) : Option (Int × List Char) :=
  match cs with
  | '0' :: 'x' :: cs => basedInteger 16 Hexadecimal.isDigit bound cs
  | '0' :: 'o' :: cs => basedInteger 8 (fun c => '0' ≤ c && c ≤ '7') bound cs
  | '0' :: 'b' :: cs => basedInteger 2 (fun c => c = '0' || c = '1') bound cs
  | cs => do
    let (negative, cs) := sign cs
    let (ds, cs) ← decimalDigits bound cs
    let n := Decimal.value ds
    if negative then if n ≤ UInt64.size / 2 then some (-n, cs) else none
    else if n < UInt64.size / 2 then some (n, cs) else none

def daysInMonth (year month : Nat) : Nat :=
  if month = 2 then if year % 4 = 0 && (year % 100 ≠ 0 || year % 400 = 0) then 29 else 28
  else if month = 4 || month = 6 || month = 9 || month = 11 then 30
  else 31

def date (cs : List Char) : Option (List Char) := do
  let (year, cs) ← fixedNumber 4 0 9999 cs
  let cs ← literal ['-'] cs
  let (month, cs) ← fixedNumber 2 1 12 cs
  let cs ← literal ['-'] cs
  let (_, cs) ← fixedNumber 2 1 (daysInMonth year month) cs
  return cs

/-- A fraction of a second, if there is one. -/
def secondFraction (cs : List Char) : List Char :=
  match cs with
  | '.' :: d :: rest => if d.isDigit then rest.dropWhile Char.isDigit else cs
  | _ => cs

def timeOfDay (cs : List Char) : Option (List Char) := do
  let (_, cs) ← fixedNumber 2 0 23 cs
  let cs ← literal [':'] cs
  let (_, cs) ← fixedNumber 2 0 59 cs
  let cs ← literal [':'] cs
  let (_, cs) ← fixedNumber 2 0 60 cs
  return secondFraction cs

/-- The distance of a time from universal time. -/
def offset (cs : List Char) : Option (List Char) := do
  let (c, cs) ← oneOf (fun c => c = 'Z' || c = 'z' || c = '+' || c = '-') cs
  if c = 'Z' || c = 'z' then return cs
  let (_, cs) ← fixedNumber 2 0 23 cs
  let cs ← literal [':'] cs
  let (_, cs) ← fixedNumber 2 0 59 cs
  return cs

/-- A time of day behind a date, with its offset if it has one. -/
def dayTime (cs : List Char) : Option (List Char) := do
  let (_, cs) ← oneOf (fun c => c = 'T' || c = 't' || c = ' ') cs
  let cs ← timeOfDay cs
  return (offset cs).getD cs

/-- A date, perhaps with a time, or a time of day. -/
def moment (cs : List Char) : Option (List Char) :=
  match date cs with
  | some cs => some ((dayTime cs).getD cs)
  | none => timeOfDay cs

/-- What begins with a digit or a sign. -/
def numeric (bound : Nat) (cs : List Char) : Option (Item × List Char) :=
  match moment cs with
  | some cs => some (.moment, cs)
  | none =>
    match float bound cs with
    | some cs => some (.float, cs)
    | none => do
      let (n, cs) ← integer bound cs
      return (.integer n, cs)

end LiveFeed.Toml
