import LiveFeed.DecodeError
import LiveFeed.Decimal
import LiveFeed.Double

namespace LiveFeed.Json

/-- A number as it is written, taken apart. -/
structure Numeral where
  negative : Bool
  whole : List Char
  /-- The digits behind the point; none where there is no point. -/
  fraction : List Char
  /-- The digits of the exponent and whether they follow a minus sign. -/
  exponent : Option (Bool × List Char)
  deriving DecidableEq, Repr

namespace Numeral

def isWhole (n : Numeral) : Bool := n.fraction.isEmpty && n.exponent.isNone

/--
Takes digits into a significand as long as it stays below `2 ^ 64`, and leaves the digits from the
first one that would not fit.
-/
def absorb (significand : Nat) : List Char → Nat × List Char
  | [] => (significand, [])
  | d :: ds =>
    if 10 * significand + Decimal.value [d] < UInt64.size then
      absorb (10 * significand + Decimal.value [d]) ds
    else (significand, d :: ds)

/-- The significand that the digits give, and the power of ten that it is scaled by. -/
def scaled (n : Numeral) : Nat × Int :=
  let (whole, dropped) := absorb 0 n.whole
  let (significand, unused) := absorb whole n.fraction
  let exponent : Int := match n.exponent with
    | none => 0
    | some (false, ds) => Decimal.value ds
    | some (true, ds) => -Decimal.value ds
  (significand, exponent + dropped.length - (n.fraction.length - unused.length : Nat))

/-- Whether the number lies in the range of a double. -/
def inRange (n : Numeral) : Bool :=
  n.scaled.1 = 0 || n.scaled.2 < 0 || Double.productFits n.scaled.1 n.scaled.2.toNat

/-- The number, if it is whole and its size allows; minus zero is no integer. -/
def integer? (n : Numeral) : Option Int :=
  let size := Decimal.value n.whole
  if !n.isWhole then none
  else if n.negative then
    if 0 < size && size ≤ UInt64.size / 2 then some (-size) else none
  else if size < UInt64.size then some size else none

/-- The value of a number, which has to be in the range of a double. -/
def value (n : Numeral) : Except DecodeError Value :=
  match n.integer? with
  | some i => .ok (.integer i)
  | none => if n.inRange then .ok .fraction else .error .malformed

end Numeral

/-- One or more digits; `short` is the error if the text ends before the first. -/
def digits (short : DecodeError) (cs : List Char) : Except DecodeError (List Char × List Char) :=
  match cs.takeWhile Char.isDigit with
  | [] => .error (if cs.isEmpty then short else .malformed)
  | d :: ds => .ok (d :: ds, cs.dropWhile Char.isDigit)

/-- The digits before the point: a lone zero, or a row that does not begin with zero. -/
def wholeDigits (short : DecodeError) (cs : List Char) :
    Except DecodeError (List Char × List Char) := do
  let (ds, rest) ← digits short cs
  match ds with
  | '0' :: _ :: _ => throw .malformed
  | _ => return (ds, rest)

/-- The digits behind a point, if a point comes next. -/
def fractionDigits (short : DecodeError) (cs : List Char) :
    Except DecodeError (List Char × List Char) :=
  match cs with
  | '.' :: cs => digits short cs
  | cs => .ok ([], cs)

/-- The exponent, if the letter for it comes next. -/
def exponentDigits (short : DecodeError) (cs : List Char) :
    Except DecodeError (Option (Bool × List Char) × List Char) :=
  match cs with
  | c :: cs =>
    if c = 'e' || c = 'E' then do
      let (negative, cs) := match cs with
        | '+' :: cs => (false, cs)
        | '-' :: cs => (true, cs)
        | cs => (false, cs)
      let (ds, cs) ← digits short cs
      return (some (negative, ds), cs)
    else .ok (none, c :: cs)
  | [] => .ok (none, [])

/-- A number off the front of a text; `short` is the error if the text ends inside it. -/
def numeral (short : DecodeError) (cs : List Char) : Except DecodeError (Numeral × List Char) := do
  let (negative, cs) := match cs with
    | '-' :: cs => (true, cs)
    | cs => (false, cs)
  let (whole, cs) ← wholeDigits short cs
  let (fraction, cs) ← fractionDigits short cs
  let (exponent, cs) ← exponentDigits short cs
  return (⟨negative, whole, fraction, exponent⟩, cs)

end LiveFeed.Json
