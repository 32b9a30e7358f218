import LiveFeed.Balance
import LiveFeed.Json.Skip
import LiveFeed.Json.Writer

namespace LiveFeed

/-- How values of a type stand in JSON. -/
structure Form (α : Type) where
  /-- Takes the value out of a JSON value that is read already. -/
  ofValue : Json.Value → Except Mismatch α
  /-- Reads the value off a text, within bounds on its length and on how deep it nests. -/
  read : (bound depth : Nat) → Json.Reader α
  write : α → List Char

namespace Form

/-- A value of the wrong shape, met while a text is read. -/
def checked (result : Except Mismatch α) : Except DecodeError α := result.mapError .mismatch

/-- Reads a form that no container has, so that one is turned down at its opening bracket. -/
def readScalar (ofValue : Json.Value → Except Mismatch α) : Json.Reader α := fun cs => do
  let (g, cs) ← Json.glimpse cs
  return (← checked (ofValue g.value), cs)

def textOf : Json.Value → Except Mismatch String
  | .string s => .ok s
  | v => .error (.wrongType v.found "a string")

def text : Form String where
  ofValue := textOf
  read _ _ := readScalar textOf
  write := Json.writeString

/-- A text, or null where there is none. -/
def optionalTextOf : Json.Value → Except Mismatch (Option String)
  | .null => .ok none
  | v => some <$> textOf v

def optionalText : Form (Option String) where
  ofValue := optionalTextOf
  read _ _ := readScalar optionalTextOf
  write
    | some s => Json.writeString s
    | none => ['n', 'u', 'l', 'l']

def flagOf : Json.Value → Except Mismatch Bool
  | .boolean b => .ok b
  | v => .error (.wrongType v.found "a boolean")

def flag : Form Bool where
  ofValue := flagOf
  read _ _ := readScalar flagOf
  write := Json.writeBool

def countOf : Json.Value → Except Mismatch UInt64
  | .integer n => if n < 0 then .error (.negative n) else .ok (UInt64.ofNat n.toNat)
  | v => .error (.wrongType v.found "u64")

def count : Form UInt64 where
  ofValue := countOf
  read _ _ := readScalar countOf
  write n := Decimal.digits n.toNat

def balanceOf : Json.Value → Except Mismatch UInt64
  | .integer n => if n < 0 then .error .unmatchedBalance else .ok (UInt64.ofNat n.toNat)
  | .string s =>
    match Balance.parse? s with
    | some n => .ok n
    | none => .error (.invalidBalance s)
  | _ => .error .unmatchedBalance

/-- A number, or a text with groups of digits; any value is read to its end before it is judged. -/
def balance : Form UInt64 where
  ofValue := balanceOf
  read bound depth cs := do
    let (v, cs) ← Json.value bound depth cs
    return (← checked (balanceOf v), cs)
  write n := Decimal.digits n.toNat

end Form

end LiveFeed
