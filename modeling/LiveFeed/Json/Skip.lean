import LiveFeed.Json.Reader

namespace LiveFeed.Json

/-- A string that nobody wants: its escapes have to be well formed, but need not pair up. -/
def skipString : Text → Except DecodeError Text
  | [] => .error .ended
  | c :: cs =>
    if c = '"' then .ok cs
    else if c = '\\' then
      match cs with
      | [] => .error .ended
      | e :: cs =>
        if e = 'u' then
          match cs with
          | h₁ :: h₂ :: h₃ :: h₄ :: cs =>
            if (hexUnit? h₁ h₂ h₃ h₄).isSome then skipString cs else .error .malformed
          | cs => .error (hexError cs)
        else if (shortEscape? e).isSome then skipString cs
        else .error .malformed
    else if c.toNat < 0x20 then .error .malformed
    else skipString cs

inductive Bracket where
  | square
  | curly
  deriving DecidableEq, Repr

def Bracket.closing : Bracket → Char
  | square => ']'
  | curly => '}'

/-- Steps over a scalar, whatever the size of a number, or over an opening bracket. -/
def skipStart (cs : Text) : Except DecodeError (Option Bracket × Text) :=
  match skipSpace cs with
  | [] => .error .ended
  | c :: cs =>
    if c = '"' then return (none, ← skipString cs)
    else if c = '[' then .ok (some .square, cs)
    else if c = '{' then .ok (some .curly, cs)
    else if c = '-' || c.isDigit then do
      let (_, cs) ← numeral .malformed (c :: cs)
      return (none, cs)
    else if c = 'n' then return (none, ← word ['u', 'l', 'l'] cs)
    else if c = 't' then return (none, ← word ['r', 'u', 'e'] cs)
    else if c = 'f' then return (none, ← word ['a', 'l', 's', 'e'] cs)
    else .error .malformed

/-- Steps over the key and colon that stand before a value in a bracket of that kind. -/
def skipKey (b : Bracket) (cs : Text) : Except DecodeError Text :=
  match b with
  | .square => .ok cs
  | .curly =>
    match skipSpace cs with
    | [] => .error .ended
    | c :: cs => if c = '"' then do colon (← skipString cs) else .error .malformed

/--
Steps to the end of all open brackets, the innermost of which is first in `opened`; `first` tells
that nothing stands in it yet. The nesting has no limit.
-/
def skipOpen : (bound : Nat) → (first : Bool) → (opened : List Bracket) → Text →
    Except DecodeError Text
  | _, _, [], cs => .ok cs
  | 0, _, _ :: _, _ => .error .malformed
  | bound + 1, first, b :: outer, cs =>
    match skipSpace cs with
    | [] => .error .ended
    | c :: cs =>
      if c = b.closing then skipOpen bound false outer cs
      else if first || c = ',' then do
        let cs ← skipKey b (if first then c :: cs else cs)
        match ← skipStart cs with
        | (none, cs) => skipOpen bound false (b :: outer) cs
        | (some inner, cs) => skipOpen bound true (inner :: b :: outer) cs
      else .error .malformed

/-- Steps over one value that nobody wants; `bound` is at least the length of the text. -/
def skipValue (bound : Nat) (cs : Text) : Except DecodeError Text := do
  match ← skipStart cs with
  | (none, cs) => return cs
  | (some b, cs) => skipOpen bound true [b] cs

end LiveFeed.Json
