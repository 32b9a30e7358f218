import LiveFeed.Hexadecimal
import LiveFeed.Json.Numeral

namespace LiveFeed.Json

abbrev Text := List Char

/-- Reads something off the front of a text and leaves the rest. -/
abbrev Reader (α : Type) := Text → Except DecodeError (α × Text)

/-- The four characters that may stand between the parts of a JSON text. -/
def isSpace (c : Char) : Bool := c = ' ' || c = '\n' || c = '\t' || c = '\r'

def skipSpace (cs : Text) : Text := cs.dropWhile isSpace

/-- Nothing but space is left. -/
def finish (cs : Text) : Except DecodeError Unit :=
  match skipSpace cs with
  | [] => .ok ()
  | _ :: _ => .error .malformed

/-- The letters of a word, exactly. -/
def word : List Char → Text → Except DecodeError Text
  | [], cs => .ok cs
  | _ :: _, [] => .error .ended
  | w :: ws, c :: cs => if c = w then word ws cs else .error .malformed

/-- The number that four hexadecimal digits stand for. -/
def hexUnit? (a b c d : Char) : Option Nat :=
  if [a, b, c, d].all Hexadecimal.isDigit then some (Hexadecimal.value 16 [a, b, c, d]) else none

/-- What is wrong with a text that has less than four characters where four digits are due. -/
def hexError (cs : Text) : DecodeError :=
  if (String.ofList cs).utf8ByteSize < 4 then .ended else .malformed

def isHighSurrogate (n : Nat) : Bool := 0xD800 ≤ n && n ≤ 0xDBFF

def isLowSurrogate (n : Nat) : Bool := 0xDC00 ≤ n && n ≤ 0xDFFF

/-- The character that a pair of surrogates stands for. -/
def joinSurrogates (high low : Nat) : Char :=
  Char.ofNat (0x10000 + (high - 0xD800) * 0x400 + (low - 0xDC00))

/-- The character that a backslash and one letter stand for. -/
def shortEscape? : Char → Option Char
  | '"' => some '"'
  | '\\' => some '\\'
  | '/' => some '/'
  | 'b' => some '\x08'
  | 'f' => some '\x0c'
  | 'n' => some '\n'
  | 'r' => some '\r'
  | 't' => some '\t'
  | _ => none

/-- The characters of a string up to its closing mark, in front of which `read` stood in reverse. -/
def stringFrom (read : List Char) : Reader (List Char)
  | [] => .error .ended
  | c :: cs =>
    if c = '"' then .ok (read.reverse, cs)
    else if c = '\\' then
      match cs with
      | [] => .error .ended
      | e :: cs =>
        if e = 'u' then
          match cs with
          | h₁ :: h₂ :: h₃ :: h₄ :: cs =>
            match hexUnit? h₁ h₂ h₃ h₄ with
            | none => .error .malformed
            | some n =>
              if isLowSurrogate n then .error .malformed
              else if isHighSurrogate n then
                match cs with
                | [] => .error .ended
                | b :: cs =>
                  if b = '\\' then
                    match cs with
                    | [] => .error .ended
                    | u :: cs =>
                      if u = 'u' then
                        match cs with
                        | l₁ :: l₂ :: l₃ :: l₄ :: cs =>
                          match hexUnit? l₁ l₂ l₃ l₄ with
                          | none => .error .malformed
                          | some m =>
                            if isLowSurrogate m then stringFrom (joinSurrogates n m :: read) cs
                            else .error .malformed
                        | cs => .error (hexError cs)
                      else .error .malformed
                  else .error .malformed
              else stringFrom (Char.ofNat n :: read) cs
          | cs => .error (hexError cs)
        else
          match shortEscape? e with
          | some c => stringFrom (c :: read) cs
          | none => .error .malformed
    else if c.toNat < 0x20 then .error .malformed
    else stringFrom (c :: read) cs

/-- A string whose opening mark is read. -/
def string (cs : Text) : Except DecodeError (String × Text) := do
  let (s, cs) ← stringFrom [] cs
  return (String.ofList s, cs)

/-- A number with its value. -/
def number (cs : Text) : Except DecodeError (Value × Text) := do
  let (n, cs) ← numeral .ended cs
  return (← n.value, cs)

/-- What a value turns out to be at its first character. -/
inductive Glimpse where
  | scalar (v : Value)
  | sequence
  | map

/-- A value of the glimpsed kind; a container is left empty. -/
def Glimpse.value : Glimpse → Value
  | scalar v => v
  | sequence => .array []
  | map => .object []

/-- Reads a scalar to its end, and of a container the opening bracket only. -/
def glimpse (cs : Text) : Except DecodeError (Glimpse × Text) :=
  match skipSpace cs with
  | [] => .error .ended
  | c :: cs =>
    if c = '"' then do
      let (s, cs) ← string cs
      return (.scalar (.string s), cs)
    else if c = '[' then .ok (.sequence, cs)
    else if c = '{' then .ok (.map, cs)
    else if c = '-' || c.isDigit then do
      let (v, cs) ← number (c :: cs)
      return (.scalar v, cs)
    else if c = 'n' then return (.scalar .null, ← word ['u', 'l', 'l'] cs)
    else if c = 't' then return (.scalar (.boolean true), ← word ['r', 'u', 'e'] cs)
    else if c = 'f' then return (.scalar (.boolean false), ← word ['a', 'l', 's', 'e'] cs)
    else .error .malformed

/-- The text from the next element on, or `none` in front of the closing bracket. -/
def nextElement (first : Bool) (cs : Text) : Except DecodeError (Option Text) :=
  match skipSpace cs with
  | [] => .error .ended
  | c :: cs =>
    if c = ']' then .ok none
    else if first then .ok (some (c :: cs))
    else if c = ',' then
      match skipSpace cs with
      | [] => .error .ended
      | d :: cs => if d = ']' then .error .malformed else .ok (some (d :: cs))
    else .error .malformed

/-- The closing bracket of an array, and nothing else, has to come next. -/
def closeArray (cs : Text) : Except DecodeError Text :=
  match skipSpace cs with
  | [] => .error .ended
  | c :: cs => if c = ']' then .ok cs else .error .malformed

/-- The key of the next member and the text behind it, or `none` in front of the closing brace. -/
def nextKey (first : Bool) (cs : Text) : Except DecodeError (Option (String × Text)) :=
  match skipSpace cs with
  | [] => .error .ended
  | c :: cs =>
    if c = '}' then .ok none
    else if first then
      if c = '"' then some <$> string cs else .error .malformed
    else if c = ',' then
      match skipSpace cs with
      | [] => .error .ended
      | d :: cs => if d = '"' then some <$> string cs else .error .malformed
    else .error .malformed

/-- The colon between a key and its value. -/
def colon (cs : Text) : Except DecodeError Text :=
  match skipSpace cs with
  | [] => .error .ended
  | c :: cs => if c = ':' then .ok cs else .error .malformed

/-- The closing brace of an object. -/
def closeObject (cs : Text) : Except DecodeError Text :=
  match skipSpace cs with
  | [] => .error .ended
  | c :: cs => if c = '}' then .ok cs else .error .malformed

/-- The elements of an array to its end, `read` being those before, in reverse; at most `bound`. -/
def elements (item : Reader α) : (bound : Nat) → (first : Bool) → (read : List α) → Reader (List α)
  | 0, _, _, _ => .error .malformed
  | bound + 1, first, read, cs => do
    match ← nextElement first cs with
    | none => return (read.reverse, ← closeArray cs)
    | some cs =>
      let (x, cs) ← item cs
      elements item bound false (x :: read) cs

/-- The members of an object to its end, each handed on with what is known; at most `bound`. -/
def members (member : σ → String → Reader σ) : (bound : Nat) → (first : Bool) → σ → Reader σ
  | 0, _, _, _ => .error .malformed
  | bound + 1, first, known, cs => do
    match ← nextKey first cs with
    | none => return (known, ← closeObject cs)
    | some (key, cs) =>
      let (known, cs) ← member known key cs
      members member bound false known cs

/-- Reads a member's value and puts the member in front of those before it. -/
def collect (item : Reader α) (known : List (String × α)) (key : String) :
    Reader (List (String × α)) := fun cs => do
  let (v, cs) ← item (← colon cs)
  return ((key, v) :: known, cs)

/--
A whole value, with at most `depth` containers around any part of it; `bound` is at least the length
of the text.
-/
def value (bound : Nat) : (depth : Nat) → Reader Value
  | depth, cs => do
    match ← glimpse cs with
    | (.scalar v, cs) => return (v, cs)
    | (.sequence, cs) =>
      match depth with
      | 0 => throw .malformed
      | depth + 1 =>
        let (items, cs) ← elements (value bound depth) bound true [] cs
        return (.array items, cs)
    | (.map, cs) =>
      match depth with
      | 0 => throw .malformed
      | depth + 1 =>
        let (known, cs) ← members (collect (value bound depth)) bound true [] cs
        return (.object known.reverse, cs)

end LiveFeed.Json
