import LiveFeed.Hexadecimal
import LiveFeed.Toml.Scan

namespace LiveFeed.Toml

/-- A character given by exactly so many hexadecimal digits. -/
def numberedChar (count : Nat) : Scan Char := fun cs =>
  let ds := cs.take count
  let n := Hexadecimal.value 16 ds
  if ds.length = count && ds.all Hexadecimal.isDigit && n.isValidChar then
    some (Char.ofNat n, cs.drop count)
  else none

/-- The character that stands behind a backslash. -/
def escape : Scan Char
  | 'b' :: cs => some ('\x08', cs)
  | 't' :: cs => some ('\t', cs)
  | 'n' :: cs => some ('\n', cs)
  | 'f' :: cs => some ('\x0c', cs)
  | 'r' :: cs => some ('\r', cs)
  | '"' :: cs => some ('"', cs)
  | '\\' :: cs => some ('\\', cs)
  | 'u' :: cs => numberedChar 4 cs
  | 'U' :: cs => numberedChar 8 cs
  | _ => none

/-- Text in double quotes on one line, up to the closing quote. -/
def basicFrom : (bound : Nat) → (read : List Char) → Scan String
  | 0, _, _ => none
  | _, _, [] => none
  | bound + 1, read, c :: cs =>
    if c = '"' then some (String.ofList read.reverse, cs)
    else if c = '\\' then do
      let (c, cs) ← escape cs
      basicFrom bound (c :: read) cs
    else if isPlain c then basicFrom bound (c :: read) cs
    else none

/-- Text in single quotes on one line, up to the closing quote, without escapes. -/
def literalText (cs : List Char) : Option (String × List Char) :=
  match cs.dropWhile (fun c => isPlain c && c ≠ '\'') with
  | '\'' :: rest => some (String.ofList (cs.takeWhile (fun c => isPlain c && c ≠ '\'')), rest)
  | _ => none

/--
Three quotes close a text of several lines; up to two more in front of them belong to the text.
Fewer than three are text.
-/
def closingQuotes (quote : Char) (read cs : List Char) : Option (String × List Char) :=
  let run := (cs.takeWhile (· = quote)).length
  if run < 3 then none
  else
    let own := min (run - 3) 2
    some (String.ofList (read.reverse ++ List.replicate own quote), cs.drop (own + 3))

/-- Steps over the space and line ends behind a backslash at the end of a line. -/
def skipFold (bound : Nat) (cs : List Char) : Option (List Char) := do
  let cs ← newline? (skipSpace cs)
  let rec go : Nat → List Char → List Char
    | 0, cs => cs
    | bound + 1, cs =>
      match newline? (skipSpace cs) with
      | some cs => go bound cs
      | none => skipSpace cs
  return go bound cs

/-- Text in three quotes, up to the closing ones; a line end counts as a line feed. -/
def linesFrom (quote : Char) : (bound : Nat) → (read : List Char) → Scan String
  | 0, _, _ => none
  | _, _, [] => none
  | bound + 1, read, c :: cs =>
    if c = quote then
      match closingQuotes quote read (c :: cs) with
      | some result => some result
      | none => linesFrom quote bound (c :: read) cs
    else if c = '\\' && quote = '"' then
      match skipFold bound cs with
      | some cs => linesFrom quote bound read cs
      | none => do
        let (c, cs) ← escape cs
        linesFrom quote bound (c :: read) cs
    else
      match newline? (c :: cs) with
      | some cs => linesFrom quote bound ('\n' :: read) cs
      | none => if isPlain c then linesFrom quote bound (c :: read) cs else none

/-- A text of any of the four kinds; a line end right behind three quotes is not part of it. -/
def anyText (bound : Nat) (cs : List Char) : Option (String × List Char) :=
  match cs with
  | '"' :: '"' :: '"' :: cs => linesFrom '"' bound [] ((newline? cs).getD cs)
  | '\'' :: '\'' :: '\'' :: cs => linesFrom '\'' bound [] ((newline? cs).getD cs)
  | '"' :: cs => basicFrom bound [] cs
  | '\'' :: cs => literalText cs
  | _ => none

def isBareKeyChar (c : Char) : Bool := c.isAlphanum || c = '_' || c = '-'

/-- One part of a key: bare, or in quotes of one line. -/
def keyPart (bound : Nat) (cs : List Char) : Option (String × List Char) :=
  match cs with
  | '"' :: cs => basicFrom bound [] cs
  | '\'' :: cs => literalText cs
  | cs =>
    match cs.takeWhile isBareKeyChar with
    | [] => none
    | part => some (String.ofList part, cs.dropWhile isBareKeyChar)

/-- The parts of a key from here on, with points between them and space around them. -/
def keyParts : (bound : Nat) → Scan (List String)
  | 0, _ => none
  | bound + 1, cs => do
    let (part, cs) ← keyPart bound (skipSpace cs)
    match skipSpace cs with
    | '.' :: cs =>
      let (parts, cs) ← keyParts bound cs
      return (part :: parts, cs)
    | cs => return ([part], cs)

/-- No key or nesting is deeper than this. -/
def maxDepth : Nat := 79

/-- A key: the parts on the way and the last one. -/
def key (bound : Nat) (cs : List Char) : Option ((List String × String) × List Char) := do
  let (parts, cs) ← keyParts bound cs
  if parts.length ≤ maxDepth then return ((parts.dropLast, ← parts.getLast?), cs) else none

end LiveFeed.Toml
