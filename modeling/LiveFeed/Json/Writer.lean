namespace LiveFeed.Json

/-- How a character is written inside a string. -/
def writeChar (c : Char) : List Char :=
  match c with
  | '"' => ['\\', '"']
  | '\\' => ['\\', '\\']
  | '\x08' => ['\\', 'b']
  | '\x0c' => ['\\', 'f']
  | '\n' => ['\\', 'n']
  | '\r' => ['\\', 'r']
  | '\t' => ['\\', 't']
  | c =>
    if c.toNat < 0x20 then
      ['\\', 'u', '0', '0', Nat.digitChar (c.toNat / 16), Nat.digitChar (c.toNat % 16)]
    else [c]

def writeString (s : String) : List Char := '"' :: s.toList.flatMap writeChar ++ ['"']

def writeBool (b : Bool) : List Char :=
  if b then ['t', 'r', 'u', 'e'] else ['f', 'a', 'l', 's', 'e']

/-- A member of an object whose value is already written. -/
def writeMember (name : String) (value : List Char) : List Char :=
  writeString name ++ ':' :: value

/-- Written parts with commas between them. -/
def writeList : List (List Char) → List Char
  | [] => []
  | [part] => part
  | part :: parts => part ++ ',' :: writeList parts

def writeObject (members : List (List Char)) : List Char := '{' :: writeList members ++ ['}']

/-- A line end, and two spaces for each level of nesting. -/
def newLine (depth : Nat) : List Char := '\n' :: List.replicate (2 * depth) ' '

/-- Written parts between two brackets, each on a line of its own if there are any. -/
def writeSpread (depth : Nat) (opening closing : Char) (parts : List (List Char)) : List Char :=
  match parts with
  | [] => [opening, closing]
  | parts =>
    opening :: writeList (parts.map (newLine (depth + 1) ++ ·)) ++ newLine depth ++ [closing]

/-- A member of an object that is spread over lines. -/
def writeSpreadMember (name : String) (value : List Char) : List Char :=
  writeString name ++ ':' :: ' ' :: value

end LiveFeed.Json
