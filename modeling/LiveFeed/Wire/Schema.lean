import LiveFeed.Wire.Form

namespace LiveFeed

/-- A named part of a record. -/
structure Field where
  name : String
  Content : Type
  form : Form Content
  /-- What the field holds when it is not given; without it the field has to be given. -/
  default? : Option Content := none
  /-- The contents for which the field is left out when the record is written. -/
  omits : Content → Bool := fun _ => false

namespace Field

/-- The content of a field that is not given. -/
def absent (f : Field) (error : Mismatch) : Except Mismatch f.Content :=
  match f.default? with
  | some c => .ok c
  | none => .error error

end Field

/-- The contents of all fields, in order. -/
@[reducible] def Row : List Field → Type
  | [] => Unit
  | f :: fs => f.Content × Row fs

/-- The contents of the fields that are given so far. -/
@[reducible] def Draft : List Field → Type
  | [] => Unit
  | f :: fs => Option f.Content × Draft fs

namespace Draft

def empty : (fs : List Field) → Draft fs
  | [] => ()
  | _ :: fs => (none, empty fs)

/--
Gives the field of that name its content, taken by `take` and allowed once; any other name is left
to `skip`. Both hand back what stands behind the member.
-/
def accept (name : String) (take : (f : Field) → Except ε (f.Content × ρ)) (skip : Except ε ρ)
    (duplicate : String → ε) : (fs : List Field) → Draft fs → Except ε (Draft fs × ρ)
  | [], () => do return ((), ← skip)
  | f :: fs, (content, draft) =>
    if f.name = name then
      match content with
      | some _ => .error (duplicate name)
      | none => do
        let (content, rest) ← take f
        return ((some content, draft), rest)
    else do
      let (draft, rest) ← accept name take skip duplicate fs draft
      return ((content, draft), rest)

/-- All contents, with defaults for those not given; the first that has none is missing. -/
def complete : (fs : List Field) → Draft fs → Except Mismatch (Row fs)
  | [], () => .ok ()
  | f :: fs, (content, draft) => do
    let content ← match content with
      | some c => pure c
      | none => f.absent (.missingField f.name)
    return (content, ← complete fs draft)

end Draft

namespace Row

/-- Contents from the elements of an array, in order, and the elements left over. -/
def ofElements (wanted : String) (position : Nat) :
    (fs : List Field) → List Json.Value → Except Mismatch (Row fs × List Json.Value)
  | [], vs => .ok ((), vs)
  | f :: fs, [] => do
    let content ← f.absent (.tooShort position wanted)
    let (row, vs) ← ofElements wanted (position + 1) fs []
    return ((content, row), vs)
  | f :: fs, v :: vs => do
    let content ← f.form.ofValue v
    let (row, vs) ← ofElements wanted (position + 1) fs vs
    return ((content, row), vs)

/-- Contents read off the elements of an array, up to where its bracket has to close. -/
def readElements (bound depth : Nat) (wanted : String) (position : Nat) :
    (fs : List Field) → Json.Reader (Row fs)
  | [], cs => .ok ((), cs)
  | f :: fs, cs => do
    match ← Json.nextElement (position = 0) cs with
    | none =>
      let content ← Form.checked (f.absent (.tooShort position wanted))
      let (row, cs) ← readElements bound depth wanted (position + 1) fs cs
      return ((content, row), cs)
    | some cs =>
      let (content, cs) ← f.form.read bound depth cs
      let (row, cs) ← readElements bound depth wanted (position + 1) fs cs
      return ((content, row), cs)

/-- The members of an object that holds the contents. -/
def members : (fs : List Field) → Row fs → List (List Char)
  | [], () => []
  | f :: fs, (content, row) =>
    if f.omits content then members fs row
    else Json.writeMember f.name (f.form.write content) :: members fs row

end Row

/-- How records of a type are made of fields. -/
structure Schema (α : Type) where
  /-- What a value of another kind is told to be instead. -/
  title : String
  fields : List Field
  ofRow : Row fields → α
  toRow : α → Row fields

namespace Schema

/-- What an array with too few elements is told to be instead. -/
def wanted (s : Schema α) : String := s.title ++ " with " ++ elementCount s.fields.length

/-- A record from the elements of an array, which has to end with the last field. -/
def ofElements (s : Schema α) (vs : List Json.Value) : Except Mismatch α := do
  let (row, unused) ← Row.ofElements s.wanted 0 s.fields vs
  if unused.isEmpty then return s.ofRow row
  else throw (.tooLong vs.length (vs.length - unused.length))

/-- Takes the members of an object into a draft, in the order in which they are written. -/
def acceptAll (fields : List Field) :
    Draft fields → List (String × Json.Value) → Except Mismatch (Draft fields)
  | draft, [] => .ok draft
  | draft, (name, v) :: members => do
    let (draft, ()) ← Draft.accept name (fun f => do return (← f.form.ofValue v, ())) (.ok ())
      .duplicateField fields draft
    acceptAll fields draft members

def ofMembers (s : Schema α) (members : List (String × Json.Value)) : Except Mismatch α := do
  let draft ← acceptAll s.fields (Draft.empty s.fields) members
  return s.ofRow (← Draft.complete s.fields draft)

/-- A record from an array of its fields or an object with them as members. -/
def ofValue (s : Schema α) : Json.Value → Except Mismatch α
  | .array vs => s.ofElements vs
  | .object members => s.ofMembers members
  | v => .error (.wrongType v.found s.title)

/-- Reads one member of an object into a draft; a member of another name is stepped over. -/
def readMember (bound depth : Nat) (fields : List Field) (draft : Draft fields) (name : String) :
    Json.Reader (Draft fields) := fun cs =>
  Draft.accept name
    (fun f => do f.form.read bound depth (← Json.colon cs))
    (do Json.skipValue bound (← Json.colon cs))
    (fun name => .mismatch (.duplicateField name)) fields draft

/-- Reads a record off a text, so that of several faults the first in the text is reported. -/
def read (s : Schema α) (bound depth : Nat) : Json.Reader α := fun cs => do
  match ← Json.glimpse cs, depth with
  | (.scalar v, _), _ => throw (.mismatch (.wrongType v.found s.title))
  | (.sequence, cs), depth + 1 =>
    let (row, cs) ← Row.readElements bound depth s.wanted 0 s.fields cs
    return (s.ofRow row, ← Json.closeArray cs)
  | (.map, cs), depth + 1 =>
    let (draft, cs) ← Json.members (readMember bound depth s.fields) bound true
      (Draft.empty s.fields) cs
    return (s.ofRow (← Form.checked (Draft.complete s.fields draft)), cs)
  | _, 0 => throw .malformed

/-- The members under which a record is written. -/
def members (s : Schema α) (a : α) : List (List Char) := Row.members s.fields (s.toRow a)

def write (s : Schema α) (a : α) : List Char := Json.writeObject (s.members a)

def form (s : Schema α) : Form α where
  ofValue := s.ofValue
  read := s.read
  write := s.write

/-- The most containers that may stand around any part of a text. -/
def maxDepth : Nat := 127

/-- The record that a text stands for, nothing but space around it. -/
def decode (s : Schema α) (text : String) : Except DecodeError α := do
  let (a, rest) ← s.read text.length maxDepth text.toList
  Json.finish rest
  return a

/-- The text of a record. -/
def wire (s : Schema α) (a : α) : String := String.ofList (s.write a)

end Schema

end LiveFeed
