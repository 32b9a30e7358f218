import LiveFeed.Toml.Number

namespace LiveFeed.Toml

/-- The items of an array, up to its closing bracket; a comma may follow the last. -/
def arrayItems (item : Scan Item) : (bound : Nat) → (read : List Item) → Scan (List Item)
  | 0, _, _ => none
  | bound + 1, read, cs => do
    match ← skipLines bound cs with
    | ']' :: cs => return (read.reverse, cs)
    | cs =>
      let (x, cs) ← item cs
      match ← skipLines bound cs with
      | ',' :: cs => arrayItems item bound (x :: read) cs
      | ']' :: cs => return ((x :: read).reverse, cs)
      | _ => none

/-- A key with its item, and the space around the item. -/
def keyItem (item : Scan Item) (bound : Nat) (cs : List Char) :
    Option ((List String × String × Item) × List Char) := do
  let ((path, last), cs) ← key bound cs
  let cs ← literal ['='] cs
  let (x, cs) ← item (skipSpace cs)
  return ((path, last, x), skipSpace cs)

/-- The entries of an inline table from a key on, up to its closing brace. -/
def inlineEntries (item : Scan Item) : (bound : Nat) → Entries → Scan Entries
  | 0, _, _ => none
  | bound + 1, entries, cs => do
    let ((path, last, x), cs) ← keyItem item bound cs
    let entries ← Entries.assign path last x .header entries
    match cs with
    | ',' :: cs => inlineEntries item bound entries cs
    | '}' :: cs => return (entries, cs)
    | _ => none

/-- What may stand behind an equals sign, with at most `depth` arrays and tables around any part. -/
def item (bound : Nat) : (depth : Nat) → Scan Item
  | _, [] => none
  | depth, c :: cs =>
    if c = '"' || c = '\'' then do
      let (s, cs) ← anyText bound (c :: cs)
      return (.text s, cs)
    else if c = '[' then
      match depth with
      | 0 => none
      | depth + 1 => do
        let (items, cs) ← arrayItems (item bound depth) bound [] cs
        return (.array items, cs)
    else if c = '\x7b' then
      match depth with
      | 0 => none
      | depth + 1 =>
        match skipSpace cs with
        | '}' :: cs => some (.inline [], cs)
        | cs => do
          let (entries, cs) ← inlineEntries (item bound depth) bound [] cs
          return (.inline entries, cs)
    else if c = '+' || c = '-' || c.isDigit then numeric bound (c :: cs)
    else if c = 't' then do return (.boolean true, ← literal ['r', 'u', 'e'] cs)
    else if c = 'f' then do return (.boolean false, ← literal ['a', 'l', 's', 'e'] cs)
    else if c = 'i' then do return (.float, ← literal ['n', 'f'] cs)
    else if c = 'n' then do return (.float, ← literal ['a', 'n'] cs)
    else none

/-- A document as far as it is read: all of it, and the path of the table that keys go into. -/
structure Document where
  root : Entries := []
  current : List String := []

namespace Document

/-- A header, single or doubled, turns to another table. -/
def readHeader (bound : Nat) (doc : Document) (cs : List Char) : Option (Document × List Char) := do
  let (isElement, cs) := match cs with
    | '[' :: cs => (true, cs)
    | cs => (false, cs)
  let ((path, last), cs) ← key bound cs
  let cs ← literal (if isElement then [']', ']'] else [']']) cs
  let cs ← lineEnd cs
  let change := if isElement then Entries.openElement last else Entries.openTable last
  let root ← Entries.descend false change path .header doc.root
  return (⟨root, path ++ [last]⟩, cs)

/-- A line with a key puts its item into the current table. -/
def readKey (bound : Nat) (doc : Document) (cs : List Char) : Option (Document × List Char) := do
  let ((path, last, x), cs) ← keyItem (item bound maxDepth) bound cs
  let cs ← lineEnd cs
  let root ← Entries.descend false (Entries.assign path last x) doc.current .header doc.root
  return ({ doc with root }, cs)

def readLines (bound : Nat) : (lines : Nat) → Document → List Char → Option Document
  | 0, _, _ => none
  | lines + 1, doc, cs =>
    match skipSpace cs with
    | [] => some doc
    | c :: cs =>
      if c = '#' || c = '\n' || c = '\r' then do readLines bound lines doc (← lineEnd (c :: cs))
      else if c = '[' then do
        let (doc, cs) ← doc.readHeader bound cs
        readLines bound lines doc cs
      else do
        let (doc, cs) ← doc.readKey bound (c :: cs)
        readLines bound lines doc cs

/-- The entries of a document; a byte order mark in front of it is no part of it. -/
def read? (text : String) : Option Entries :=
  let cs := match text.toList with
    | '\ufeff' :: cs => cs
    | cs => cs
  (readLines (cs.length + 1) (cs.length + 1) {} cs).map (·.root)

end Document

end LiveFeed.Toml
