namespace LiveFeed.Toml

/-- How a table came to be. -/
inductive Origin where
  /-- It has a header of its own, or is the document. -/
  | header
  /-- It lies on the way to a table with a header. -/
  | path
  /-- It lies on the way to a dotted key. -/
  | dotted
  deriving DecidableEq, Repr

/-- What a key of a document stands for. -/
inductive Item where
  | text (s : String)
  | integer (n : Int)
  | float
  | boolean (b : Bool)
  /-- A date, a time of day, or both. -/
  | moment
  | array (items : List Item)
  | inline (entries : List (String × Item))
  | table (origin : Origin) (entries : List (String × Item))
  /-- An array whose elements are tables with a header each. -/
  | tables (elements : List (List (String × Item)))
  deriving Repr

abbrev Entries := List (String × Item)

namespace Entries

/-- Sets what a key stands for. -/
def put (key : String) (item : Item) : Entries → Entries
  | [] => [(key, item)]
  | (k, i) :: entries => if k = key then (k, item) :: entries else (k, i) :: put key item entries

/--
Changes the table that a path leads to; tables on the way are made where they are missing, and of
an array of tables the last is taken. A dotted path does not lead into a table with a header, and
no path leads into a value.
-/
def descend (dotted : Bool) (change : Origin → Entries → Option Entries) :
    List String → Origin → Entries → Option Entries
  | [], origin, entries => change origin entries
  | key :: path, _, entries =>
    match entries.lookup key with
    | none => do
      let origin := if dotted then .dotted else .path
      return put key (.table origin (← descend dotted change path origin [])) entries
    | some (.table origin inner) =>
      if dotted && origin = .header then none
      else do return put key (.table origin (← descend dotted change path origin inner)) entries
    | some (.tables elements) => do
      let last ← descend dotted change path .header (elements.getLast?.getD [])
      return put key (.tables (elements.dropLast ++ [last])) entries
    | some _ => none

/-- Gives a new key its item; a table of dotted keys is not added to but by dotted keys. -/
def assign (path : List String) (key : String) (item : Item) : Origin → Entries → Option Entries :=
  descend true
    (fun origin entries =>
      if decide (origin = .dotted) = path.isEmpty then none
      else if (entries.lookup key).isSome then none
      else some (put key item entries))
    path

/-- A header opens a table that has none yet. -/
def openTable (key : String) (_ : Origin) (entries : Entries) : Option Entries :=
  match entries.lookup key with
  | none => some (put key (.table .header []) entries)
  | some (.table .path inner) => some (put key (.table .header inner) entries)
  | some _ => none

/-- A doubled header opens one more element of an array of tables. -/
def openElement (key : String) (_ : Origin) (entries : Entries) : Option Entries :=
  match entries.lookup key with
  | none => some (put key (.tables [[]]) entries)
  | some (.tables elements) => some (put key (.tables (elements ++ [[]])) entries)
  | some _ => none

end Entries

end LiveFeed.Toml
