import LiveFeed.Config
import LiveFeed.Toml.Document

namespace LiveFeed

open Toml

/-- How a setting is taken from an item; `none` where the item does not fit. -/
abbrev Reading (α : Type) := Item → Option α

namespace Reading

def text : Reading String
  | .text s => some s
  | _ => none

def optionalText : Reading (Option String)
  | .text s => some (some s)
  | _ => none

def flag : Reading Bool
  | .boolean b => some b
  | _ => none

/-- A number that is not negative. -/
def size : Reading UInt64
  | .integer n => if n < 0 then none else some (UInt64.ofNat n.toNat)
  | _ => none

def isEmptyItem : Item → Bool
  | .array [] | .inline [] | .table _ [] => true
  | _ => false

/-- A sort order by its name, which may also be the one key of a table with nothing in it. -/
def order : Reading SortOrder
  | .text name => SortOrder.ofName? name
  | .inline [(name, item)] | .table _ [(name, item)] =>
    if isEmptyItem item then SortOrder.ofName? name else none
  | _ => none

end Reading

/-- Where the settings of a group stand: each under its name, or in order. -/
inductive Group where
  | named (entries : Entries)
  | listed (items : List Item)

namespace Group

def ofItem? : Item → Option Group
  | .inline entries | .table _ entries => some (named entries)
  | .array items => some (listed items)
  | .tables elements => some (listed (elements.map (.table .header)))
  | .moment => some (named [])
  | _ => none

/-- The item of the setting that has this name and position in the group. -/
def item? (g : Group) (position : Nat) (name : String) : Option Item :=
  match g with
  | named entries => entries.lookup name
  | listed items => items[position]?

/-- A setting, which is at its default if it is not given. -/
def setting (g : Group) (position : Nat) (name : String) (reading : Reading α) (default : α) :
    Option α :=
  match g.item? position name with
  | none => some default
  | some item => reading item

end Group

def FeedConfig.ofGroup (g : Group) : Option FeedConfig := do
  return {
    maxFrameBytes := ← g.setting 0 "max_frame_bytes" Reading.size ({} : FeedConfig).maxFrameBytes
    resetOnDisconnect :=
      ← g.setting 1 "reset_on_disconnect" Reading.flag ({} : FeedConfig).resetOnDisconnect }

def ViewsConfig.ofGroup (g : Group) : Option ViewsConfig := do
  return {
    walletOrder := ← g.setting 0 "wallet_order" Reading.order ({} : ViewsConfig).walletOrder
    openStage := ← g.setting 1 "open_stage" Reading.optionalText ({} : ViewsConfig).openStage }

def LoggingConfig.ofGroup (g : Group) : Option LoggingConfig := do
  return {
    level := ← g.setting 0 "level" Reading.text ({} : LoggingConfig).level
    format := ← g.setting 1 "format" Reading.text ({} : LoggingConfig).format }

/-- A group of settings as a setting itself. -/
def Reading.group (ofGroup : Group → Option α) : Reading α := fun item => do
  ofGroup (← Group.ofItem? item)

namespace Config

def ofGroup (g : Group) : Option Config := do
  return {
    feed := ← g.setting 0 "feed" (Reading.group FeedConfig.ofGroup) {}
    views := ← g.setting 1 "views" (Reading.group ViewsConfig.ofGroup) {}
    logging := ← g.setting 2 "logging" (Reading.group LoggingConfig.ofGroup) {} }

/-- The configuration that a document describes. -/
def parse? (text : String) : Option Config := do
  ofGroup (.named (← Document.read? text))

end Config

end LiveFeed
