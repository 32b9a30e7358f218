import LiveFeed.Message
import LiveFeed.Proofs.BalanceGrammar

namespace LiveFeed

open Json (Value)

/--
What a value gives for some names: an object gives the value of its member, of which it may not
have two, and an array the item in that place, of which the last ones may be cut off.
-/
inductive Gives (names : List String) : Value → List (Option Value) → Prop where
  | object {members : List (String × Value)}
      (h : ∀ name ∈ names, (members.map Prod.fst).count name ≤ 1) :
      Gives names (.object members) (names.map (members.lookup ·))
  | array {items : List Value} (h : items.length ≤ names.length) :
      Gives names (.array items)
        (items.map some ++ List.replicate (names.length - items.length) none)

/-- What is given is read, and what is not given has its default. -/
def Holds {α : Type} (reads : Value → α → Prop) (default? : Option α) : Option Value → α → Prop
  | some v, a => reads v a
  | none, a => default? = some a

namespace Json.Value

def IsText (v : Value) (s : String) : Prop := v = .string s

def IsOptionalText (v : Value) (s? : Option String) : Prop :=
  v = .null ∧ s? = none ∨ ∃ s, v = .string s ∧ s? = some s

def IsFlag (v : Value) (b : Bool) : Prop := v = .boolean b

def IsCount (v : Value) (n : UInt64) : Prop := v = .integer n.toNat

/-- A balance is a number, or a text with groups of digits that stands for one. -/
def IsBalance (v : Value) (n : UInt64) : Prop :=
  v.IsCount n ∨ ∃ s, v = .string s ∧ Balance.Denotes s n.toNat

def IsWallet (v : Value) (w : Wallet) : Prop :=
  ∃ token balance hash, Gives ["token", "balance", "hash"] v [token, balance, hash] ∧
    Holds IsText none token w.token ∧
    Holds IsBalance none balance w.balance ∧
    Holds IsOptionalText (some none) hash w.hash

def IsStage (v : Value) (s : Stage) : Prop :=
  ∃ token caption author moderation count,
    Gives ["token", "caption", "author", "moderation", "count"] v
      [token, caption, author, moderation, count] ∧
    Holds IsText none token s.token ∧
    Holds IsText none caption s.caption ∧
    Holds IsText (some "") author s.author ∧
    Holds IsFlag (some false) moderation s.moderation ∧
    Holds IsCount (some 0) count s.count

def IsEngagement (v : Value) (e : Engagement) : Prop :=
  ∃ token name count, Gives ["token", "name", "count"] v [token, name, count] ∧
    Holds IsText none token e.token ∧
    Holds IsText none name e.name ∧
    Holds IsCount (some 0) count e.count

def IsPost (v : Value) (p : Post) : Prop :=
  ∃ token author timestamp content status moderation,
    Gives ["token", "author", "timestamp", "content", "status", "moderation"] v
      [token, author, timestamp, content, status, moderation] ∧
    Holds IsText none token p.token ∧
    Holds IsText none author p.author ∧
    Holds IsText (some "") timestamp p.timestamp ∧
    Holds IsText none content p.content ∧
    Holds IsOptionalText (some none) status p.status ∧
    Holds IsFlag (some false) moderation p.moderation

def IsToken (v : Value) (token : String) : Prop :=
  ∃ slot, Gives ["token"] v [slot] ∧ Holds IsText none slot token

def IsStagePost (v : Value) (stage : String) (post : Post) : Prop :=
  ∃ stageSlot postSlot, Gives ["stage", "post"] v [stageSlot, postSlot] ∧
    Holds IsText none stageSlot stage ∧ Holds IsPost none postSlot post

/-- The payload that a value holds beside the name of an action. -/
inductive Tagged (name : String) : Value → Value → Prop where
  | object {members : List (String × Value)}
      (h : members.filter (·.1 = "action") = [("action", .string name)]) :
      Tagged name (.object members) (.object members)
  | array {items : List Value} : Tagged name (.array (.string name :: items)) (.array items)

end Json.Value

namespace Message

/-- The name of the action by which an event is announced. -/
def announcedAs : Message → String
  | newWalletBalance _ => "NewWalletBalance"
  | walletRemoved _ => "WalletRemoved"
  | newStage _ => "NewStage"
  | stageEngaged _ => "StageEngaged"
  | newStagePost _ _ => "NewStagePost"
  | stageClosed _ => "StageClosed"
  | openStage _ => "OpenStage"

/-- A value is the payload of an event. -/
def HasPayload (v : Value) : Message → Prop
  | newWalletBalance wallet => v.IsWallet wallet
  | walletRemoved token => v.IsToken token
  | newStage stage => v.IsStage stage
  | stageEngaged engagement => v.IsEngagement engagement
  | newStagePost stage post => v.IsStagePost stage post
  | stageClosed token => v.IsToken token
  | openStage token => v.IsToken token

/-- A value is the event: it names the action of it, and has its payload. -/
def IsGivenBy (m : Message) (v : Value) : Prop :=
  ∃ payload, v.Tagged m.announcedAs payload ∧ m.HasPayload payload

end Message

end LiveFeed
