import LiveFeed.Record.Engagement
import LiveFeed.Record.Post
import LiveFeed.Record.Stage
import LiveFeed.Record.Wallet

namespace LiveFeed

/-- An event of the feed. -/
inductive Message where
  /-- A wallet appeared, or its balance changed. -/
  | newWalletBalance (wallet : Wallet)
  | walletRemoved (token : String)
  | newStage (stage : Stage)
  /-- The user began to take part in a stage. -/
  | stageEngaged (engagement : Engagement)
  /-- A post was published on the stage with that token. -/
  | newStagePost (stage : String) (post : Post)
  | stageClosed (token : String)
  /-- The user turned the main view to a stage. -/
  | openStage (token : String)
  deriving DecidableEq, Repr

/-- The kind of an event. -/
inductive Action where
  | newWalletBalance
  | walletRemoved
  | newStage
  | stageEngaged
  | newStagePost
  | stageClosed
  | openStage
  deriving DecidableEq, Repr

namespace Action

def all : List Action :=
  [newWalletBalance, walletRemoved, newStage, stageEngaged, newStagePost, stageClosed, openStage]

def name : Action → String
  | newWalletBalance => "NewWalletBalance"
  | walletRemoved => "WalletRemoved"
  | newStage => "NewStage"
  | stageEngaged => "StageEngaged"
  | newStagePost => "NewStagePost"
  | stageClosed => "StageClosed"
  | openStage => "OpenStage"

theorem map_name_all : all.map name = actionNames := rfl

def ofName? (name : String) : Option Action := all.find? (·.name = name)

/-- The action that a value names. -/
def ofValue : Json.Value → Except Mismatch Action
  | .string s =>
    match ofName? s with
    | some a => .ok a
    | none => .error (.unknownAction s)
  | v => .error (.wrongType v.found "variant identifier")

/-- What the payload of an event is called that has its fields beside the action. -/
def payloadTitle (a : Action) : String := "struct variant FeedMessage::" ++ a.name

end Action

namespace Message

def action : Message → Action
  | newWalletBalance _ => .newWalletBalance
  | walletRemoved _ => .walletRemoved
  | newStage _ => .newStage
  | stageEngaged _ => .stageEngaged
  | newStagePost _ _ => .newStagePost
  | stageClosed _ => .stageClosed
  | openStage _ => .openStage

@[reducible] def tokenFields : List Field :=
  [{ name := "token", Content := String, form := Form.text }]

/-- A payload of a token only. -/
def tokenSchema (a : Action) : Schema String where
  title := a.payloadTitle
  fields := tokenFields
  ofRow := fun (token, ()) => token
  toRow token := (token, ())

@[reducible] def postFields : List Field :=
  [{ name := "stage", Content := String, form := Form.text },
    { name := "post", Content := Post, form := Post.schema.form }]

/-- The payload of a post: its stage and the post itself. -/
def postSchema : Schema (String × Post) where
  title := Action.newStagePost.payloadTitle
  fields := postFields
  ofRow := fun (stage, post, ()) => (stage, post)
  toRow := fun (stage, post) => (stage, post, ())

/-- The event of a kind that has a payload in the form of an array or an object. -/
def ofPayload (a : Action) (payload : Json.Value) : Except Mismatch Message :=
  match a with
  | .newWalletBalance => newWalletBalance <$> Wallet.schema.ofValue payload
  | .walletRemoved => walletRemoved <$> (tokenSchema a).ofValue payload
  | .newStage => newStage <$> Stage.schema.ofValue payload
  | .stageEngaged => stageEngaged <$> Engagement.schema.ofValue payload
  | .newStagePost => (fun (stage, post) => newStagePost stage post) <$> postSchema.ofValue payload
  | .stageClosed => stageClosed <$> (tokenSchema a).ofValue payload
  | .openStage => openStage <$> (tokenSchema a).ofValue payload

/-- The members of the payload of an event. -/
def payloadMembers : Message → List (List Char)
  | newWalletBalance wallet => Wallet.schema.members wallet
  | walletRemoved token => (tokenSchema .walletRemoved).members token
  | newStage stage => Stage.schema.members stage
  | stageEngaged engagement => Engagement.schema.members engagement
  | newStagePost stage post => postSchema.members (stage, post)
  | stageClosed token => (tokenSchema .stageClosed).members token
  | openStage token => (tokenSchema .openStage).members token

/-- An event is an object that has its action as the first member. -/
def write (m : Message) : List Char :=
  Json.writeObject (Json.writeMember "action" (Json.writeString m.action.name) :: m.payloadMembers)

def wire (m : Message) : String := String.ofList m.write

/-- The action and the other members that are read so far, these in reverse. -/
structure Partial where
  action? : Option Action := none
  members : List (String × Json.Value) := []

/-- Reads the value that names an action; it is judged at once. -/
def readAction (cs : Json.Text) : Except DecodeError (Action × Json.Text) :=
  Form.readScalar Action.ofValue cs

/-- Reads one member of an event; a second action is turned down at its key. -/
def readMember (bound depth : Nat) (known : Partial) (name : String) : Json.Reader Partial :=
  fun cs =>
    if name = "action" then
      match known.action? with
      | some _ => .error (.mismatch (.duplicateField name))
      | none => do
        let (a, cs) ← readAction (← Json.colon cs)
        return ({ known with action? := some a }, cs)
    else do
      let (members, cs) ← Json.collect (Json.value bound depth) known.members name cs
      return ({ known with members }, cs)

/--
The action of an event and its payload. All of the text is read before the payload is looked at,
but the action is judged when it is met.
-/
def readTagged (bound : Nat) : Json.Reader (Action × Json.Value) := fun cs => do
  match ← Json.glimpse cs with
  | (.scalar v, _) =>
    throw (.mismatch (.wrongType v.found "internally tagged enum FeedMessage"))
  | (.sequence, cs) =>
    match ← Json.nextElement true cs with
    | none => throw (.mismatch (.missingField "action"))
    | some cs =>
      let (a, cs) ← readAction cs
      let (items, cs) ← Json.elements (Json.value bound (Schema.maxDepth - 1)) bound false [] cs
      return ((a, .array items), cs)
  | (.map, cs) =>
    let (known, cs) ← Json.members (readMember bound (Schema.maxDepth - 1)) bound true {} cs
    match known.action? with
    | none => throw (.mismatch (.missingField "action"))
    | some a => return ((a, .object known.members.reverse), cs)

/-- The event that a text stands for, nothing but space around it. -/
def decode (text : String) : Except DecodeError Message := do
  let ((a, payload), rest) ← readTagged text.length text.toList
  let m ← Form.checked (ofPayload a payload)
  Json.finish rest
  return m

end Message

end LiveFeed
