import LiveFeed.Config
import LiveFeed.Frame
import LiveFeed.Message
import LiveFeed.Region

namespace LiveFeed

inductive DispatchError where
  | decode (error : DecodeError)
  | view (region : Region) (error : ViewError)
  | unknownToken (token : String)
  deriving DecidableEq, Repr

def DispatchError.message : DispatchError → String
  | decode e => "Decode error: " ++ e.message
  | view region e => region.mountId ++ ": " ++ e.message
  | unknownToken token => "Unknown token: " ++ token

inductive Outcome where
  | applied
  | rejected (error : DispatchError)
  /-- A counter had to go past its largest value; the event is left where that happened. -/
  | overflowed
  deriving DecidableEq, Repr

namespace Outcome

/-- The first of two outcomes that is not a success. -/
def both : Outcome → Outcome → Outcome
  | applied, o => o
  | o, _ => o

def ofView (region : Region) : Except ViewError α → Outcome
  | .ok _ => applied
  | .error e => rejected (.view region e)

end Outcome

structure Statistics where
  applied : Nat := 0
  dropped : Nat := 0
  /-- How often the views were emptied because the connection was gone. -/
  resets : Nat := 0
  deriving DecidableEq, Repr

/-- The views of one client: a list for each region of the page. -/
structure Dispatcher (config : Config) where
  wallets : OrderedList (Wallet.layout config.views.walletOrder)
  stages : OrderedList Stage.layout
  moderations : OrderedList Stage.layout
  engagements : OrderedList Engagement.layout
  posts : OrderedList Post.layout
  /-- The stage whose posts fill the main view. -/
  openStage : Option String
  statistics : Statistics

namespace OrderedList

variable {R : Type} {layout : Layout R}

def ofRegion (layout : Layout R) (region : Region) : OrderedList layout :=
  new layout (Mount.new region.mountId)

/--
Counts one more on the record with that token, if there is one. `grow` gives the record with its
counter increased, or `none` if the counter is full, and then nothing is done.
-/
def bump (l : OrderedList layout) (region : Region) (token : String) (grow : R → Option R) :
    Outcome × OrderedList layout :=
  match l.get? token with
  | none => (.applied, l)
  | some r =>
    match grow r with
    | none => (.overflowed, l)
    | some r =>
      let (answer, l) := l.update r
      (.ofView region answer.result, l)

/-- Takes the record with that token out, if there is one, and tells whether there was. -/
def removeIfPresent (l : OrderedList layout) (token : String) :
    Except ViewError Bool × OrderedList layout :=
  if (l.get? token).isSome then
    let (answer, l) := l.remove token
    ((fun _ => true) <$> answer.result, l)
  else (.ok false, l)

end OrderedList

def increment? (n : UInt64) : Option UInt64 :=
  if n.toNat + 1 < UInt64.size then some (n + 1) else none

def Stage.grow (s : Stage) : Option Stage :=
  (increment? s.count).map fun count => { s with count }

/-- A stage that is announced again keeps the count that is known of it if that is higher. -/
def Stage.keepCount (s : Stage) : Option Stage → Stage
  | some known => { s with count := max s.count known.count }
  | none => s

@[simp] theorem Stage.caption_keepCount (s : Stage) (known? : Option Stage) :
    (s.keepCount known?).caption = s.caption := by
  cases known? <;> rfl

def Engagement.keepCount (e : Engagement) : Option Engagement → Engagement
  | some known => { e with count := max e.count known.count }
  | none => e

def Engagement.grow (e : Engagement) : Option Engagement :=
  (increment? e.count).map fun count => { e with count }

namespace Dispatcher

variable {config : Config}

def new (config : Config) : Dispatcher config where
  wallets := .ofRegion _ .wallets
  stages := .ofRegion _ .stages
  moderations := .ofRegion _ .moderations
  engagements := .ofRegion _ .engagements
  posts := .ofRegion _ .posts
  openStage := config.views.openStage
  statistics := {}

def reset (d : Dispatcher config) : Dispatcher config :=
  { d with
    wallets := d.wallets.reset
    stages := d.stages.reset
    moderations := d.moderations.reset
    engagements := d.engagements.reset
    posts := d.posts.reset }

def announceWallet (d : Dispatcher config) (w : Wallet) : Outcome × Dispatcher config :=
  let (answer, wallets) := d.wallets.upsert w
  (.ofView .wallets answer.result, { d with wallets })

def removeWallet (d : Dispatcher config) (token : String) : Outcome × Dispatcher config :=
  let (answer, wallets) := d.wallets.remove token
  (.ofView .wallets answer.result, { d with wallets })

/-- Puts a moderated stage into the queue; its count there never falls. -/
def queueStage (d : Dispatcher config) (s : Stage) : Outcome × Dispatcher config :=
  if s.moderation then
    let (answer, moderations) :=
      d.moderations.upsert (s.keepCount (d.moderations.get? s.token))
    (.ofView .moderations answer.result, { d with moderations })
  else (.applied, d)

def announceStage (d : Dispatcher config) (s : Stage) : Outcome × Dispatcher config :=
  let (queued, d) := d.queueStage s
  let (answer, stages) := d.stages.upsert s
  (queued.both (.ofView .stages answer.result), { d with stages })

/-- Lists an engagement; its count never falls. -/
def engage (d : Dispatcher config) (e : Engagement) : Outcome × Dispatcher config :=
  let (answer, engagements) := d.engagements.upsert (e.keepCount (d.engagements.get? e.token))
  (.ofView .engagements answer.result, { d with engagements })

def showPost (d : Dispatcher config) (stage : String) (post : Post) : Outcome × Dispatcher config :=
  if d.openStage = some stage then
    let (answer, posts) := d.posts.upsert post
    (.ofView .posts answer.result, { d with posts })
  else (.applied, d)

/-- Counts a post in the queue, shows it, and counts it among the engagements, in that order. -/
def publish (d : Dispatcher config) (stage : String) (post : Post) : Outcome × Dispatcher config :=
  let (moderated, moderations) := d.moderations.bump .moderations stage Stage.grow
  let d := { d with moderations }
  if moderated = .overflowed then (moderated, d)
  else
    let (posted, d) := d.showPost stage post
    let (engaged, engagements) := d.engagements.bump .engagements stage Engagement.grow
    let d := { d with engagements }
    if engaged = .overflowed then (engaged, d) else ((moderated.both posted).both engaged, d)

/-- Takes a stage out of every list, and its posts out of the main view. -/
def closeStage (d : Dispatcher config) (token : String) : Outcome × Dispatcher config :=
  let (listed, stages) := d.stages.removeIfPresent token
  let (queued, moderations) := d.moderations.removeIfPresent token
  let (engaged, engagements) := d.engagements.removeIfPresent token
  let removals := (Outcome.ofView .stages listed).both
    ((Outcome.ofView .moderations queued).both (.ofView .engagements engaged))
  let isOpen := d.openStage = some token
  let found := isOpen || [listed, queued, engaged].any (·.toOption.getD true)
  let d := { d with stages, moderations, engagements }
  let d := if isOpen then { d with posts := d.posts.reset, openStage := none } else d
  (removals.both (if found then .applied else .rejected (.unknownToken token)), d)

def openMainView (d : Dispatcher config) (token : String) : Outcome × Dispatcher config :=
  (.applied, { d with posts := d.posts.reset, openStage := some token })

def dispatch (d : Dispatcher config) : Message → Outcome × Dispatcher config
  | .newWalletBalance wallet => d.announceWallet wallet
  | .walletRemoved token => d.removeWallet token
  | .newStage stage => d.announceStage stage
  | .stageEngaged engagement => d.engage engagement
  | .newStagePost stage post => d.publish stage post
  | .stageClosed token => d.closeStage token
  | .openStage token => d.openMainView token

def handleText (d : Dispatcher config) (text : String) : Outcome × Dispatcher config :=
  match Message.decode text with
  | .ok m => d.dispatch m
  | .error e => (.rejected (.decode e), d)

/-- Empties the views when the connection is gone, if the configuration asks for it. -/
def disconnected (d : Dispatcher config) : Dispatcher config :=
  if config.feed.resetOnDisconnect then
    let d := d.reset
    { d with statistics.resets := d.statistics.resets + 1 }
  else d

/-- Counts what came of a text frame; one that overflowed is not counted. -/
def count (d : Dispatcher config) : Outcome → Dispatcher config
  | .applied => { d with statistics.applied := d.statistics.applied + 1 }
  | .rejected _ => { d with statistics.dropped := d.statistics.dropped + 1 }
  | .overflowed => d

def handleFrame (d : Dispatcher config) : Frame → Option Outcome × Dispatcher config
  | .opened => (none, d)
  | .text text =>
    let (outcome, d) := d.handleText text
    (some outcome, d.count outcome)
  | .closed _ | .failed _ => (none, d.disconnected)

def regionHtml (d : Dispatcher config) : Region → String
  | .wallets => d.wallets.toHtml
  | .stages => d.stages.toHtml
  | .moderations => d.moderations.toHtml
  | .engagements => d.engagements.toHtml
  | .posts => d.posts.toHtml

def regionTokens (d : Dispatcher config) : Region → List String
  | .wallets => d.wallets.tokens
  | .stages => d.stages.tokens
  | .moderations => d.moderations.tokens
  | .engagements => d.engagements.tokens
  | .posts => d.posts.tokens

def regionWires (d : Dispatcher config) : Region → List String
  | .wallets => d.wallets.records.map Wallet.schema.wire
  | .stages => d.stages.records.map Stage.schema.wire
  | .moderations => d.moderations.records.map Stage.schema.wire
  | .engagements => d.engagements.records.map Engagement.schema.wire
  | .posts => d.posts.records.map Post.schema.wire

def wireOf? (d : Dispatcher config) (region : Region) (token : String) : Option String :=
  match region with
  | .wallets => (d.wallets.get? token).map Wallet.schema.wire
  | .stages => (d.stages.get? token).map Stage.schema.wire
  | .moderations => (d.moderations.get? token).map Stage.schema.wire
  | .engagements => (d.engagements.get? token).map Engagement.schema.wire
  | .posts => (d.posts.get? token).map Post.schema.wire

def describeFields (fields : List (String × String)) : String :=
  let parts := fields.map fun (name, value) => name ++ ": " ++ value
  " \x7b " ++ String.intercalate ", " parts ++ " \x7d"

def describe (d : Dispatcher config) : String :=
  "Dispatcher" ++ describeFields [
    ("wallets", toString d.wallets.size),
    ("stages", toString d.stages.size),
    ("moderations", toString d.moderations.size),
    ("engagements", toString d.engagements.size),
    ("posts", toString d.posts.size),
    ("open_stage", match d.openStage with
      | some stage => "Some(" ++ Text.quote stage ++ ")"
      | none => "None"),
    ("stats", "DispatchStats" ++ describeFields [
      ("applied", toString d.statistics.applied),
      ("dropped", toString d.statistics.dropped),
      ("resets", toString d.statistics.resets)])]

end Dispatcher

end LiveFeed
