import LiveFeed.Config
import LiveFeed.Decimal

namespace LiveFeed

/-- What variables stand for in the surroundings of a program. -/
abbrev Environment := String → Option String

/-- A setting that a variable can override. -/
inductive Setting where
  | maxFrameBytes
  | resetOnDisconnect
  | walletOrder
  | openStage
  | logLevel
  | logFormat
  deriving DecidableEq, Repr

namespace Setting

def all : List Setting :=
  [maxFrameBytes, resetOnDisconnect, walletOrder, openStage, logLevel, logFormat]

def variableName : Setting → String
  | maxFrameBytes => "DRUM_MAX_FRAME_BYTES"
  | resetOnDisconnect => "DRUM_RESET_ON_DISCONNECT"
  | walletOrder => "DRUM_WALLET_ORDER"
  | openStage => "DRUM_OPEN_STAGE"
  | logLevel => "DRUM_LOG_LEVEL"
  | logFormat => "DRUM_LOG_FORMAT"

def flag? (text : String) : Option Bool :=
  if text = "true" then some true else if text = "false" then some false else none

/-- What a text makes of a configuration; `none` if it is not valid for the setting. -/
def change? (s : Setting) (text : String) : Option (Config → Config) :=
  match s with
  | maxFrameBytes =>
    (Decimal.readUInt64? text.toList).map fun n c => { c with feed.maxFrameBytes := n }
  | resetOnDisconnect => (flag? text).map fun b c => { c with feed.resetOnDisconnect := b }
  | walletOrder => (SortOrder.parse? text).map fun o c => { c with views.walletOrder := o }
  | openStage =>
    let stage := if text.isEmpty then none else some text
    some fun c => { c with views.openStage := stage }
  | logLevel => some fun c => { c with logging.level := text }
  | logFormat => some fun c => { c with logging.format := text }

/-- Gives a setting the value of its variable, if there is one and it is valid. -/
def override (environment : Environment) (c : Config) (s : Setting) : Config :=
  match (environment s.variableName).bind s.change? with
  | some change => change c
  | none => c

end Setting

/-- A configuration with the values of all variables in place. -/
def Config.override (environment : Environment) (c : Config) : Config :=
  Setting.all.foldl (Setting.override environment) c

end LiveFeed
