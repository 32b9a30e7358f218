import LiveFeed.CommandLine
import LiveFeed.Config.Loading
import LiveFeed.Config.Template
import LiveFeed.Report

namespace LiveFeed

/-- What a program finds around it when it starts. -/
structure Surroundings where
  environment : Environment
  files : Files
  /-- The standard input. -/
  input : ByteStream

/-- What the program does in the end. -/
inductive Conclusion where
  | print (text : String)
  | report (report : Report)
  /-- Writes a file; the note is printed if that works. -/
  | save (path text note : String)
  /-- Stops with a message and an exit code. -/
  | stop (message : String) (code : UInt32)

namespace Program

def name : String := "drum"

def version : String := "0.1.0"

def usage : String :=
  String.join ([
    "Drum feed client views",
    "",
    "Usage: drum [--config FILE] replay [FEED] [--format html|json] [--reset-on-close]",
    "       drum [--config FILE] config [--output FILE]"].map (· ++ "\n"))

def failureCode : UInt32 := 1

def misuseCode : UInt32 := 2

/-- The exit code of a program that had to break off. -/
def abortCode : UInt32 := 101

/-- Whether the standard input is read. -/
def readsInput : Except Interruption Invocation → Bool
  | .ok ⟨.replay feed _ _, _⟩ => feed = Command.standardInput
  | _ => false

/-- The paths of the files that may be read. -/
def paths (environment : Environment) : Except Interruption Invocation → List String
  | .ok ⟨.replay feed _ _, config⟩ =>
    let configs := match config with
      | some path => [path]
      | none => Config.standardPaths environment
    if feed = Command.standardInput then configs else configs ++ [feed]
  | _ => []

/-- The configuration of a replay; the end of a recording is a lost connection only if asked for. -/
def replayConfig (s : Surroundings) (config : Option String) (resetOnClose : Bool) :
    Except ConfigError Config := do
  let c ← match config with
    | some path => Config.loadWith s.environment s.files path
    | none => pure (Config.loadStandard s.environment s.files)
  return { c with feed.resetOnDisconnect := resetOnClose }

/-- The bytes of a feed; a directory can be opened, but not read. -/
def feedStream (s : Surroundings) (feed : String) : Except ReadError ByteStream :=
  if feed = Command.standardInput then .ok s.input
  else
    match s.files feed with
    | .ok bytes => .ok { chunks := [bytes] }
    | .error .directory => .ok { chunks := [], ending := .failure ReadError.directory.message }
    | .error e => .error e

/-- Runs a recorded feed through fresh views. -/
def replay (config : Config) (stream : ByteStream) : Option Summary × Dispatcher config :=
  (Dispatcher.new config).runSession
    (.lines { maxFrameBytes := config.feed.maxFrameBytes, stream })

def present (format : OutputFormat) (summary : Summary) (d : Dispatcher config) : Conclusion :=
  match format with
  | .html => .print d.page
  | .json => .report (d.report summary)

def runReplay (s : Surroundings) (feed : String) (format : OutputFormat) (config : Config) :
    Conclusion :=
  match feedStream s feed with
  | .error e => .stop ("opening feed " ++ Text.quote feed ++ ": " ++ e.message) failureCode
  | .ok stream =>
    match replay config stream with
    | (some summary, d) => present format summary d
    | (none, _) => .stop "a counter is full" abortCode

def runInvocation (s : Surroundings) (i : Invocation) : Conclusion :=
  match i.command with
  | .template none => .print Config.template
  | .template (some path) =>
    .save path Config.template ("Wrote config to " ++ Text.quote path ++ "\n")
  | .replay feed format resetOnClose =>
    match replayConfig s i.config resetOnClose with
    | .error e => .stop e.message failureCode
    | .ok config => runReplay s feed format config

/-- What a command line comes to. -/
def run (s : Surroundings) : Except Interruption Invocation → Conclusion
  | .ok i => runInvocation s i
  | .error .help => .print usage
  | .error .version => .print (name ++ " " ++ version ++ "\n")
  | .error (.misuse e) => .stop e.message misuseCode

end Program

end LiveFeed
