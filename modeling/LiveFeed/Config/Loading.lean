import LiveFeed.Config.Document
import LiveFeed.Config.Error
import LiveFeed.Config.Override

namespace LiveFeed.Config

/-- The configuration in a file. -/
def load (files : Files) (path : String) : Except ConfigError Config :=
  match files.readText path with
  | .error cause => .error (.unreadable path cause)
  | .ok text =>
    match parse? text with
    | some c => .ok c
    | none => .error (.malformed path)

/-- The configuration in a file, with the values of variables in place. -/
def loadWith (environment : Environment) (files : Files) (path : String) :
    Except ConfigError Config :=
  Config.override environment <$> load files path

/-- The defaults, with the values of variables in place. -/
def ofEnvironment (environment : Environment) : Config := Config.override environment {}

/-- The user's directory of configurations, from the variables that may name it. -/
def userDirectory? (environment : Environment) : Option String :=
  match (environment "XDG_CONFIG_HOME").filter FileTree.isAbsolute with
  | some path => some path
  | none => ((environment "HOME").filter (!·.isEmpty)).map (· ++ "/.config")

/-- Where a configuration is looked for: in the user's directory, and in the current one. -/
def standardPaths (environment : Environment) : List String :=
  ((userDirectory? environment).map (· ++ "/drum/config.toml")).toList ++ ["./drum.toml"]

/-- The first configuration that loads, or the defaults, with the values of variables in place. -/
def loadFirst (environment : Environment) (files : Files) (paths : List String) : Config :=
  ((paths.findSome? fun path => (load files path).toOption).getD {}).override environment

/-- The configuration of a program that is given none. -/
def loadStandard (environment : Environment) (files : Files) : Config :=
  loadFirst environment files (standardPaths environment)

end LiveFeed.Config
