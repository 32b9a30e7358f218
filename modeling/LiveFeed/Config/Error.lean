import LiveFeed.FileTree
import LiveFeed.SortOrder
import LiveFeed.Text.Quoted

namespace LiveFeed

/-- Why a configuration is not to be had. -/
inductive ConfigError where
  | unreadable (path : String) (cause : ReadError)
  /-- The file is no document, or not one of a configuration. -/
  | malformed (path : String)
  | unknownOrder (word : String)
  deriving DecidableEq, Repr

def ConfigError.message : ConfigError → String
  | unreadable path cause =>
    "Failed to read config file " ++ Text.quote path ++ ": " ++ cause.message
  | malformed path => "Failed to parse config file " ++ Text.quote path
  | unknownOrder word => "Invalid config value: unknown sort order: " ++ word

/-- The order that a word stands for, or an error that shows the word in small letters. -/
def SortOrder.read (word : String) : Except ConfigError SortOrder :=
  match parse? word with
  | some order => .ok order
  | none => .error (.unknownOrder word.toLower)

end LiveFeed
