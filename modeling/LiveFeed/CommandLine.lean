namespace LiveFeed

/-- How the views are printed. -/
inductive OutputFormat where
  | html
  | json
  deriving DecidableEq, Repr

namespace OutputFormat

def all : List OutputFormat := [html, json]

def name : OutputFormat → String
  | html => "html"
  | json => "json"

def ofName? (name : String) : Option OutputFormat := all.find? (·.name = name)

end OutputFormat

/-- What the program can be told to do. -/
inductive Command where
  /-- Replays a recorded feed and prints the views. -/
  | replay (feed : String) (format : OutputFormat) (resetOnClose : Bool)
  /-- Writes a file of defaults, or prints it. -/
  | template (output : Option String)
  deriving DecidableEq, Repr

/-- The feed that is not a file but the standard input. -/
def Command.standardInput : String := "-"

structure Invocation where
  command : Command
  /-- The file with the configuration, if one is named. -/
  config : Option String
  deriving DecidableEq, Repr

/-- What a command line gives a value for. -/
inductive Parameter where
  | config
  | feed
  | format
  | resetOnClose
  | output
  deriving DecidableEq, Repr

namespace Parameter

/-- The name in full, behind two dashes. -/
def name : Parameter → String
  | config => "config"
  | feed => "path"
  | format => "format"
  | resetOnClose => "reset-on-close"
  | output => "output"

/-- The name of one letter, behind one dash. -/
def letter? : Parameter → Option Char
  | config => some 'c'
  | format => some 'f'
  | output => some 'o'
  | feed | resetOnClose => none

/-- Whether a value comes with it; if not, its name says all. -/
def hasValue : Parameter → Bool
  | resetOnClose => false
  | config | feed | format | output => true

def accepts (p : Parameter) (value : String) : Bool :=
  match p with
  | config | feed | output => !value.isEmpty
  | format => (OutputFormat.ofName? value).isSome
  | resetOnClose => true

end Parameter

/-- Whose words a command line has: those of the program, or of a command from its name on. -/
inductive Level where
  | program
  | replay
  | template
  deriving DecidableEq, Repr

namespace Level

/-- What may be given by name. -/
def parameters : Level → List Parameter
  | program => [.config]
  | replay => [.config, .format, .resetOnClose]
  | template => [.config, .output]

/-- What may be given without a name. -/
def positional? : Level → Option Parameter
  | replay => some .feed
  | program | template => none

/-- The level that begins with the name of a command. -/
def ofCommandName? (name : String) : Option Level :=
  if name = "replay" then some replay else if name = "config" then some template else none

end Level

/-- Why a command line is not understood. -/
inductive UsageError where
  | nothingGiven
  | missingCommand
  | unexpected (word : String)
  | missingValue (parameter : Parameter)
  | surplusValue (name : String)
  | invalidValue (parameter : Parameter) (value : String)
  | repeated (parameter : Parameter)
  deriving DecidableEq, Repr

def UsageError.message : UsageError → String
  | nothingGiven | missingCommand => "a command is required: replay or config"
  | unexpected word => "unexpected argument '" ++ word ++ "' found"
  | missingValue p => "a value is required for '" ++ p.name ++ "'"
  | surplusValue name => "'" ++ name ++ "' takes no value"
  | invalidValue p value => "invalid value '" ++ value ++ "' for '" ++ p.name ++ "'"
  | repeated p => "the argument '" ++ p.name ++ "' cannot be used multiple times"

/-- Why a command line is read no further. -/
inductive Interruption where
  | help
  | version
  | misuse (error : UsageError)
  deriving DecidableEq, Repr

/-- What the words of a level have given so far. -/
structure Arguments where
  settled : List (Parameter × String) := []
  /-- The last parameter, which is not judged before the next, and its value when it is there. -/
  waiting : Option (Parameter × Option String) := none
  /-- Whether two dashes have put an end to names. -/
  closed : Bool := false
  deriving DecidableEq, Repr

namespace Arguments

def value? (a : Arguments) (p : Parameter) : Option String := a.settled.lookup p

/-- Whether the next word is a value, unless it begins with a dash. -/
def awaitsValue (a : Arguments) : Bool :=
  match a.waiting with
  | some (_, none) => !a.closed
  | _ => false

def put (a : Arguments) (p : Parameter) (value : String) : Except Interruption Arguments :=
  if (a.value? p).isSome then .error (.misuse (.repeated p))
  else if p.accepts value then .ok { a with settled := (p, value) :: a.settled }
  else .error (.misuse (.invalidValue p value))

/-- Judges the parameter that waits. -/
def settle (a : Arguments) : Except Interruption Arguments :=
  match a.waiting with
  | none => .ok a
  | some (p, none) => .error (.misuse (.missingValue p))
  | some (p, some value) => { a with waiting := none }.put p value

/-- A parameter whose name and value are one word. -/
def attach (a : Arguments) (p : Parameter) (value : String) : Except Interruption Arguments := do
  (← a.settle).put p value

/-- A parameter whose value is the next word, if it has one. -/
def announce (a : Arguments) (p : Parameter) : Except Interruption Arguments := do
  if p.hasValue then return { ← a.settle with waiting := some (p, none) }
  else a.attach p ""

/-- Puts reading to an end for a cause that is named. -/
def interrupt (a : Arguments) (cause : Interruption) : Except Interruption Arguments := do
  let _ ← a.settle
  throw cause

/-- A value without a name. -/
def position (level : Level) (a : Arguments) (word : String) : Except Interruption Arguments := do
  match level.positional? with
  | none => throw (.misuse (.unexpected word))
  | some p =>
    let a ← a.settle
    if (a.value? p).isSome then throw (.misuse (.unexpected word))
    else return { a with waiting := some (p, some word) }

/-- A name in full; an equals sign divides it from a value. -/
def readName (level : Level) (a : Arguments) (cs : List Char) : Except Interruption Arguments :=
  let name := String.ofList (cs.takeWhile (· ≠ '='))
  let value? := match cs.dropWhile (· ≠ '=') with
    | [] => none
    | _ :: value => some (String.ofList value)
  match level.parameters.find? (·.name = name), value? with
  | some p, none => a.announce p
  | some p, some value =>
    if p.hasValue then a.attach p value else .error (.misuse (.surplusValue name))
  | none, none =>
    if name = "help" then a.interrupt .help
    else if name = "version" && level = .program then a.interrupt .version
    else .error (.misuse (.unexpected name))
  | none, some _ => .error (.misuse (.unexpected name))

/-- A name of one letter; what follows in the word is a value. -/
def readLetter (level : Level) (a : Arguments) (c : Char) (cs : List Char) :
    Except Interruption Arguments :=
  match level.parameters.find? (·.letter? = some c), cs with
  | some p, [] => a.announce p
  | some p, '=' :: value => a.attach p (String.ofList value)
  | some p, value => a.attach p (String.ofList value)
  | none, _ =>
    if c = 'h' then a.interrupt .help
    else if c = 'V' && level = .program then a.interrupt .version
    else .error (.misuse (.unexpected (String.singleton c)))

def read (level : Level) (a : Arguments) (word : String) : Except Interruption Arguments :=
  if a.closed then a.position level word
  else
    match word.toList, a.waiting with
    | ['-', '-'], _ => .ok { a with closed := true }
    | '-' :: '-' :: cs, _ => a.readName level cs
    | '-' :: c :: cs, _ => a.readLetter level c cs
    | _, some (p, none) => .ok { a with waiting := some (p, some word) }
    | _, _ => a.position level word

/-- The command that a level stands for. -/
def command (level : Level) (a : Arguments) : Except Interruption Command :=
  match level with
  | .program => .error (.misuse .missingCommand)
  | .replay => .ok <| .replay
    ((a.value? .feed).getD Command.standardInput)
    (((a.value? .format).bind OutputFormat.ofName?).getD .html)
    (a.value? .resetOnClose).isSome
  | .template => .ok (.template (a.value? .output))

end Arguments

namespace Invocation

/-- Reads the words behind the name of a command; what is given there wins over what came before. -/
def ofCommand (outer : Arguments) (level : Level) (words : List String) :
    Except Interruption Invocation := do
  let inner ← words.foldlM (Arguments.read level) {}
  let inner ← inner.settle
  let outer ← outer.settle
  return {
    command := ← inner.command level
    config := (inner.value? .config).or (outer.value? .config) }

/-- What a request for help on a command comes to. -/
def helpOn : List String → Interruption
  | [] => .help
  | [name] =>
    if name = "help" || (Level.ofCommandName? name).isSome then .help
    else .misuse (.unexpected name)
  | _ :: word :: _ => .misuse (.unexpected word)

/-- Reads words up to the name of a command, and then what the command is told. -/
def ofWords (outer : Arguments) : List String → Except Interruption Invocation
  | [] => do
    let _ ← outer.settle
    throw (.misuse .missingCommand)
  | word :: words => do
    let isValue := outer.awaitsValue || outer.closed
    match Level.ofCommandName? word, isValue with
    | some level, false => ofCommand outer level words
    | _, _ =>
      if word = "help" && !isValue then throw (helpOn words)
      else ofWords (← outer.read .program word) words

/-- What a command line asks for, which cannot be nothing. -/
def parse : List String → Except Interruption Invocation
  | [] => .error (.misuse .nothingGiven)
  | words => ofWords {} words

end Invocation

end LiveFeed
