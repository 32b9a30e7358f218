import Std.Time
import LiveFeed.Program

namespace LiveFeed

/-- The variables that are looked at. -/
def variableNames : List String :=
  "XDG_CONFIG_HOME" :: "HOME" :: Setting.all.map Setting.variableName

def readEnvironment : IO Environment := do
  let values ← variableNames.mapM fun name => do return (name, ← IO.getEnv name)
  return fun name => (values.lookup name).join

def readFile (path : String) : IO (Except ReadError (List UInt8)) := do
  try
    return .ok (← IO.FS.readBinFile path).toList
  catch
    | .inappropriateType _ _ _ => return .error .directory
    | _ => return .error .missing

def readFiles (paths : List String) : IO Files := do
  let contents ← paths.mapM fun path => do return (path, ← readFile path)
  return fun path => (contents.lookup path).getD (.error .missing)

def hexadecimal (bytes : List UInt8) : List Char :=
  bytes.flatMap fun b => [Nat.digitChar (b.toNat / 16), Nat.digitChar (b.toNat % 16)]

/-- A random number in the form of a universal identifier. -/
def sessionName (random : List UInt8) : String :=
  let bytes := random.mapIdx fun i b =>
    if i = 6 then 0x40 ||| (b &&& 0x0F) else if i = 8 then 0x80 ||| (b &&& 0x3F) else b
  let ds := hexadecimal bytes
  String.intercalate "-" ([(0, 8), (8, 4), (12, 4), (16, 4), (20, 12)].map fun (start, count) =>
    String.ofList ((ds.drop start).take count))

/-- The time in the universal zone. -/
def now : IO String := do
  let time := Std.Time.DateTime.ofTimestamp (← Std.Time.Timestamp.now) .UTC
  return time.format "uuuu-MM-dd'T'HH:mm:ss.SSSSSSSSS'Z'"

def conclude (startedAt : String) : Conclusion → IO UInt32
  | .print text => do
    IO.print text
    return 0
  | .report report => do
    let session := sessionName (← IO.getRandomBytes 16).toList
    IO.println (report.write { session, startedAt, endedAt := ← now })
    return 0
  | .save path text note => do
    try
      IO.FS.writeFile path text
      IO.print note
      return 0
    catch e =>
      IO.eprintln ("writing config: " ++ toString e)
      return Program.failureCode
  | .stop message code => do
    IO.eprintln message
    return code

def runProgram (words : List String) : IO UInt32 := do
  let startedAt ← now
  let environment ← readEnvironment
  let invocation := Invocation.parse words
  let files ← readFiles (Program.paths environment invocation)
  let input ← if Program.readsInput invocation then (← IO.getStdin).readBinToEnd else pure .empty
  conclude startedAt
    (Program.run { environment, files, input := { chunks := [input.toList] } } invocation)

end LiveFeed

def main (args : List String) : IO UInt32 := LiveFeed.runProgram args
