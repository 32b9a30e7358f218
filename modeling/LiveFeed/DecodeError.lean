import LiveFeed.Json.Value
import LiveFeed.Text.Quoted

namespace LiveFeed

/-- Why a JSON value is not of the wanted shape. -/
inductive Mismatch where
  | missingField (name : String)
  | duplicateField (name : String)
  | unknownAction (name : String)
  | wrongType (found : Json.Found) (wanted : String)
  | negative (n : Int)
  /-- A balance that is neither an unsigned number nor a text. -/
  | unmatchedBalance
  /-- A text that stands for no balance. -/
  | invalidBalance (raw : String)
  /-- An array ends where a field without a default is due. -/
  | tooShort (position : Nat) (wanted : String)
  /-- An array goes on behind the last field. -/
  | tooLong (length fields : Nat)
  deriving DecidableEq, Repr

/-- Why a text does not decode. -/
inductive DecodeError where
  /-- The text ends inside a value. -/
  | ended
  /-- The text is not JSON. -/
  | malformed
  | mismatch (m : Mismatch)
  deriving DecidableEq, Repr

def Json.Found.describe : Json.Found → String
  | .null => "null"
  | .boolean b => "boolean `" ++ toString b ++ "`"
  | .integer n => "integer `" ++ toString n ++ "`"
  | .fraction => "floating point"
  | .string s => "string " ++ Text.quote s
  | .sequence => "sequence"
  | .map => "map"

/-- A number of elements, in the singular where it is one. -/
def elementCount (n : Nat) : String := toString n ++ (if n = 1 then " element" else " elements")

/-- The actions of a feed in the order in which an error lists them. -/
def actionNames : List String :=
  ["NewWalletBalance", "WalletRemoved", "NewStage", "StageEngaged", "NewStagePost", "StageClosed",
    "OpenStage"]

def Mismatch.message : Mismatch → String
  | missingField name => "missing field `" ++ name ++ "`"
  | duplicateField name => "duplicate field `" ++ name ++ "`"
  | unknownAction name =>
    "unknown variant `" ++ name ++ "`, expected one of "
      ++ String.intercalate ", " (actionNames.map fun a => "`" ++ a ++ "`")
  | wrongType found wanted => "invalid type: " ++ found.describe ++ ", expected " ++ wanted
  | negative n => "invalid value: integer `" ++ toString n ++ "`, expected u64"
  | unmatchedBalance => "data did not match any variant of untagged enum RawBalance"
  | invalidBalance raw => "invalid balance: " ++ Text.quote raw
  | tooShort position wanted => "invalid length " ++ toString position ++ ", expected " ++ wanted
  | tooLong length fields =>
    "invalid length " ++ toString length ++ ", expected " ++ elementCount fields ++ " in sequence"

def DecodeError.message : DecodeError → String
  | ended => "the text ends inside a value"
  | malformed => "the text is not JSON"
  | mismatch m => m.message

end LiveFeed
