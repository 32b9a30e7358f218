namespace LiveFeed.Json

/-- A value read from JSON text, as far as the feed looks into it. -/
inductive Value where
  | null
  | boolean (b : Bool)
  /-- A number without point or exponent that fits 64 bits, signed or unsigned. -/
  | integer (n : Int)
  /-- Any other number; nothing depends on which. -/
  | fraction
  | string (s : String)
  | array (items : List Value)
  | object (members : List (String × Value))
  deriving Repr

/-- What a value shows of itself to a reader that wanted another kind. -/
inductive Found where
  | null
  | boolean (b : Bool)
  | integer (n : Int)
  | fraction
  | string (s : String)
  | sequence
  | map
  deriving DecidableEq, Repr

def Value.found : Value → Found
  | null => .null
  | boolean b => .boolean b
  | integer n => .integer n
  | fraction => .fraction
  | string s => .string s
  | array _ => .sequence
  | object _ => .map

end LiveFeed.Json
