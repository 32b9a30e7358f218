namespace LiveFeed

/-- What a connection to the feed delivers. -/
inductive Frame where
  /-- The connection stands. -/
  | opened
  /-- A text that should hold one event. -/
  | text (text : String)
  /-- The connection came to its end. -/
  | closed (reason : String)
  /-- The connection broke. -/
  | failed (error : String)
  deriving DecidableEq, Repr

/-- Whether the connection is gone after the frame. -/
def Frame.isDisconnect : Frame → Bool
  | closed _ | failed _ => true
  | opened | text _ => false

def Frame.isText : Frame → Bool
  | text _ => true
  | opened | closed _ | failed _ => false

end LiveFeed
