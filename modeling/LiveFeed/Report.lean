import LiveFeed.Json.Writer
import LiveFeed.Session

namespace LiveFeed

/-- What tells a session from all others. -/
structure Stamp where
  session : String
  startedAt : String
  endedAt : String
  deriving DecidableEq, Repr

/-- What a replay comes to: the tokens in every region, and the figures of the session. -/
structure Report where
  regions : List (Region × List String)
  summary : Summary
  deriving DecidableEq, Repr

namespace Report

/-- Members in the order of their names, spread over lines. -/
def spreadObject (depth : Nat) (members : List (String × List Char)) : List Char :=
  Json.writeSpread depth '\x7b' '\x7d'
    ((members.mergeSort (fun a b => a.1 ≤ b.1)).map fun (name, value) =>
      Json.writeSpreadMember name value)

/-- The report as JSON over many lines. -/
def write (r : Report) (stamp : Stamp) : String :=
  let regions := r.regions.map fun (region, tokens) =>
    (region.mountId, Json.writeSpread 2 '[' ']' (tokens.map Json.writeString))
  let figure (n : Nat) : List Char := (toString n).toList
  let session := [
    ("session_id", Json.writeString stamp.session),
    ("started_at", Json.writeString stamp.startedAt),
    ("ended_at", Json.writeString stamp.endedAt),
    ("frames", figure r.summary.frames),
    ("applied", figure r.summary.applied),
    ("dropped", figure r.summary.dropped),
    ("disconnects", figure r.summary.disconnects)]
  String.ofList <| spreadObject 0
    [("regions", spreadObject 1 regions), ("session", spreadObject 1 session)]

end Report

namespace Dispatcher

variable {config : Config}

/-- Every region on a line of its own. -/
def page (d : Dispatcher config) : String :=
  String.join (Region.all.map fun region => d.regionHtml region ++ "\n")

def report (d : Dispatcher config) (summary : Summary) : Report where
  regions := Region.all.map fun region => (region, d.regionTokens region)
  summary := summary

end Dispatcher

end LiveFeed
