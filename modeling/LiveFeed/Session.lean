import LiveFeed.Dispatcher
import LiveFeed.Source

namespace LiveFeed

/-- The figures of a session that came to its end. -/
structure Summary where
  /-- Frames that the source gave. -/
  frames : Nat
  applied : Nat
  dropped : Nat
  /-- Frames after which the connection was gone. -/
  disconnects : Nat
  deriving DecidableEq, Repr

/-- What a session has seen of its source so far. -/
structure Progress where
  frames : Nat := 0
  disconnects : Nat := 0
  deriving DecidableEq, Repr

namespace Progress

def see (seen : Progress) (frame : Frame) : Progress where
  frames := seen.frames + 1
  disconnects := if frame.isDisconnect then seen.disconnects + 1 else seen.disconnects

/-- The figures of a session that began and ended with some counters of the dispatcher. -/
def summary (seen : Progress) (before after : Statistics) : Summary where
  frames := seen.frames
  applied := after.applied - before.applied
  dropped := after.dropped - before.dropped
  disconnects := seen.disconnects

end Progress

namespace Dispatcher

variable {config : Config}

/--
Handles the frames of a source one by one; each is dealt with before the next is asked for. An
event that overflows ends it, and there is nothing to tell.
-/
def drive (d : Dispatcher config) (source : Source) (seen : Progress) :
    Option Progress × Dispatcher config :=
  match h : source.next with
  | (none, _) => (some seen, d)
  | (some frame, rest) =>
    have := Source.budget_next_lt h
    match d.handleFrame frame with
    | (some .overflowed, d) => (none, d)
    | (_, d) => d.drive rest (seen.see frame)
termination_by source.budget

/-- Runs a source to its end; there are no figures if an event overflowed. -/
def runSession (d : Dispatcher config) (source : Source) : Option Summary × Dispatcher config :=
  let (seen?, after) := d.drive source {}
  (seen?.map (·.summary d.statistics after.statistics), after)

end Dispatcher

end LiveFeed
