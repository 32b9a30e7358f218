import LiveFeed.LineFeed

namespace LiveFeed

/-- Where frames come from. -/
inductive Source where
  | lines (feed : LineFeed)
  /-- Frames that somebody else has sent, in order. -/
  | channel (frames : List Frame)
  deriving DecidableEq, Repr

namespace Source

/-- The next frame, or `none` when there are no more. -/
def next : Source → Option Frame × Source
  | lines feed =>
    let (frame, feed) := feed.next
    (frame, lines feed)
  | channel [] => (none, channel [])
  | channel (frame :: frames) => (some frame, channel frames)

/-- No less than the number of frames that are still to come. -/
def budget : Source → Nat
  | lines feed => feed.budget
  | channel frames => frames.length

theorem budget_next_lt {s t : Source} {frame : Frame} (h : s.next = (some frame, t)) :
    t.budget < s.budget := by
  cases s with
  | lines feed =>
    simp only [next, Prod.mk.injEq] at h
    obtain ⟨hf, rfl⟩ := h
    exact LineFeed.budget_next_lt (Prod.ext hf rfl)
  | channel frames =>
    cases frames with
    | nil => simp [next] at h
    | cons _ _ => cases h; simp [budget]

/-- Every frame that is still to come, and the source without them. -/
def drain (s : Source) : List Frame × Source :=
  match h : s.next with
  | (none, s) => ([], s)
  | (some frame, t) =>
    have := budget_next_lt h
    let (frames, s) := t.drain
    (frame :: frames, s)
termination_by s.budget

def frames (s : Source) : List Frame := s.drain.1

end Source

end LiveFeed
