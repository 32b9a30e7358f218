import LiveFeed.Session
import LiveFeed.Proofs.Framing
import LiveFeed.Proofs.History

namespace LiveFeed

namespace Source

theorem eq_self_of_ended {s t : Source} (h : s.next = (none, t)) : t = s := by
  cases s with
  | lines feed =>
    simp only [next, LineFeed.next] at h
    split at h
    next => exact (Prod.mk.inj h).2.symm
    next =>
      split at h
      next => cases h
      next => split at h <;> cases h
  | channel frames =>
    cases frames with
    | nil => exact (Prod.mk.inj h).2.symm
    | cons frame frames => cases h

/-- Every source comes to its end. -/
theorem exists_gives (s : Source) : ∃ frames, s.Gives frames := by
  induction hn : s.budget using Nat.strongRecOn generalizing s with
  | ind n ih =>
    match h : s.next with
    | (none, t) => exact ⟨[], .ended (eq_self_of_ended h ▸ h)⟩
    | (some frame, t) =>
      obtain ⟨frames, hrest⟩ := ih t.budget (hn ▸ budget_next_lt h) t rfl
      exact ⟨frame :: frames, .more h hrest⟩

theorem gives_frames (s : Source) : s.Gives s.frames := by
  obtain ⟨frames, h⟩ := s.exists_gives
  rwa [h.frames_eq]

theorem frames_channel (frames : List Frame) : (channel frames).frames = frames := by
  have hgives : (channel frames).Gives frames := by
    induction frames with
    | nil => exact .ended rfl
    | cons frame frames ih => exact .more rfl ih
  exact hgives.frames_eq

/-- The steps that a dispatcher takes with the frames of a source. -/
def steps (s : Source) : List Step := s.frames.map .frame

end Source

namespace Dispatcher

variable {config : Config} {d : Dispatcher config} {source rest : Source} {frame : Frame}

theorem outcomes_eq_results (d : Dispatcher config) (frames : List Frame) :
    d.outcomes frames = d.results (frames.map .frame) := by
  induction frames generalizing d with
  | nil => rfl
  | cons frame frames ih =>
    rw [outcomes, ih]
    rfl

theorem drive_of_ended (h : source.next = (none, source)) (seen : Progress) :
    d.drive source seen = (some seen, d) := by
  rw [drive]
  split
  next => rfl
  next he =>
    rw [h] at he
    cases he

theorem drive_of_more (h : source.next = (some frame, rest))
    (hroom : (d.handleFrame frame).1 ≠ some .overflowed) (seen : Progress) :
    d.drive source seen = (d.handleFrame frame).2.drive rest (seen.see frame) := by
  rw [drive]
  split
  next he =>
    rw [h] at he
    cases he
  next he =>
    rw [h] at he
    obtain ⟨rfl, rfl⟩ := he
    split
    next ho => exact absurd (congrArg Prod.fst ho) hroom
    next ho => rw [ho]

/-- A session that nothing overflows in counts the frames that it has the dispatcher handle. -/
theorem drive_of_gives {frames : List Frame} (h : source.Gives frames)
    (hroom : some .overflowed ∉ d.outcomes frames) (seen : Progress) :
    d.drive source seen =
      (some
        { frames := seen.frames + frames.length
          disconnects := seen.disconnects + frames.countP Frame.isDisconnect },
        d.run (frames.map .frame)) := by
  induction h generalizing d seen with
  | ended h =>
    rw [drive_of_ended h]
    rfl
  | @more source rest frame frames h _ ih =>
    rw [outcomes, List.mem_cons, not_or] at hroom
    obtain ⟨hfirst, hrest⟩ := hroom
    rw [drive_of_more h (Ne.symm hfirst), ih hrest, List.countP_cons, List.length_cons]
    have hframes : (seen.see frame).frames + frames.length = seen.frames + (frames.length + 1) :=
      Nat.add_right_comm _ _ _
    have hdisconnects : (seen.see frame).disconnects + frames.countP Frame.isDisconnect =
        seen.disconnects +
          (frames.countP Frame.isDisconnect + if frame.isDisconnect then 1 else 0) := by
      simp only [Progress.see]
      split <;> omega
    rw [hframes, hdisconnects]
    rfl

/-- A session is a run of the frames of its source, with figures at the end. -/
theorem runSession_eq (hroom : some .overflowed ∉ d.results source.steps) :
    d.runSession source =
      (some
        { frames := source.frames.length
          applied := (d.run source.steps).statistics.applied - d.statistics.applied
          dropped := (d.run source.steps).statistics.dropped - d.statistics.dropped
          disconnects := source.frames.countP Frame.isDisconnect },
        d.run source.steps) := by
  rw [Source.steps, ← outcomes_eq_results] at hroom
  rw [runSession, drive_of_gives source.gives_frames hroom]
  simp [Progress.summary, Source.steps]

end Dispatcher

end LiveFeed
