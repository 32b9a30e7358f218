import LiveFeed.Proofs.Recording
import LiveFeed.Proofs.RoundTrip
import LiveFeed.Proofs.Statistics

namespace LiveFeed

/-- The frame that delivers the text of an event. -/
def Message.frame (m : Message) : Frame := .text m.wire

namespace Dispatcher

variable {config : Config} {d : Dispatcher config}

/-- What comes of events that are handed over one after the other. -/
def verdicts (d : Dispatcher config) : List Message → List Outcome
  | [] => []
  | m :: messages => (d.dispatch m).1 :: (d.dispatch m).2.verdicts messages

theorem verdicts_withStatistics (s : Statistics) (messages : List Message) :
    (d.withStatistics s).verdicts messages = d.verdicts messages := by
  induction messages generalizing d with
  | nil => rfl
  | cons m messages ih =>
    rw [verdicts, d.dispatch_withStatistics s m]
    exact congrArg _ ih

theorem run_messages_withStatistics (s : Statistics) (messages : List Message) :
    (d.withStatistics s).run (messages.map .message) =
      (d.run (messages.map .message)).withStatistics s := by
  induction messages generalizing d with
  | nil => rfl
  | cons m messages ih =>
    have hstep : (d.withStatistics s).step (.message m) = (d.dispatch m).2.withStatistics s :=
      congrArg Prod.snd (d.dispatch_withStatistics s m)
    rw [List.map_cons, run, List.foldl_cons, hstep]
    exact ih

theorem handleText_wire (d : Dispatcher config) (m : Message) :
    d.handleText m.wire = d.dispatch m := by
  rw [handleText, m.decode_message]

/-- The texts of events come to what the events come to. -/
theorem run_wires (d : Dispatcher config) (messages : List Message) :
    d.run (messages.map fun m => .text m.wire) = d.run (messages.map .message) ∧
      d.results (messages.map fun m => .text m.wire) = (d.verdicts messages).map some := by
  induction messages generalizing d with
  | nil => exact ⟨rfl, rfl⟩
  | cons m messages ih =>
    have hstep : d.step (.text m.wire) = (d.dispatch m).2 := congrArg Prod.snd (d.handleText_wire m)
    have hfirst : d.outcome? (.text m.wire) = some (d.dispatch m).1 := by
      rw [outcome?, handleText_wire]
    obtain ⟨hrun, hresults⟩ := ih (d.dispatch m).2
    constructor
    · rw [List.map_cons, run, List.foldl_cons, hstep]
      exact hrun
    · rw [List.map_cons, results, hstep, hfirst, hresults]
      rfl

/-- An event in a frame does to the views what it does on its own. -/
theorem step_frame (d : Dispatcher config) (m : Message) :
    ∃ counters, d.step (.frame m.frame) = (d.dispatch m).2.withStatistics counters := by
  have hstep : d.step (.frame m.frame) = (d.dispatch m).2.count (d.dispatch m).1 := by
    rw [← handleText_wire]
    rfl
  rw [hstep]
  exact count_eq _ _

theorem textOutcomes_frames (d : Dispatcher config) (messages : List Message) :
    d.textOutcomes (messages.map fun m => .frame m.frame) = d.verdicts messages := by
  induction messages generalizing d with
  | nil => rfl
  | cons m messages ih =>
    obtain ⟨counters, hstep⟩ := d.step_frame m
    have hfirst : d.textOutcome? (.frame m.frame) = some (d.dispatch m).1 := by
      rw [← handleText_wire]
      rfl
    rw [List.map_cons, textOutcomes, hfirst, hstep, ih, verdicts_withStatistics]
    rfl

theorem results_frames (d : Dispatcher config) (messages : List Message) :
    d.results (messages.map fun m => .frame m.frame) = (d.verdicts messages).map some := by
  induction messages generalizing d with
  | nil => rfl
  | cons m messages ih =>
    obtain ⟨counters, hstep⟩ := d.step_frame m
    have hfirst : d.outcome? (.frame m.frame) = some (d.dispatch m).1 := by
      rw [← handleText_wire]
      rfl
    rw [List.map_cons, results, hfirst, hstep, ih, verdicts_withStatistics]
    rfl

theorem exists_run_frames (d : Dispatcher config) (messages : List Message) :
    ∃ counters, d.run (messages.map fun m => .frame m.frame) =
      (d.run (messages.map .message)).withStatistics counters := by
  induction messages generalizing d with
  | nil => exact ⟨d.statistics, rfl⟩
  | cons m messages ih =>
    obtain ⟨counters, hstep⟩ := d.step_frame m
    obtain ⟨counters', hrest⟩ := ih ((d.dispatch m).2.withStatistics counters)
    rw [run_messages_withStatistics] at hrest
    refine ⟨counters', ?_⟩
    rw [List.map_cons, run, List.foldl_cons, hstep]
    exact hrest

/-- Events in frames leave what they leave on their own, and they are counted. -/
theorem run_frames (d : Dispatcher config) (messages : List Message) :
    d.run (messages.map fun m => .frame m.frame) =
      (d.run (messages.map .message)).withStatistics
        (d.statistics + .tally config (d.verdicts messages)
          (messages.map fun m => .frame m.frame)) := by
  obtain ⟨counters, hrun⟩ := d.exists_run_frames messages
  have hstatistics := d.statistics_run (messages.map fun m => .frame m.frame)
  rw [textOutcomes_frames] at hstatistics
  rw [← hstatistics, hrun]
  rfl

end Dispatcher

open ByteStream

/-- A recording is read back as the events that were recorded, however it is delivered. -/
theorem Source.frames_recording {max : UInt64} {messages : List Message}
    {chunks : List (List UInt8)} (hlines : ∀ m ∈ messages, m.line.length ≤ max.toNat)
    (hbytes : chunks.flatten = messages.flatMap Message.line) :
    (Source.lines { maxFrameBytes := max, stream := { chunks } }).frames =
      .opened :: messages.map Message.frame ++ [.closed "end of stream"] := by
  have htexts : texts max .complete chunks.flatten = messages.map Message.wire := by
    rw [hbytes, texts_lines hlines]
  rw [(LineFeed.gives max { chunks }).frames_eq, framesOf, bytes, htexts, List.map_map]
  rfl

theorem Source.steps_recording {source : Source} {messages : List Message}
    (h : source.frames = .opened :: messages.map Message.frame ++ [.closed "end of stream"]) :
    source.steps = .frame .opened :: messages.map (fun m => .frame m.frame) ++
      [.frame (.closed "end of stream")] := by
  rw [steps, h]
  simp

theorem Frame.countP_isDisconnect_texts (texts : List String) :
    (texts.map text).countP isDisconnect = 0 := by
  rw [List.countP_map, List.countP_eq_zero]
  exact fun content _ => Bool.false_ne_true

theorem Message.countP_isDisconnect_frames (messages : List Message) :
    (messages.map frame).countP Frame.isDisconnect = 0 := by
  have h := Frame.countP_isDisconnect_texts (messages.map wire)
  rwa [List.map_map] at h

theorem Frame.closed_or_failed {frame : Frame} (h : frame.isDisconnect = true) :
    (∃ reason, frame = .closed reason) ∨ ∃ error, frame = .failed error := by
  cases frame with
  | opened => cases h
  | text content => cases h
  | closed reason => exact .inl ⟨reason, rfl⟩
  | failed error => exact .inr ⟨error, rfl⟩

namespace Dispatcher

variable {config : Config}

theorem step_lost_kept {last : Frame} (hlast : last.isDisconnect = true)
    (h : config.feed.resetOnDisconnect = false) (d : Dispatcher config) :
    d.step (.frame last) = d := by
  have hkept : d.disconnected = d := if_neg (by rw [h]; exact Bool.false_ne_true)
  obtain ⟨reason, rfl⟩ | ⟨error, rfl⟩ := Frame.closed_or_failed hlast
  · exact hkept
  · exact hkept

theorem step_closed (h : config.feed.resetOnDisconnect = false) (d : Dispatcher config)
    (reason : String) : d.step (.frame (.closed reason)) = d :=
  step_lost_kept rfl h d

/--
A session over recorded events leaves what the events leave when they are handed over one by one,
and its figures tell what came of them.
-/
theorem runSession_recording (h : config.feed.resetOnDisconnect = false) (d : Dispatcher config)
    {max : UInt64} {messages : List Message} {chunks : List (List UInt8)}
    (hlines : ∀ m ∈ messages, m.line.length ≤ max.toNat)
    (hbytes : chunks.flatten = messages.flatMap Message.line)
    (hroom : .overflowed ∉ d.verdicts messages) :
    let applied := (d.verdicts messages).countP Outcome.isApplied
    let dropped := (d.verdicts messages).countP Outcome.isRejected
    d.runSession (.lines { maxFrameBytes := max, stream := { chunks } }) =
      (some { frames := messages.length + 2, applied, dropped, disconnects := 1 },
        (d.run (messages.map .message)).withStatistics
          { d.statistics with
            applied := d.statistics.applied + applied
            dropped := d.statistics.dropped + dropped }) := by
  intro applied dropped
  have hframes := Source.frames_recording hlines hbytes
  have hsteps := Source.steps_recording hframes
  have hopened : d.step (.frame .opened) = d := rfl
  have hquiet : some .overflowed ∉
      d.results (Source.lines { maxFrameBytes := max, stream := { chunks } }).steps := by
    rw [hsteps, results_concat, results, hopened, results_frames]
    simp [outcome?, handleFrame, hroom]
  have hrun : d.run (Source.lines { maxFrameBytes := max, stream := { chunks } }).steps =
      (d.run (messages.map .message)).withStatistics
        { d.statistics with
          applied := d.statistics.applied + applied
          dropped := d.statistics.dropped + dropped } := by
    rw [hsteps, run_concat, step_closed h, run, List.foldl_cons, hopened]
    refine (d.run_frames messages).trans ?_
    simp [Statistics.tally, Statistics.add_def, h, applied, dropped]
  have hdisconnects : (Frame.opened :: messages.map Message.frame ++
      [Frame.closed "end of stream"]).countP Frame.isDisconnect = 1 := by
    rw [List.countP_append, List.countP_cons, Message.countP_isDisconnect_frames]
    rfl
  rw [runSession_eq hquiet, hrun, hframes, hdisconnects]
  simp [withStatistics]

theorem runSession_recording_cut :
    let config : Config := { feed := { resetOnDisconnect := false } }
    let messages := [Message.openStage "s\n", .walletRemoved "w"]
    let bytes := messages.flatMap Message.line
    let chunks := [bytes.take 40, bytes.drop 40]
    config.feed.resetOnDisconnect = false ∧
      (∀ m ∈ messages, m.line.length ≤ (64 : UInt64).toNat) ∧
      chunks.flatten = messages.flatMap Message.line ∧
      .overflowed ∉ (new config).verdicts messages ∧
      (new config).runSession (.lines { maxFrameBytes := 64, stream := { chunks } }) =
        (some { frames := 4, applied := 1, dropped := 1, disconnects := 1 },
          ((new config).run (messages.map .message)).withStatistics
            { applied := 1, dropped := 1 }) := by
  intro config messages bytes chunks
  have hlines : ∀ m ∈ messages, m.line.length ≤ (64 : UInt64).toNat := by decide +kernel
  have hbytes : chunks.flatten = messages.flatMap Message.line := by simp [chunks, bytes]
  have hroom : .overflowed ∉ (new config).verdicts messages := by decide +kernel
  exact ⟨rfl, hlines, hbytes, hroom, runSession_recording rfl _ hlines hbytes hroom⟩

end Dispatcher

end LiveFeed
