import Mathlib.Algebra.GroupWithZero.Nat
import LiveFeed.Proofs.Sessions

namespace LiveFeed

namespace Statistics

instance : Add Statistics where
  add a b := ⟨a.applied + b.applied, a.dropped + b.dropped, a.resets + b.resets⟩

theorem add_def (a b : Statistics) :
    a + b = ⟨a.applied + b.applied, a.dropped + b.dropped, a.resets + b.resets⟩ := rfl

theorem zero_add (a : Statistics) : {} + a = a := by
  simp [add_def]

theorem add_assoc (a b c : Statistics) : a + b + c = a + (b + c) := by
  simp [add_def, Nat.add_assoc]

end Statistics

namespace Outcome

def isApplied : Outcome → Bool
  | applied => true
  | rejected _ | overflowed => false

def isRejected : Outcome → Bool
  | rejected _ => true
  | applied | overflowed => false

end Outcome

def Step.isDisconnect : Step → Bool
  | frame f => f.isDisconnect
  | text _ | message _ | reset => false

/-- What outcomes of texts add to the counters, together with the lost connections of some steps. -/
def Statistics.tally (config : Config) (outcomes : List Outcome) (steps : List Step) :
    Statistics where
  applied := outcomes.countP Outcome.isApplied
  dropped := outcomes.countP Outcome.isRejected
  resets := if config.feed.resetOnDisconnect then steps.countP Step.isDisconnect else 0

theorem Statistics.tally_append (config : Config) (outcomes outcomes' : List Outcome)
    (steps steps' : List Step) :
    tally config (outcomes ++ outcomes') (steps ++ steps') =
      tally config outcomes steps + tally config outcomes' steps' := by
  simp only [tally, add_def, List.countP_append]
  split
  next => rfl
  next => rfl

namespace Dispatcher

variable {config : Config} {d : Dispatcher config}

/-- What comes of the text in a frame. A text that is handed over without a frame is not counted. -/
def textOutcome? (d : Dispatcher config) : Step → Option Outcome
  | .frame (.text content) => some (d.handleText content).1
  | _ => none

/-- What comes of the texts in the frames of a run, one after the other. -/
def textOutcomes (d : Dispatcher config) : List Step → List Outcome
  | [] => []
  | s :: steps => (d.textOutcome? s).toList ++ (d.step s).textOutcomes steps

theorem statistics_dispatch (d : Dispatcher config) (m : Message) :
    (d.dispatch m).2.statistics = d.statistics :=
  congrArg (·.2.statistics) (d.dispatch_withStatistics d.statistics m)

theorem statistics_count (d : Dispatcher config) (outcome : Outcome) {s : Step}
    (h : s.isDisconnect = false) :
    (d.count outcome).statistics = d.statistics + .tally config [outcome] [s] := by
  cases outcome <;> simp [count, Statistics.add_def, Statistics.tally, Outcome.isApplied,
    Outcome.isRejected, h]

theorem statistics_disconnected (d : Dispatcher config) {s : Step} (h : s.isDisconnect = true) :
    d.disconnected.statistics = d.statistics + .tally config [] [s] := by
  unfold disconnected
  split
  next hr => simp [Statistics.add_def, Statistics.tally, hr, h, reset]
  next hr => simp [Statistics.add_def, Statistics.tally, hr]

/-- A step that brings neither a text in a frame nor the end of a connection adds nothing. -/
theorem statistics_uncounted {s : Step} (ht : d.textOutcome? s = none)
    (hs : s.isDisconnect = false) :
    d.statistics = d.statistics + .tally config (d.textOutcome? s).toList [s] := by
  simp [ht, hs, Statistics.tally, Statistics.add_def]

theorem statistics_step (d : Dispatcher config) (s : Step) :
    (d.step s).statistics = d.statistics + .tally config (d.textOutcome? s).toList [s] := by
  cases s with
  | frame f =>
    cases f with
    | opened => exact statistics_uncounted rfl rfl
    | text content =>
      have hcount := (d.handleText content).2.statistics_count (d.handleText content).1
        (s := .frame (.text content)) rfl
      rw [statistics_handleText] at hcount
      exact hcount
    | closed reason => exact d.statistics_disconnected rfl
    | failed error => exact d.statistics_disconnected rfl
  | text content => exact (d.statistics_handleText content).trans (statistics_uncounted rfl rfl)
  | message m => exact (d.statistics_dispatch m).trans (statistics_uncounted rfl rfl)
  | reset => exact statistics_uncounted (d := d) (s := .reset) rfl rfl

theorem statistics_run (d : Dispatcher config) (steps : List Step) :
    (d.run steps).statistics = d.statistics + .tally config (d.textOutcomes steps) steps := by
  induction steps generalizing d with
  | nil => simp [run, textOutcomes, Statistics.tally, Statistics.add_def]
  | cons s steps ih =>
    have happend := Statistics.tally_append config (d.textOutcome? s).toList
      ((d.step s).textOutcomes steps) [s] steps
    calc (d.run (s :: steps)).statistics
      _ = ((d.step s).run steps).statistics := rfl
      _ = (d.statistics + .tally config (d.textOutcome? s).toList [s]) +
            .tally config ((d.step s).textOutcomes steps) steps := by rw [ih, statistics_step]
      _ = d.statistics + .tally config (d.textOutcomes (s :: steps)) (s :: steps) := by
        rw [Statistics.add_assoc, ← happend]
        rfl

/-- A text that does not overflow is applied or rejected. -/
theorem countP_textOutcomes {frames : List Frame}
    (h : some .overflowed ∉ d.results (frames.map .frame)) :
    (d.textOutcomes (frames.map .frame)).countP Outcome.isApplied +
      (d.textOutcomes (frames.map .frame)).countP Outcome.isRejected =
        frames.countP Frame.isText := by
  induction frames generalizing d with
  | nil => rfl
  | cons frame frames ih =>
    rw [List.map_cons, results, List.mem_cons, not_or] at h
    obtain ⟨hfirst, hrest⟩ := h
    rw [List.map_cons, textOutcomes, List.countP_append, List.countP_append, List.countP_cons,
      ← ih hrest]
    cases frame with
    | opened => simp [textOutcome?, Frame.isText]
    | text content =>
      have hroom : (d.handleText content).1 ≠ .overflowed :=
        fun ho => hfirst (congrArg some ho).symm
      cases ho : (d.handleText content).1 with
      | applied =>
        simp [textOutcome?, ho, Frame.isText, Outcome.isApplied, Outcome.isRejected]
        omega
      | rejected e =>
        simp [textOutcome?, ho, Frame.isText, Outcome.isApplied, Outcome.isRejected]
        omega
      | overflowed => exact absurd ho hroom
    | closed reason => simp [textOutcome?, Frame.isText]
    | failed error => simp [textOutcome?, Frame.isText]

end Dispatcher

/-- What a dispatcher may be put to: a single step, or a source that is run to its end. -/
inductive Task where
  | step (s : Step)
  | session (source : Source)

def Task.steps : Task → List Step
  | step s => [s]
  | session source => source.steps

/-- The figures of a session tell of the frames that its source gave; no counter went down. -/
structure Summary.TellsOf (summary : Summary) (source : Source) (before after : Statistics) :
    Prop where
  frames : summary.frames = source.frames.length
  disconnects : summary.disconnects = source.frames.countP Frame.isDisconnect
  texts : summary.applied + summary.dropped = source.frames.countP Frame.isText
  applied : before.applied + summary.applied = after.applied
  dropped : before.dropped + summary.dropped = after.dropped
  applied_le : before.applied ≤ after.applied
  dropped_le : before.dropped ≤ after.dropped

namespace Dispatcher

variable {config : Config} {d last : Dispatcher config} {sessions : List (Source × Summary)}

theorem exists_runSession {source : Source} (h : some .overflowed ∉ d.results source.steps) :
    ∃ summary, d.runSession source = (some summary, d.run source.steps) ∧
      summary.TellsOf source d.statistics (d.run source.steps).statistics := by
  have hstatistics := d.statistics_run source.steps
  refine ⟨_, runSession_eq h, rfl, rfl, ?_, ?_, ?_, ?_, ?_⟩
  · rw [← countP_textOutcomes h, hstatistics]
    simp [Statistics.add_def, Statistics.tally, Source.steps]
  all_goals
    rw [hstatistics]
    simp [Statistics.add_def]

def perform (d : Dispatcher config) : Task → Dispatcher config
  | .step s => d.step s
  | .session source => (d.runSession source).2

def performAll (d : Dispatcher config) (tasks : List Task) : Dispatcher config :=
  tasks.foldl perform d

theorem perform_eq {task : Task} (h : some .overflowed ∉ d.results task.steps) :
    d.perform task = d.run task.steps := by
  cases task with
  | step s => rfl
  | session source =>
    obtain ⟨summary, hrun, -⟩ := exists_runSession h
    exact congrArg Prod.snd hrun

/-- Tasks in which nothing overflows come to the run of all their steps. -/
theorem performAll_eq {tasks : List Task}
    (h : some .overflowed ∉ d.results (tasks.flatMap Task.steps)) :
    d.performAll tasks = d.run (tasks.flatMap Task.steps) := by
  induction tasks generalizing d with
  | nil => rfl
  | cons task tasks ih =>
    rw [List.flatMap_cons, results_append, List.mem_append, not_or] at h
    obtain ⟨hfirst, hrest⟩ := h
    rw [performAll, List.foldl_cons, perform_eq hfirst, List.flatMap_cons, run_append]
    exact ih hrest

/-- Sources are run into a dispatcher one after the other, each with figures that tell of it. -/
inductive Sessions : Dispatcher config → List (Source × Summary) → Dispatcher config → Prop
  | nil (d : Dispatcher config) : Sessions d [] d
  | cons {d mid last : Dispatcher config} {source : Source} {summary : Summary}
      {sessions : List (Source × Summary)} (run : d.runSession source = (some summary, mid))
      (tells : summary.TellsOf source d.statistics mid.statistics)
      (rest : Sessions mid sessions last) : Sessions d ((source, summary) :: sessions) last

theorem exists_sessions {sources : List Source}
    (h : some .overflowed ∉ d.results (sources.flatMap Source.steps)) :
    ∃ sessions last, sessions.map Prod.fst = sources ∧ d.Sessions sessions last := by
  induction sources generalizing d with
  | nil => exact ⟨[], d, rfl, .nil d⟩
  | cons source sources ih =>
    rw [List.flatMap_cons, results_append, List.mem_append, not_or] at h
    obtain ⟨hfirst, hrest⟩ := h
    obtain ⟨summary, hrun, htells⟩ := exists_runSession hfirst
    obtain ⟨sessions, last, hsources, hsessions⟩ := ih hrest
    exact ⟨(source, summary) :: sessions, last, congrArg (source :: ·) hsources,
      .cons hrun htells hsessions⟩

/-- What sessions report adds up to what the dispatcher has counted in them. -/
theorem Sessions.sum_eq (h : d.Sessions sessions last) :
    d.statistics.applied + (sessions.map (·.2.applied)).sum = last.statistics.applied ∧
      d.statistics.dropped + (sessions.map (·.2.dropped)).sum = last.statistics.dropped := by
  induction h with
  | nil d => exact ⟨rfl, rfl⟩
  | cons _ tells _ ih =>
    rw [List.map_cons, List.sum_cons, ← Nat.add_assoc, tells.applied, List.map_cons,
      List.sum_cons, ← Nat.add_assoc, tells.dropped]
    exact ih

/--
The counters of a dispatcher, which some tasks have led to, tell what became of their frames, and
nothing but frames is counted. Those of sessions that follow one after the other add up.
-/
structure Conserved (d : Dispatcher config) (tasks : List Task) (sources : List Source) :
    Prop where
  applied : d.statistics.applied =
    ((new config).textOutcomes (tasks.flatMap Task.steps)).countP Outcome.isApplied
  dropped : d.statistics.dropped =
    ((new config).textOutcomes (tasks.flatMap Task.steps)).countP Outcome.isRejected
  resets : d.statistics.resets =
    if config.feed.resetOnDisconnect then (tasks.flatMap Task.steps).countP Step.isDisconnect
    else 0
  text : ∀ content, (d.handleText content).2.statistics = d.statistics
  message : ∀ m, (d.dispatch m).2.statistics = d.statistics
  reset : d.reset.statistics = d.statistics
  sessions : ∃ sessions last, sessions.map Prod.fst = sources ∧ d.Sessions sessions last ∧
    d.statistics.applied + (sessions.map (·.2.applied)).sum = last.statistics.applied ∧
    d.statistics.dropped + (sessions.map (·.2.dropped)).sum = last.statistics.dropped

/-- Whatever tasks and sessions follow each other, no frame is counted twice or not at all. -/
theorem conserved_run (config : Config) (tasks : List Task) (sources : List Source)
    (h : some .overflowed ∉
      (new config).results (tasks.flatMap Task.steps ++ sources.flatMap Source.steps)) :
    ((new config).performAll tasks).Conserved tasks sources := by
  rw [results_append, List.mem_append, not_or] at h
  obtain ⟨htasks, hsources⟩ := h
  rw [performAll_eq htasks]
  have hstatistics : ((new config).run (tasks.flatMap Task.steps)).statistics = _ :=
    ((new config).statistics_run _).trans (Statistics.zero_add _)
  obtain ⟨sessions, last, hfst, hsessions⟩ := exists_sessions hsources
  exact
    { applied := congrArg Statistics.applied hstatistics
      dropped := congrArg Statistics.dropped hstatistics
      resets := congrArg Statistics.resets hstatistics
      text := statistics_handleText _
      message := statistics_dispatch _
      reset := rfl
      sessions := ⟨sessions, last, hfst, hsessions, hsessions.sum_eq⟩ }

theorem conserved_run_two_sessions :
    some .overflowed ∉ (new {}).results
      ([Task.step (.frame (.text "[]")), .session (.channel [.opened, .text ""]),
          .step .reset].flatMap Task.steps ++
        [Source.channel [.text (Message.openStage "s").wire, .closed "over"],
          .channel [.failed "lost"]].flatMap Source.steps) ∧
    ((new {}).performAll [.step (.frame (.text "[]")), .session (.channel [.opened, .text ""]),
        .step .reset]).Conserved
      [.step (.frame (.text "[]")), .session (.channel [.opened, .text ""]), .step .reset]
      [.channel [.text (Message.openStage "s").wire, .closed "over"], .channel [.failed "lost"]] := by
  have h : some .overflowed ∉ (new {}).results
      ([Task.step (.frame (.text "[]")), .session (.channel [.opened, .text ""]),
          .step .reset].flatMap Task.steps ++
        [Source.channel [.text (Message.openStage "s").wire, .closed "over"],
          .channel [.failed "lost"]].flatMap Source.steps) := by
    simp only [List.flatMap_cons, List.flatMap_nil, Task.steps, Source.steps,
      Source.frames_channel]
    decide +kernel
  exact ⟨h, conserved_run {} _ _ h⟩

end Dispatcher

end LiveFeed
