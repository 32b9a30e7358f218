import LiveFeed.Proofs.Overflow

namespace LiveFeed

namespace Step

/-- The event that a step brings, if it brings one. -/
def message? : Step → Option Message
  | frame f => f.message?
  | text content => (Message.decode content).toOption
  | message m => some m
  | reset => none

/-- Whether a step empties the views, as asked or because the connection is gone. -/
def empties (config : Config) : Step → Bool
  | frame f => f.isDisconnect && config.feed.resetOnDisconnect
  | reset => true
  | text _ | message _ => false

theorem message?_of_empties {config : Config} {s : Step} (h : s.empties config = true) :
    s.message? = none := by
  cases s with
  | frame f =>
    cases f with
    | opened => simp [empties, Frame.isDisconnect] at h
    | text content => simp [empties, Frame.isDisconnect] at h
    | closed reason => rfl
    | failed error => rfl
  | text content => simp [empties] at h
  | message m => simp [empties] at h
  | reset => rfl

theorem empties_of_message {config : Config} {s : Step} {m : Message} (h : s.message? = some m) :
    s.empties config = false := by
  cases he : s.empties config with
  | false => rfl
  | true =>
    rw [message?_of_empties he] at h
    cases h

end Step

namespace Dispatcher

variable {config : Config} {d : Dispatcher config}

def outcome? (d : Dispatcher config) : Step → Option Outcome
  | .frame f => (d.handleFrame f).1
  | .text content => some (d.handleText content).1
  | .message m => some (d.dispatch m).1
  | .reset => none

/-- What comes of the steps of a run, one after the other. -/
def results (d : Dispatcher config) : List Step → List (Option Outcome)
  | [] => []
  | s :: steps => d.outcome? s :: (d.step s).results steps

theorem run_append (d : Dispatcher config) (steps more : List Step) :
    d.run (steps ++ more) = (d.run steps).run more :=
  List.foldl_append

theorem results_append (d : Dispatcher config) (steps more : List Step) :
    d.results (steps ++ more) = d.results steps ++ (d.run steps).results more := by
  induction steps generalizing d with
  | nil => rfl
  | cons first steps ih =>
    rw [List.cons_append, results, ih, results]
    rfl

theorem run_concat (d : Dispatcher config) (steps : List Step) (s : Step) :
    d.run (steps ++ [s]) = (d.run steps).step s :=
  d.run_append steps [s]

theorem results_concat (d : Dispatcher config) (steps : List Step) (s : Step) :
    d.results (steps ++ [s]) = d.results steps ++ [(d.run steps).outcome? s] :=
  d.results_append steps [s]

/-- The views after a step: emptied, changed by an event, or as they were. -/
def after (d : Dispatcher config) (s : Step) : Dispatcher config :=
  if s.empties config then d.reset
  else
    match s.message? with
    | some m => (d.dispatch m).2
    | none => d

theorem after_of_empties {s : Step} (h : s.empties config = true) : d.after s = d.reset := by
  rw [after, if_pos h]

theorem after_of_message {s : Step} {m : Message} (h : s.message? = some m) :
    d.after s = (d.dispatch m).2 := by
  have he : s.empties config = false := Step.empties_of_message h
  rw [after, if_neg (by rw [he]; exact Bool.false_ne_true), h]

theorem after_of_neither {s : Step} (he : s.empties config = false) (hm : s.message? = none) :
    d.after s = d := by
  rw [after, if_neg (by rw [he]; exact Bool.false_ne_true), hm]

theorem snd_handleText (d : Dispatcher config) (content : String) :
    (d.handleText content).2 = d.after (.text content) := by
  cases hm : Message.decode content with
  | ok m => simp [handleText, after, Step.empties, Step.message?, hm, Except.toOption]
  | error e => simp [handleText, after, Step.empties, Step.message?, hm, Except.toOption]

theorem count_eq (d : Dispatcher config) (outcome : Outcome) :
    ∃ counters, d.count outcome = d.withStatistics counters := by
  cases outcome with
  | applied => exact ⟨_, rfl⟩
  | rejected e => exact ⟨_, rfl⟩
  | overflowed => exact ⟨d.statistics, rfl⟩

theorem disconnected_eq (d : Dispatcher config) {s : Step}
    (he : s.empties config = config.feed.resetOnDisconnect) (hm : s.message? = none) :
    ∃ counters, d.disconnected = (d.after s).withStatistics counters := by
  unfold disconnected
  split
  next hr =>
    rw [after_of_empties (he.trans hr)]
    exact ⟨_, rfl⟩
  next hr =>
    rw [Bool.not_eq_true] at hr
    rw [after_of_neither (he.trans hr) hm]
    exact ⟨d.statistics, rfl⟩

/-- Apart from the views a step changes nothing but counters. -/
theorem step_eq (d : Dispatcher config) (s : Step) :
    ∃ counters, d.step s = (d.after s).withStatistics counters := by
  cases s with
  | frame f =>
    cases f with
    | opened => exact ⟨d.statistics, rfl⟩
    | text content =>
      obtain ⟨counters, hc⟩ := (d.handleText content).2.count_eq (d.handleText content).1
      exact ⟨counters, hc.trans (congrArg (withStatistics · counters) (d.snd_handleText content))⟩
    | closed reason => exact d.disconnected_eq (Bool.true_and _) rfl
    | failed error => exact d.disconnected_eq (Bool.true_and _) rfl
  | text content => exact ⟨_, d.snd_handleText content⟩
  | message m => exact ⟨_, rfl⟩
  | reset => exact ⟨_, rfl⟩

/-- What emptying the views keeps and every event keeps, every step keeps. -/
theorem step_keeps {P : Dispatcher config → Prop}
    (hcounters : ∀ d counters, P d → P (d.withStatistics counters)) (h : P d)
    (hreset : P d.reset) (hdispatch : ∀ m, P (d.dispatch m).2) (s : Step) : P (d.step s) := by
  obtain ⟨counters, hstep⟩ := d.step_eq s
  rw [hstep]
  apply hcounters
  unfold after
  split
  next => exact hreset
  next =>
    split
    next m _ => exact hdispatch m
    next => exact h

/-- What is read off the views after an event that a step brings. -/
theorem read_of_message {α : Type} (read : Dispatcher config → α)
    (hread : ∀ d counters, read (d.withStatistics counters) = read d) {s : Step} {m : Message}
    (h : s.message? = some m) : read (d.step s) = read (d.dispatch m).2 := by
  obtain ⟨counters, hstep⟩ := d.step_eq s
  rw [hstep, hread, after_of_message h]

/-- What is read off the views after a step is told by its event, or by its emptying them. -/
theorem read_step {α : Type} (read : Dispatcher config → α)
    (hread : ∀ d counters, read (d.withStatistics counters) = read d) {s : Step} {told : α}
    (hempties : s.empties config = true → read d.reset = told)
    (hmessage : ∀ m, s.message? = some m → read (d.dispatch m).2 = told)
    (hneither : s.empties config = false → s.message? = none → read d = told) :
    read (d.step s) = told := by
  obtain ⟨counters, hstep⟩ := d.step_eq s
  rw [hstep, hread]
  cases he : s.empties config with
  | true => rw [after_of_empties he, hempties he]
  | false =>
    cases h : s.message? with
    | none => rw [after_of_neither he h, hneither he h]
    | some m => rw [after_of_message h, hmessage m h]

theorem outcome?_of_message {s : Step} {m : Message} (h : s.message? = some m) :
    d.outcome? s = some (d.dispatch m).1 := by
  have decoded {content : String} (hm : (Message.decode content).toOption = some m) :
      (d.handleText content).1 = (d.dispatch m).1 := by
    cases hd : Message.decode content with
    | ok m' =>
      rw [hd] at hm
      obtain rfl := Option.some.inj hm
      simp only [handleText, hd]
    | error e =>
      rw [hd] at hm
      simp [Except.toOption] at hm
  cases s with
  | frame f =>
    cases f with
    | opened => simp [Step.message?, Frame.message?] at h
    | text content => exact congrArg some (decoded h)
    | closed reason => simp [Step.message?, Frame.message?] at h
    | failed error => simp [Step.message?, Frame.message?] at h
  | text content => exact congrArg some (decoded h)
  | message m' =>
    obtain rfl := Option.some.inj h
    rfl
  | reset => simp [Step.message?] at h

end Dispatcher

end LiveFeed
