import LiveFeed.Proofs.Isolation

namespace LiveFeed.Dispatcher

variable {config : Config} {d : Dispatcher config}

/-- The dispatcher with other counters; its views do not depend on them. -/
def withStatistics (d : Dispatcher config) (s : Statistics) : Dispatcher config :=
  { d with statistics := s }

/-- The same views under another treatment of the feed, and with other counters. -/
def under (d : Dispatcher config) (feed : FeedConfig) (s : Statistics) :
    Dispatcher { config with feed } where
  wallets := d.wallets
  stages := d.stages
  moderations := d.moderations
  engagements := d.engagements
  posts := d.posts
  openStage := d.openStage
  statistics := s

theorem announceStage_under (feed : FeedConfig) (s : Statistics) (stage : Stage) :
    (d.under feed s).announceStage stage =
      ((d.announceStage stage).1, (d.announceStage stage).2.under feed s) := by
  simp only [under, announceStage, queueStage]
  split
  next => rfl
  next => rfl

theorem publish_under (feed : FeedConfig) (s : Statistics) (stage : String) (post : Post) :
    (d.under feed s).publish stage post =
      ((d.publish stage post).1, (d.publish stage post).2.under feed s) := by
  by_cases hm : (d.moderations.bump .moderations stage Stage.grow).1 = .overflowed
  · simp only [under, publish, hm, if_true]
  · by_cases he : (d.engagements.bump .engagements stage Engagement.grow).1 = .overflowed
    · by_cases ho : d.openStage = some stage
      · simp only [under, publish, showPost, hm, he, ho, if_true, if_false]
      · simp only [under, publish, showPost, hm, he, ho, if_true, if_false]
    · by_cases ho : d.openStage = some stage
      · simp only [under, publish, showPost, hm, he, ho, if_true, if_false]
      · simp only [under, publish, showPost, hm, he, ho, if_false]

theorem closeStage_under (feed : FeedConfig) (s : Statistics) (token : String) :
    (d.under feed s).closeStage token =
      ((d.closeStage token).1, (d.closeStage token).2.under feed s) := by
  by_cases ho : d.openStage = some token
  · simp only [under, closeStage, ho, if_true]
  · simp only [under, closeStage, ho, if_false]

/-- What an event comes to does not depend on the treatment of the feed. -/
theorem dispatch_under (feed : FeedConfig) (s : Statistics) (m : Message) :
    (d.under feed s).dispatch m = ((d.dispatch m).1, (d.dispatch m).2.under feed s) := by
  cases m with
  | newWalletBalance wallet => rfl
  | walletRemoved token => rfl
  | newStage stage => exact announceStage_under feed s stage
  | stageEngaged engagement => rfl
  | newStagePost stage post => exact publish_under feed s stage post
  | stageClosed token => exact closeStage_under feed s token
  | openStage token => rfl

theorem handleText_under (feed : FeedConfig) (s : Statistics) (text : String) :
    (d.under feed s).handleText text =
      ((d.handleText text).1, (d.handleText text).2.under feed s) := by
  unfold handleText
  split
  next m _ => exact dispatch_under feed s m
  next => rfl

theorem dispatch_withStatistics (s : Statistics) (m : Message) :
    (d.withStatistics s).dispatch m =
      ((d.dispatch m).1, (d.dispatch m).2.withStatistics s) :=
  dispatch_under config.feed s m

theorem handleText_withStatistics (s : Statistics) (text : String) :
    (d.withStatistics s).handleText text =
      ((d.handleText text).1, (d.handleText text).2.withStatistics s) :=
  handleText_under config.feed s text

theorem statistics_handleText (d : Dispatcher config) (text : String) :
    (d.handleText text).2.statistics = d.statistics := by
  have h := handleText_withStatistics (d := d) d.statistics text
  exact congrArg (·.2.statistics) h

/-- The dispatcher after so many more frames that were dropped. -/
def addDropped (d : Dispatcher config) (n : Nat) : Dispatcher config :=
  d.withStatistics { d.statistics with dropped := d.statistics.dropped + n }

theorem addDropped_add (d : Dispatcher config) (m n : Nat) :
    (d.addDropped m).addDropped n = d.addDropped (m + n) := by
  simp [addDropped, withStatistics, Nat.add_assoc]

/-- Frames dropped before are seen in nothing that a frame does. -/
theorem handleFrame_addDropped (d : Dispatcher config) (n : Nat) (frame : Frame) :
    (d.addDropped n).handleFrame frame =
      ((d.handleFrame frame).1, (d.handleFrame frame).2.addDropped n) := by
  cases frame with
  | opened => rfl
  | text text =>
    have hs := d.statistics_handleText text
    simp only [handleFrame, addDropped, handleText_withStatistics]
    cases (d.handleText text).1 with
    | applied => simp [count, withStatistics, hs]
    | rejected e => simp [count, withStatistics, hs, Nat.add_right_comm]
    | overflowed => simp [count, withStatistics, hs]
  | closed reason =>
    simp only [handleFrame, disconnected]
    split
    next => rfl
    next => rfl
  | failed error =>
    simp only [handleFrame, disconnected]
    split
    next => rfl
    next => rfl

theorem run_addDropped (d : Dispatcher config) (n : Nat) (frames : List Frame) :
    (d.addDropped n).run (frames.map .frame) = (d.run (frames.map .frame)).addDropped n := by
  induction frames generalizing d with
  | nil => rfl
  | cons frame frames ih =>
    have hstep : (d.addDropped n).step (.frame frame) = (d.step (.frame frame)).addDropped n :=
      congrArg Prod.snd (d.handleFrame_addDropped n frame)
    rw [List.map_cons, run, run, List.foldl_cons, List.foldl_cons, hstep]
    exact ih (d.step (.frame frame))

/-- Whether the event in a frame is dropped. -/
def drops (d : Dispatcher config) (frame : Frame) : Bool :=
  match (d.handleFrame frame).1 with
  | some (.rejected _) => true
  | _ => false

/--
The frames of a row without those at chosen places, these only if they are dropped when their turn
comes. The first frame is at the place `i`.
-/
def spare (d : Dispatcher config) (chosen : Nat → Bool) (i : Nat) : List Frame → List Frame
  | [] => []
  | frame :: frames =>
    let rest := spare (d.handleFrame frame).2 chosen (i + 1) frames
    if chosen i && d.drops frame then rest else frame :: rest

theorem length_spare_le (d : Dispatcher config) (chosen : Nat → Bool) (i : Nat)
    (frames : List Frame) : (d.spare chosen i frames).length ≤ frames.length := by
  induction frames generalizing d i with
  | nil => simp [spare]
  | cons frame frames ih =>
    have hrest := ih (d.handleFrame frame).2 (i + 1)
    unfold spare
    split
    next => exact Nat.le_succ_of_le hrest
    next => exact Nat.succ_le_succ hrest

theorem handleFrame_of_drops (h : d.Mirrored) {frame : Frame} (hd : d.drops frame = true) :
    (d.handleFrame frame).2 = d.addDropped 1 := by
  cases frame with
  | opened => simp [drops, handleFrame] at hd
  | text text =>
    cases ho : (d.handleText text).1 with
    | applied => simp [drops, handleFrame, ho] at hd
    | rejected e => simp only [handleFrame, ho, handleText_of_rejected h ho]; rfl
    | overflowed => simp [drops, handleFrame, ho] at hd
  | closed reason => simp [drops, handleFrame] at hd
  | failed error => simp [drops, handleFrame] at hd

/-- Frames that are dropped can be deleted from a row; all that changes is how many they were. -/
theorem run_eq_run_spare (h : d.Mirrored) (chosen : Nat → Bool) (i : Nat) (frames : List Frame) :
    d.run (frames.map .frame) =
      (d.run ((d.spare chosen i frames).map .frame)).addDropped
        (frames.length - (d.spare chosen i frames).length) := by
  induction frames generalizing d i with
  | nil => rfl
  | cons frame frames ih =>
    have hrest := ih (h.of_follows (d.follows_handleFrame frame)) (i + 1)
    have hle := (d.handleFrame frame).2.length_spare_le chosen (i + 1) frames
    unfold spare
    generalize (d.handleFrame frame).2.spare chosen (i + 1) frames = rest at hrest hle ⊢
    dsimp only
    split
    next hc =>
      have hd := handleFrame_of_drops h (Bool.and_eq_true_iff.mp hc).2
      have hlen : 1 + (frames.length - rest.length) = (frame :: frames).length - rest.length := by
        rw [List.length_cons]
        omega
      calc d.run ((frame :: frames).map .frame)
        _ = (d.handleFrame frame).2.run (frames.map .frame) := rfl
        _ = ((d.handleFrame frame).2.run (rest.map .frame)).addDropped
              (frames.length - rest.length) := hrest
        _ = ((d.run (rest.map .frame)).addDropped 1).addDropped
              (frames.length - rest.length) := by rw [hd, run_addDropped]
        _ = (d.run (rest.map .frame)).addDropped
              ((frame :: frames).length - rest.length) := by rw [addDropped_add, hlen]
    next =>
      rw [List.length_cons, List.length_cons, Nat.add_sub_add_right]
      exact hrest

/-- An event that is turned down changes nothing, so a frame that holds it can be left out. -/
structure Isolated (d : Dispatcher config) : Prop where
  dispatch : ∀ m e, (d.dispatch m).1 = .rejected e → (d.dispatch m).2 = d
  handleText : ∀ text e, (d.handleText text).1 = .rejected e → (d.handleText text).2 = d
  frames : ∀ (chosen : Nat → Bool) (frames : List Frame),
    d.run (frames.map .frame) =
      (d.run ((d.spare chosen 0 frames).map .frame)).addDropped
        (frames.length - (d.spare chosen 0 frames).length)

theorem isolated_run (config : Config) (steps : List Step) :
    ((new config).run steps).Isolated := by
  have h := mirrored_run config steps
  exact
    { dispatch := fun _ _ hr => dispatch_of_rejected h hr
      handleText := fun _ _ hr => handleText_of_rejected h hr
      frames := fun chosen frames => run_eq_run_spare h chosen 0 frames }

theorem isolated_run_without_caption :
    let stage : Stage :=
      { token := "s", caption := "c", author := "a", moderation := true, count := 0 }
    let d := (new {}).run
      [.message (.newWalletBalance { token := "w", balance := 5 }), .message (.newStage stage)]
    let again := Message.newStage { stage with caption := "" }
    Region.all.map d.regionTokens = [["w"], ["s"], ["s"], [], []] ∧
      (d.dispatch again).1 = .rejected (.view .moderations (.render "s" "stage has no caption")) ∧
      (d.dispatch again).2 = d := by
  intro stage d again
  have hrejected : (d.dispatch again).1 =
      .rejected (.view .moderations (.render "s" "stage has no caption")) := by decide +kernel
  exact ⟨by decide +kernel, hrejected, (isolated_run {} _).dispatch again _ hrejected⟩

end LiveFeed.Dispatcher
