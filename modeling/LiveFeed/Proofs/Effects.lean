import LiveFeed.Dispatcher

namespace LiveFeed.Dispatcher

variable {config : Config} {d : Dispatcher config}

/-- An announced stage comes to the queue, if at all, and to the list of stages. -/
theorem queueStage_snd (d : Dispatcher config) (s : Stage) :
    (d.queueStage s).2 = { d with moderations := (d.queueStage s).2.moderations } := by
  unfold queueStage
  split
  next => rfl
  next => rfl

theorem announceStage_snd (d : Dispatcher config) (s : Stage) :
    (d.announceStage s).2 =
      { d with
        stages := (d.stages.upsert s).2
        moderations := (d.queueStage s).2.moderations } := by
  have hstage : (d.announceStage s).2 =
      { (d.queueStage s).2 with stages := ((d.queueStage s).2.stages.upsert s).2 } := rfl
  rw [hstage, queueStage_snd]

theorem showPost_snd (d : Dispatcher config) (stage : String) (post : Post) :
    (d.showPost stage post).2 =
      { d with
        posts := if d.openStage = some stage then (d.posts.upsert post).2 else d.posts } := by
  by_cases ho : d.openStage = some stage
  · rw [showPost, if_pos ho, if_pos ho]
  · rw [showPost, if_neg ho, if_neg ho]

/-- A full counter in the queue ends a post before it is shown. -/
theorem publish_of_full {stage : String} (post : Post)
    (h : (d.moderations.bump .moderations stage Stage.grow).1 = .overflowed) :
    d.publish stage post = (.overflowed,
      { d with moderations := (d.moderations.bump .moderations stage Stage.grow).2 }) := by
  simp only [publish, h, if_true]

theorem publish_of_room {stage : String} (post : Post)
    (h : (d.moderations.bump .moderations stage Stage.grow).1 ≠ .overflowed) :
    (d.publish stage post).2 =
      { d with
        moderations := (d.moderations.bump .moderations stage Stage.grow).2
        posts := if d.openStage = some stage then (d.posts.upsert post).2 else d.posts
        engagements := (d.engagements.bump .engagements stage Engagement.grow).2 } := by
  simp only [publish, if_neg h, showPost_snd]
  split
  next => rfl
  next => rfl

/-- A post leaves all but three lists as they are, and the queue counts it in any case. -/
theorem publish_snd (d : Dispatcher config) (stage : String) (post : Post) :
    (d.publish stage post).2 =
      { d with
        moderations := (d.moderations.bump .moderations stage Stage.grow).2
        posts := (d.publish stage post).2.posts
        engagements := (d.publish stage post).2.engagements } := by
  by_cases h : (d.moderations.bump .moderations stage Stage.grow).1 = .overflowed
  · rw [publish_of_full post h]
  · rw [publish_of_room post h]

theorem closeStage_snd (d : Dispatcher config) (token : String) :
    (d.closeStage token).2 =
      { d with
        stages := (d.stages.removeIfPresent token).2
        moderations := (d.moderations.removeIfPresent token).2
        engagements := (d.engagements.removeIfPresent token).2
        posts := if d.openStage = some token then d.posts.reset else d.posts
        openStage := if d.openStage = some token then none else d.openStage } := by
  by_cases ho : d.openStage = some token
  · simp only [closeStage, ho, if_true]
  · simp only [closeStage, ho, if_false]

end LiveFeed.Dispatcher
