import LiveFeed.Proofs.Effects
import LiveFeed.Proofs.Runs

namespace LiveFeed

/-- What a dispatcher may be asked for. -/
inductive Step where
  | frame (frame : Frame)
  | text (text : String)
  | message (m : Message)
  | reset
  deriving DecidableEq, Repr

namespace OrderedList

variable {R : Type} {layout : Layout R}

/-- The second list comes from the first by operations alone. -/
def Follows (l l' : OrderedList layout) : Prop := ∃ ops, l' = l.run ops

theorem follows_refl (l : OrderedList layout) : l.Follows l := ⟨[], rfl⟩

theorem follows_apply (l : OrderedList layout) (op : Operation R) : l.Follows (l.apply op) :=
  ⟨[op], rfl⟩

theorem Follows.trans {l l' l'' : OrderedList layout} (h : l.Follows l') (h' : l'.Follows l'') :
    l.Follows l'' := by
  obtain ⟨ops, rfl⟩ := h
  obtain ⟨ops', rfl⟩ := h'
  exact ⟨ops ++ ops', (List.foldl_append ..).symm⟩

theorem follows_upsert (l : OrderedList layout) (r : R) : l.Follows (l.upsert r).2 := by
  unfold upsert
  split
  next => exact l.follows_apply (.update r)
  next => exact l.follows_apply (.insert r)

theorem follows_bump (l : OrderedList layout) (region : Region) (token : String)
    (grow : R → Option R) : l.Follows (l.bump region token grow).2 := by
  unfold bump
  split
  next => exact l.follows_refl
  next =>
    split
    next => exact l.follows_refl
    next r _ => exact l.follows_apply (.update r)

theorem follows_removeIfPresent (l : OrderedList layout) (token : String) :
    l.Follows (l.removeIfPresent token).2 := by
  unfold removeIfPresent
  split
  next => exact l.follows_apply (.remove token)
  next => exact l.follows_refl

end OrderedList

namespace Dispatcher

variable {config : Config}

/-- The dispatcher after a step, whatever came of it. -/
def step (d : Dispatcher config) : Step → Dispatcher config
  | .frame frame => (d.handleFrame frame).2
  | .text text => (d.handleText text).2
  | .message m => (d.dispatch m).2
  | .reset => d.reset

def run (d : Dispatcher config) (steps : List Step) : Dispatcher config := steps.foldl step d

/-- Every list of the second dispatcher comes from that of the first by list operations. -/
structure Follows (d d' : Dispatcher config) : Prop where
  wallets : d.wallets.Follows d'.wallets
  stages : d.stages.Follows d'.stages
  moderations : d.moderations.Follows d'.moderations
  engagements : d.engagements.Follows d'.engagements
  posts : d.posts.Follows d'.posts

theorem follows_refl (d : Dispatcher config) : d.Follows d :=
  ⟨⟨[], rfl⟩, ⟨[], rfl⟩, ⟨[], rfl⟩, ⟨[], rfl⟩, ⟨[], rfl⟩⟩

theorem Follows.trans {d d' d'' : Dispatcher config} (h : d.Follows d') (h' : d'.Follows d'') :
    d.Follows d'' where
  wallets := h.wallets.trans h'.wallets
  stages := h.stages.trans h'.stages
  moderations := h.moderations.trans h'.moderations
  engagements := h.engagements.trans h'.engagements
  posts := h.posts.trans h'.posts

theorem follows_reset (d : Dispatcher config) : d.Follows d.reset :=
  ⟨⟨[.reset], rfl⟩, ⟨[.reset], rfl⟩, ⟨[.reset], rfl⟩, ⟨[.reset], rfl⟩, ⟨[.reset], rfl⟩⟩

theorem follows_announceWallet (d : Dispatcher config) (w : Wallet) :
    d.Follows (d.announceWallet w).2 :=
  { d.follows_refl with wallets := d.wallets.follows_upsert w }

theorem follows_removeWallet (d : Dispatcher config) (token : String) :
    d.Follows (d.removeWallet token).2 :=
  { d.follows_refl with wallets := d.wallets.follows_apply (.remove token) }

theorem follows_queueStage (d : Dispatcher config) (s : Stage) : d.Follows (d.queueStage s).2 := by
  unfold queueStage
  split
  next => exact { d.follows_refl with moderations := d.moderations.follows_upsert _ }
  next => exact d.follows_refl

theorem follows_announceStage (d : Dispatcher config) (s : Stage) :
    d.Follows (d.announceStage s).2 :=
  let queued := (d.queueStage s).2
  (d.follows_queueStage s).trans
    { queued.follows_refl with stages := queued.stages.follows_upsert s }

theorem follows_engage (d : Dispatcher config) (e : Engagement) : d.Follows (d.engage e).2 :=
  { d.follows_refl with engagements := d.engagements.follows_upsert _ }

theorem follows_showPost (d : Dispatcher config) (stage : String) (post : Post) :
    d.Follows (d.showPost stage post).2 := by
  unfold showPost
  split
  next => exact { d.follows_refl with posts := d.posts.follows_upsert post }
  next => exact d.follows_refl

theorem follows_bumpModeration (d : Dispatcher config) (token : String) : d.Follows
    { d with moderations := (d.moderations.bump .moderations token Stage.grow).2 } :=
  { d.follows_refl with moderations := d.moderations.follows_bump .moderations token _ }

theorem follows_bumpEngagement (d : Dispatcher config) (token : String) : d.Follows
    { d with engagements := (d.engagements.bump .engagements token Engagement.grow).2 } :=
  { d.follows_refl with engagements := d.engagements.follows_bump .engagements token _ }

theorem follows_publish (d : Dispatcher config) (stage : String) (post : Post) :
    d.Follows (d.publish stage post).2 := by
  unfold publish
  have counted := d.follows_bumpModeration stage
  dsimp only
  split
  next => exact counted
  next =>
    have posted := counted.trans (follows_showPost _ stage post)
    have engaged := posted.trans (follows_bumpEngagement _ stage)
    split
    next => exact engaged
    next => exact engaged

theorem follows_closeStage (d : Dispatcher config) (token : String) :
    d.Follows (d.closeStage token).2 := by
  have removed : d.Follows
      { d with
        stages := (d.stages.removeIfPresent token).2
        moderations := (d.moderations.removeIfPresent token).2
        engagements := (d.engagements.removeIfPresent token).2 } :=
    { d.follows_refl with
      stages := d.stages.follows_removeIfPresent token
      moderations := d.moderations.follows_removeIfPresent token
      engagements := d.engagements.follows_removeIfPresent token }
  rw [closeStage_snd]
  split
  next => exact { removed with posts := d.posts.follows_apply .reset }
  next => exact removed

theorem follows_dispatch (d : Dispatcher config) (m : Message) : d.Follows (d.dispatch m).2 := by
  cases m with
  | newWalletBalance wallet => exact d.follows_announceWallet wallet
  | walletRemoved token => exact d.follows_removeWallet token
  | newStage stage => exact d.follows_announceStage stage
  | stageEngaged engagement => exact d.follows_engage engagement
  | newStagePost stage post => exact d.follows_publish stage post
  | stageClosed token => exact d.follows_closeStage token
  | openStage token => exact { d.follows_refl with posts := d.posts.follows_apply .reset }

theorem follows_handleText (d : Dispatcher config) (text : String) :
    d.Follows (d.handleText text).2 := by
  unfold handleText
  split
  next m _ => exact d.follows_dispatch m
  next => exact d.follows_refl

theorem follows_disconnected (d : Dispatcher config) : d.Follows d.disconnected := by
  unfold disconnected
  split
  next => exact { d.follows_reset with }
  next => exact d.follows_refl

theorem follows_count (d : Dispatcher config) (outcome : Outcome) :
    d.Follows (d.count outcome) := by
  cases outcome with
  | applied => exact { d.follows_refl with }
  | rejected e => exact { d.follows_refl with }
  | overflowed => exact d.follows_refl

theorem follows_handleFrame (d : Dispatcher config) (frame : Frame) :
    d.Follows (d.handleFrame frame).2 := by
  cases frame with
  | opened => exact d.follows_refl
  | text text => exact (d.follows_handleText text).trans (follows_count _ _)
  | closed reason => exact d.follows_disconnected
  | failed error => exact d.follows_disconnected

theorem follows_step (d : Dispatcher config) (s : Step) : d.Follows (d.step s) := by
  cases s with
  | frame frame => exact d.follows_handleFrame frame
  | text text => exact d.follows_handleText text
  | message m => exact d.follows_dispatch m
  | reset => exact d.follows_reset

theorem follows_run (d : Dispatcher config) (steps : List Step) : d.Follows (d.run steps) := by
  induction steps generalizing d with
  | nil => exact d.follows_refl
  | cons s steps ih => exact (d.follows_step s).trans (ih (d.step s))

end Dispatcher

end LiveFeed
