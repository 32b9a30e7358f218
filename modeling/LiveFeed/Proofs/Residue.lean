import LiveFeed.Proofs.Alike
import LiveFeed.Proofs.Statistics

namespace LiveFeed.Dispatcher

variable {config : Config} {d d' : Dispatcher config}

/-- Two dispatchers whose lists hold the same records; handles and counters may differ. -/
structure Alike (d d' : Dispatcher config) : Prop where
  wallets : d.wallets.Alike .wallets d'.wallets
  stages : d.stages.Alike .stages d'.stages
  moderations : d.moderations.Alike .moderations d'.moderations
  engagements : d.engagements.Alike .engagements d'.engagements
  posts : d.posts.Alike .posts d'.posts
  openStage : d.openStage = d'.openStage

namespace Alike

theorem announceWallet (h : d.Alike d') (w : Wallet) :
    Concur Alike (d.announceWallet w) (d'.announceWallet w) := by
  have hwallets := h.wallets.upsert w
  exact ⟨hwallets.ofView, { h with wallets := hwallets.alike }⟩

theorem removeWallet (h : d.Alike d') (token : String) :
    Concur Alike (d.removeWallet token) (d'.removeWallet token) := by
  have hwallets := h.wallets.remove token
  exact ⟨hwallets.ofView, { h with wallets := hwallets.alike }⟩

theorem queueStage (h : d.Alike d') (s : Stage) :
    Concur Alike (d.queueStage s) (d'.queueStage s) := by
  unfold Dispatcher.queueStage
  split
  next =>
    rw [h.moderations.get?]
    have hmoderations := h.moderations.upsert (s.keepCount (d'.moderations.get? s.token))
    exact ⟨hmoderations.ofView, { h with moderations := hmoderations.alike }⟩
  next => exact ⟨rfl, h⟩

theorem announceStage (h : d.Alike d') (s : Stage) :
    Concur Alike (d.announceStage s) (d'.announceStage s) := by
  obtain ⟨hqueued, hrest⟩ := h.queueStage s
  have hstages := hrest.stages.upsert s
  exact ⟨congrArg₂ Outcome.both hqueued hstages.ofView, { hrest with stages := hstages.alike }⟩

theorem engage (h : d.Alike d') (e : Engagement) : Concur Alike (d.engage e) (d'.engage e) := by
  rw [Dispatcher.engage, h.engagements.get?]
  have hengagements := h.engagements.upsert (e.keepCount (d'.engagements.get? e.token))
  exact ⟨hengagements.ofView, { h with engagements := hengagements.alike }⟩

theorem showPost (h : d.Alike d') (stage : String) (post : Post) :
    Concur Alike (d.showPost stage post) (d'.showPost stage post) := by
  have hopen := h.openStage
  by_cases ho : d.openStage = some stage
  · rw [Dispatcher.showPost, Dispatcher.showPost, if_pos ho, if_pos (hopen ▸ ho)]
    have hposts := h.posts.upsert post
    exact ⟨hposts.ofView, { h with posts := hposts.alike }⟩
  · rw [Dispatcher.showPost, Dispatcher.showPost, if_neg ho, if_neg (hopen ▸ ho)]
    exact ⟨rfl, h⟩

theorem publish (h : d.Alike d') (stage : String) (post : Post) :
    Concur Alike (d.publish stage post) (d'.publish stage post) := by
  have hmoderations := h.moderations.bump stage Stage.grow
  have hcounted : Alike
      { d with moderations := (d.moderations.bump .moderations stage Stage.grow).2 }
      { d' with moderations := (d'.moderations.bump .moderations stage Stage.grow).2 } :=
    { h with moderations := hmoderations.alike }
  have hposts := hcounted.showPost stage post
  have hengagements := hposts.alike.engagements.bump stage Engagement.grow
  simp only [Dispatcher.publish, hmoderations.answer, hposts.answer, hengagements.answer]
  split
  next => exact ⟨rfl, hcounted⟩
  next =>
    split
    next => exact ⟨rfl, { hposts.alike with engagements := hengagements.alike }⟩
    next => exact ⟨rfl, { hposts.alike with engagements := hengagements.alike }⟩

theorem closeStage (h : d.Alike d') (token : String) :
    Concur Alike (d.closeStage token) (d'.closeStage token) := by
  have hstages := h.stages.removeIfPresent token
  have hmoderations := h.moderations.removeIfPresent token
  have hengagements := h.engagements.removeIfPresent token
  simp only [Dispatcher.closeStage, hstages.answer, hmoderations.answer, hengagements.answer,
    h.openStage]
  refine ⟨rfl, ?_⟩
  by_cases ho : d'.openStage = some token
  · simp only [ho, if_true]
    exact
      { wallets := h.wallets
        stages := hstages.alike
        moderations := hmoderations.alike
        engagements := hengagements.alike
        posts := h.posts.reset
        openStage := rfl }
  · simp only [ho, if_false]
    exact
      { h with
        stages := hstages.alike
        moderations := hmoderations.alike
        engagements := hengagements.alike
        openStage := rfl }

theorem openMainView (h : d.Alike d') (token : String) :
    Concur Alike (d.openMainView token) (d'.openMainView token) :=
  ⟨rfl, { h with posts := h.posts.reset, openStage := rfl }⟩

theorem dispatch (h : d.Alike d') (m : Message) :
    Concur Alike (d.dispatch m) (d'.dispatch m) := by
  cases m with
  | newWalletBalance wallet => exact h.announceWallet wallet
  | walletRemoved token => exact h.removeWallet token
  | newStage stage => exact h.announceStage stage
  | stageEngaged engagement => exact h.engage engagement
  | newStagePost stage post => exact h.publish stage post
  | stageClosed token => exact h.closeStage token
  | openStage token => exact h.openMainView token

theorem handleText (h : d.Alike d') (content : String) :
    Concur Alike (d.handleText content) (d'.handleText content) := by
  unfold Dispatcher.handleText
  split
  next m _ => exact h.dispatch m
  next => exact ⟨rfl, h⟩

theorem reset (h : d.Alike d') : d.reset.Alike d'.reset where
  wallets := h.wallets.reset
  stages := h.stages.reset
  moderations := h.moderations.reset
  engagements := h.engagements.reset
  posts := h.posts.reset
  openStage := h.openStage

/-- Counters have no part in what is alike. -/
theorem withStatistics (h : d.Alike d') (s s' : Statistics) :
    (d.withStatistics s).Alike (d'.withStatistics s') :=
  { h with }

theorem after (h : d.Alike d') (s : Step) : (d.after s).Alike (d'.after s) := by
  unfold Dispatcher.after
  split
  next => exact h.reset
  next =>
    split
    next m _ => exact (h.dispatch m).alike
    next => exact h

theorem step (h : d.Alike d') (s : Step) : (d.step s).Alike (d'.step s) := by
  obtain ⟨counters, hstep⟩ := d.step_eq s
  obtain ⟨counters', hstep'⟩ := d'.step_eq s
  rw [hstep, hstep']
  exact (h.after s).withStatistics counters counters'

theorem outcome? (h : d.Alike d') (s : Step) : d.outcome? s = d'.outcome? s := by
  cases s with
  | frame f =>
    cases f with
    | opened => rfl
    | text content => exact congrArg some (h.handleText content).answer
    | closed reason => rfl
    | failed error => rfl
  | text content => exact congrArg some (h.handleText content).answer
  | message m => exact congrArg some (h.dispatch m).answer
  | reset => rfl

theorem textOutcome? (h : d.Alike d') (s : Step) : d.textOutcome? s = d'.textOutcome? s := by
  cases s with
  | frame f =>
    cases f with
    | text content => exact congrArg some (h.handleText content).answer
    | _ => rfl
  | _ => rfl

theorem run (h : d.Alike d') (steps : List Step) : (d.run steps).Alike (d'.run steps) := by
  induction steps generalizing d d' with
  | nil => exact h
  | cons s steps ih => exact ih (h.step s)

theorem results (h : d.Alike d') (steps : List Step) : d.results steps = d'.results steps := by
  induction steps generalizing d d' with
  | nil => rfl
  | cons s steps ih => exact congrArg₂ List.cons (h.outcome? s) (ih (h.step s))

theorem textOutcomes (h : d.Alike d') (steps : List Step) :
    d.textOutcomes steps = d'.textOutcomes steps := by
  induction steps generalizing d d' with
  | nil => rfl
  | cons s steps ih =>
    exact congrArg₂ (·.toList ++ ·) (h.textOutcome? s) (ih (h.step s))

/-- Dispatchers that are alike stay apart by what their counters are apart. -/
theorem statistics (h : d.Alike d') (steps : List Step) :
    ∃ added, (d.run steps).statistics = d.statistics + added ∧
      (d'.run steps).statistics = d'.statistics + added := by
  refine ⟨_, d.statistics_run steps, ?_⟩
  rw [h.textOutcomes]
  exact d'.statistics_run steps

end Alike

/-- Nothing that a page shows, and no record behind it, tells two dispatchers apart. -/
structure SameViews (d d' : Dispatcher config) : Prop where
  wallets : d.wallets.records = d'.wallets.records
  stages : d.stages.records = d'.stages.records
  moderations : d.moderations.records = d'.moderations.records
  engagements : d.engagements.records = d'.engagements.records
  posts : d.posts.records = d'.posts.records
  tokens : ∀ region, d.regionTokens region = d'.regionTokens region
  html : ∀ region, d.regionHtml region = d'.regionHtml region
  openStage : d.openStage = d'.openStage

theorem Alike.sameViews (h : d.Alike d') : d.SameViews d' where
  wallets := h.wallets.records
  stages := h.stages.records
  moderations := h.moderations.records
  engagements := h.engagements.records
  posts := h.posts.records
  tokens region := by
    cases region with
    | wallets => exact h.wallets.tokens
    | stages => exact h.stages.tokens
    | moderations => exact h.moderations.tokens
    | engagements => exact h.engagements.tokens
    | posts => exact h.posts.tokens
  html region := by
    cases region with
    | wallets => exact h.wallets.toHtml
    | stages => exact h.stages.toHtml
    | moderations => exact h.moderations.toHtml
    | engagements => exact h.engagements.toHtml
    | posts => exact h.posts.toHtml
  openStage := h.openStage

/-- A new dispatcher whose main view is turned to the stage that is open in another. -/
def anew (d : Dispatcher config) : Dispatcher config :=
  { new config with openStage := d.openStage }

theorem alike_reset (h : d.Mirrored) : d.reset.Alike d.anew where
  wallets := .of_emptied h.wallets
  stages := .of_emptied h.stages
  moderations := .of_emptied h.moderations
  engagements := .of_emptied h.engagements
  posts := .of_emptied h.posts
  openStage := rfl

/-- A dispatcher that was emptied, as asked or when the connection was lost, is like a new one. -/
theorem alike_emptied (h : d.Mirrored) {s : Step} (hs : s.empties config = true) :
    (d.step s).Alike d.anew := by
  obtain ⟨counters, hstep⟩ := d.step_eq s
  rw [hstep, after_of_empties hs]
  exact (alike_reset h).withStatistics counters d.anew.statistics

/--
Whatever follows after a dispatcher was emptied comes to what it comes to with a new one on which
the same stage is open. Only the counters go on from where they were.
-/
theorem emptied_run (config : Config) (steps : List Step) {s : Step}
    (hs : s.empties config = true) (later : List Step) :
    let d := (new config).run steps
    (d.step s).results later = d.anew.results later ∧
      ((d.step s).run later).SameViews (d.anew.run later) ∧
      ((d.step s).run later).statistics =
        (d.step s).statistics + (d.anew.run later).statistics := by
  intro d
  have halike := alike_emptied (mirrored_run config steps) hs
  obtain ⟨added, hstatistics, hanew⟩ := halike.statistics later
  refine ⟨halike.results later, (halike.run later).sameViews, ?_⟩
  rw [hstatistics, hanew]
  exact congrArg _ (Statistics.zero_add added).symm

theorem emptied_run_lost :
    let steps := [Step.message (.openStage "s"),
      .message (.newWalletBalance { token := "w", balance := 1 })]
    let later := [Step.message (.walletRemoved "w"),
      .message (.newWalletBalance { token := "w", balance := 2 })]
    let d := (new {}).run steps
    Step.empties {} (.frame (.failed "lost")) = true ∧
      (d.step (.frame (.failed "lost"))).results later = d.anew.results later ∧
      ((d.step (.frame (.failed "lost"))).run later).SameViews (d.anew.run later) ∧
      ((d.step (.frame (.failed "lost"))).run later).statistics =
        (d.step (.frame (.failed "lost"))).statistics + (d.anew.run later).statistics :=
  ⟨rfl, emptied_run {} _ rfl _⟩

end LiveFeed.Dispatcher
