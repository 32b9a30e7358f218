import LiveFeed.Proofs.History

namespace LiveFeed

theorem Wallet.drawn_iff (order : SortOrder) {w : Wallet} :
    (∃ node, (layout order).render w = .ok node) ↔ w.token.isEmpty = false := by
  cases h : w.token.isEmpty with
  | false => simp [layout, render, h]
  | true => simp [layout, render, h]

theorem Wallet.render_of_empty {order : SortOrder} {w : Wallet} (h : w.token.isEmpty = true) :
    (layout order).render w = .error "wallet has no address" := by
  simp [layout, render, h]

theorem Engagement.name_keepCount (e : Engagement) (known? : Option Engagement) :
    (e.keepCount known?).name = e.name := by
  cases known? <;> rfl

theorem Engagement.token_keepCount (e : Engagement) (known? : Option Engagement) :
    (e.keepCount known?).token = e.token := by
  cases known? <;> rfl

theorem Stage.token_keepCount (s : Stage) (known? : Option Stage) :
    (s.keepCount known?).token = s.token := by
  cases known? <;> rfl

namespace OrderedList

variable {R : Type} {layout : Layout R} {l : OrderedList layout} {base : String}

/--
An upsert can fail only because its record cannot be drawn, and a removal only because there is
nothing to remove.
-/
structure Sound (l : OrderedList layout) : Prop where
  upsert : ∀ r e, (l.upsert r).1.result = .error e →
    ∃ reason, layout.render r = .error reason ∧ e = .render (layout.token r) reason
  remove : ∀ token e, (l.remove token).1.result = .error e →
    token ∉ l.tokens ∧ e = .unknownToken token

theorem Mirrored.sound (h : l.Mirrored base) : l.Sound where
  upsert r e he := by
    cases hr : layout.render r with
    | error reason =>
      rw [h.upsert_of_render_error hr] at he
      obtain rfl := Except.error.inj he
      exact ⟨reason, rfl, rfl⟩
    | ok node =>
      rw [h.upsert_of_render_ok hr] at he
      cases he
  remove token e he := by
    by_cases ht : token ∈ l.tokens
    · obtain ⟨before, old, after, hs, rfl⟩ := exists_split ht
      obtain ⟨l', hl, -⟩ := h.remove_of_mem hs
      rw [hl] at he
      cases he
    · rw [remove_of_not_mem ht] at he
      exact ⟨ht, (Except.error.inj he).symm⟩

/-- What comes of an upsert is told by its record alone. -/
theorem Mirrored.ofView_upsert (h : l.Mirrored base) (region : Region) (r : R)
    (e : DispatchError) :
    Outcome.ofView region (l.upsert r).1.result = .rejected e ↔
      ∃ reason, layout.render r = .error reason ∧
        e = .view region (.render (layout.token r) reason) := by
  cases hr : layout.render r with
  | error reason =>
    rw [h.upsert_of_render_error hr]
    simp [Outcome.ofView, eq_comm]
  | ok node =>
    rw [h.upsert_of_render_ok hr]
    simp [Outcome.ofView]

end OrderedList

namespace Dispatcher

variable {config : Config} {d : Dispatcher config} {e : DispatchError}

/-- Why an event is turned down: it cannot be drawn, or it names a token that nobody knows. -/
inductive Refuses (d : Dispatcher config) : Message → DispatchError → Prop
  | namelessWallet {w : Wallet} (h : w.token = "") :
      Refuses d (.newWalletBalance w)
        (.view .wallets (.render w.token "wallet has no address"))
  | unknownWallet {token : String} (h : token ∉ d.wallets.tokens) :
      Refuses d (.walletRemoved token) (.view .wallets (.unknownToken token))
  /-- A moderated stage is put into the queue before it is listed. -/
  | namelessStage {s : Stage} (h : s.caption = "") :
      Refuses d (.newStage s)
        (.view (if s.moderation then .moderations else .stages)
          (.render s.token "stage has no caption"))
  | namelessEngagement {g : Engagement} (h : g.name = "") :
      Refuses d (.stageEngaged g)
        (.view .engagements (.render g.token "engagement has no name"))
  | unknownStage {token : String} (hopen : d.openStage ≠ some token)
      (hstages : token ∉ d.stages.tokens) (hmoderations : token ∉ d.moderations.tokens)
      (hengagements : token ∉ d.engagements.tokens) :
      Refuses d (.stageClosed token) (.unknownToken token)

theorem announceWallet_eq_rejected (h : d.Mirrored) {w : Wallet} :
    (d.announceWallet w).1 = .rejected e ↔ d.Refuses (.newWalletBalance w) e := by
  have hview := h.wallets.ofView_upsert .wallets w e
  refine Iff.trans hview ?_
  constructor
  · rintro ⟨reason, hr, rfl⟩
    cases hw : w.token.isEmpty with
    | false =>
      obtain ⟨node, hn⟩ := (Wallet.drawn_iff config.views.walletOrder).mpr hw
      rw [hn] at hr
      cases hr
    | true =>
      rw [Wallet.render_of_empty hw] at hr
      obtain rfl := Except.error.inj hr
      exact .namelessWallet (String.isEmpty_iff.mp hw)
  · intro hrefused
    cases hrefused with
    | namelessWallet hw => exact ⟨_, Wallet.render_of_empty (String.isEmpty_iff.mpr hw), rfl⟩

theorem removeWallet_eq_rejected (h : d.Mirrored) {token : String} :
    (d.removeWallet token).1 = .rejected e ↔ d.Refuses (.walletRemoved token) e := by
  by_cases ht : token ∈ d.wallets.tokens
  · obtain ⟨before, old, after, hs, rfl⟩ := OrderedList.exists_split ht
    obtain ⟨l', hl, -⟩ := h.wallets.remove_of_mem hs
    constructor
    · intro hr
      simp [removeWallet, hl, Outcome.ofView] at hr
    · intro hrefused
      cases hrefused with
      | unknownWallet hunknown => exact absurd ht hunknown
  · have hr : (d.removeWallet token).1 = .rejected (.view .wallets (.unknownToken token)) := by
      simp only [removeWallet, OrderedList.remove_of_not_mem ht, Outcome.ofView]
    rw [hr]
    constructor
    · intro he
      obtain rfl := Outcome.rejected.inj he
      exact .unknownWallet ht
    · rintro ⟨-⟩
      rfl

/-- A stage without a caption is turned down by the first list that it comes to. -/
theorem announceStage_of_empty (h : d.Mirrored) {s : Stage} (hs : s.caption.isEmpty = true) :
    (d.announceStage s).1 = .rejected
      (.view (if s.moderation then .moderations else .stages)
        (.render s.token "stage has no caption")) := by
  have hlisted := h.stages.upsert_of_render_error (Stage.render_of_empty hs)
  have hunlisted : (d.queueStage s).2.stages = d.stages :=
    (congrArg Dispatcher.stages (d.queueStage_snd s) :)
  cases hm : s.moderation with
  | false =>
    have hqueued : d.queueStage s = (.applied, d) := by simp [queueStage, hm]
    simp only [announceStage, hqueued, hlisted]
    rfl
  | true =>
    have hcaption : (s.keepCount (d.moderations.get? s.token)).caption.isEmpty = true := by
      rw [Stage.caption_keepCount]
      exact hs
    have hrefused := h.moderations.upsert_of_render_error (Stage.render_of_empty hcaption)
    have hqueued : (d.queueStage s).1 = .rejected
        (.view .moderations (.render s.token "stage has no caption")) := by
      have htoken : Stage.layout.token (s.keepCount (d.moderations.get? s.token)) = s.token :=
        s.token_keepCount _
      simp only [queueStage, hm, if_true, hrefused, htoken, Outcome.ofView]
    simp only [announceStage, hqueued]
    rfl

theorem announceStage_of_caption (h : d.Mirrored) {s : Stage} (hs : s.caption.isEmpty = false) :
    (d.announceStage s).1 = .applied := by
  have hqueued := h.of_follows (d.follows_queueStage s)
  obtain ⟨node, hn⟩ := Stage.drawn_iff.mpr hs
  have hlisted := hqueued.stages.upsert_of_render_ok hn
  simp only [announceStage, queueStage_of_caption h hs, hlisted]
  rfl

theorem announceStage_eq_rejected (h : d.Mirrored) {s : Stage} :
    (d.announceStage s).1 = .rejected e ↔ d.Refuses (.newStage s) e := by
  cases hs : s.caption.isEmpty with
  | true =>
    rw [announceStage_of_empty h hs]
    constructor
    · intro he
      obtain rfl := Outcome.rejected.inj he
      exact .namelessStage (String.isEmpty_iff.mp hs)
    · rintro ⟨-⟩
      rfl
  | false =>
    rw [announceStage_of_caption h hs]
    constructor
    · intro he
      cases he
    · intro hrefused
      cases hrefused with
      | namelessStage hcaption =>
        rw [← String.isEmpty_iff, hs] at hcaption
        cases hcaption

theorem engage_eq_rejected (h : d.Mirrored) {g : Engagement} :
    (d.engage g).1 = .rejected e ↔ d.Refuses (.stageEngaged g) e := by
  have hview := h.engagements.ofView_upsert .engagements
    (g.keepCount (d.engagements.get? g.token)) e
  have htoken : Engagement.layout.token (g.keepCount (d.engagements.get? g.token)) = g.token :=
    g.token_keepCount _
  rw [htoken] at hview
  refine Iff.trans hview ?_
  constructor
  · rintro ⟨reason, hr, rfl⟩
    cases hg : g.name.isEmpty with
    | false =>
      obtain ⟨node, hn⟩ := Engagement.drawn_iff.mpr ((congrArg String.isEmpty
        (g.name_keepCount (d.engagements.get? g.token))).trans hg)
      rw [hn] at hr
      cases hr
    | true =>
      rw [Engagement.render_of_empty (by rwa [g.name_keepCount])] at hr
      obtain rfl := Except.error.inj hr
      exact .namelessEngagement (String.isEmpty_iff.mp hg)
  · intro hrefused
    cases hrefused with
    | namelessEngagement hg =>
      refine ⟨_, Engagement.render_of_empty ?_, rfl⟩
      rw [g.name_keepCount]
      exact String.isEmpty_iff.mpr hg

theorem closeStage_eq_rejected (h : d.Mirrored) {token : String} :
    (d.closeStage token).1 = .rejected e ↔ d.Refuses (.stageClosed token) e := by
  rw [closeStage_fst h]
  split
  next hknown =>
    constructor
    · intro he
      cases he
    · intro hrefused
      cases hrefused with
      | unknownStage hopen hstages hmoderations hengagements =>
        rcases hknown with hknown | hknown | hknown | hknown
        · exact absurd hknown hopen
        · exact absurd hknown hstages
        · exact absurd hknown hmoderations
        · exact absurd hknown hengagements
  next hunknown =>
    simp only [not_or] at hunknown
    obtain ⟨hopen, hstages, hmoderations, hengagements⟩ := hunknown
    constructor
    · intro he
      obtain rfl := Outcome.rejected.inj he
      exact .unknownStage hopen hstages hmoderations hengagements
    · rintro ⟨⟩
      rfl

theorem dispatch_eq_rejected (h : d.Mirrored) {m : Message} :
    (d.dispatch m).1 = .rejected e ↔ d.Refuses m e := by
  cases m with
  | newWalletBalance wallet => exact announceWallet_eq_rejected h
  | walletRemoved token => exact removeWallet_eq_rejected h
  | newStage stage => exact announceStage_eq_rejected h
  | stageEngaged engagement => exact engage_eq_rejected h
  | newStagePost stage post =>
    constructor
    · intro he
      exact absurd he (publish_ne_rejected h stage post e)
    · rintro ⟨⟩
  | stageClosed token => exact closeStage_eq_rejected h
  | openStage token =>
    constructor
    · intro he
      cases he
    · rintro ⟨⟩

/-- A step is turned down because its text is no event, or because its event is refused. -/
theorem refuses_of_outcome? (h : d.Mirrored) {s : Step} (hs : d.outcome? s = some (.rejected e)) :
    (∃ error, e = .decode error) ∨ ∃ m, s.message? = some m ∧ d.Refuses m e := by
  cases hm : s.message? with
  | some m =>
    rw [outcome?_of_message hm] at hs
    exact Or.inr ⟨m, rfl, (dispatch_eq_rejected h).mp (Option.some.inj hs)⟩
  | none =>
    have decoded {content : String} (hnone : (Message.decode content).toOption = none)
        (ht : (d.handleText content).1 = .rejected e) : ∃ error, e = .decode error := by
      cases hd : Message.decode content with
      | ok m =>
        rw [hd] at hnone
        cases hnone
      | error error =>
        simp only [handleText, hd] at ht
        exact ⟨error, (Outcome.rejected.inj ht).symm⟩
    left
    cases s with
    | frame f =>
      cases f with
      | opened => cases hs
      | text content => exact decoded hm (Option.some.inj hs)
      | closed reason => cases hs
      | failed error => cases hs
    | text content => exact decoded hm (Option.some.inj hs)
    | message m => cases hm
    | reset => cases hs

/-- What can go wrong with an event, and that nothing else can. -/
structure Refusals (d : Dispatcher config) : Prop where
  rejected_iff : ∀ m e, (d.dispatch m).1 = .rejected e ↔ d.Refuses m e
  /-- No step fails because a token is there already or a child is gone. -/
  view_error : ∀ s region error, d.outcome? s = some (.rejected (.view region error)) →
    (∀ token, error ≠ .duplicateToken token) ∧ ∀ key, error ≠ .missingMountNode key
  wallets : d.wallets.Sound
  stages : d.stages.Sound
  moderations : d.moderations.Sound
  engagements : d.engagements.Sound
  posts : d.posts.Sound

/-- Whatever steps a dispatcher went through, it turns down exactly the events it has to. -/
theorem refusals_run (config : Config) (steps : List Step) :
    ((new config).run steps).Refusals := by
  have h := mirrored_run config steps
  refine ⟨fun m e => dispatch_eq_rejected h, ?_, h.wallets.sound, h.stages.sound,
    h.moderations.sound, h.engagements.sound, h.posts.sound⟩
  intro s region error hs
  rcases refuses_of_outcome? h hs with ⟨decoding, he⟩ | ⟨m, -, hrefused⟩
  · cases he
  · constructor
    · rintro token rfl
      cases hrefused
    · rintro key rfl
      cases hrefused

end Dispatcher

end LiveFeed
