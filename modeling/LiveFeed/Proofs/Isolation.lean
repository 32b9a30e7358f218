import LiveFeed.Proofs.Upserts
import LiveFeed.Proofs.Views

namespace LiveFeed

theorem Stage.render_of_empty {s : Stage} (h : s.caption.isEmpty = true) :
    layout.render s = .error "stage has no caption" := by
  simp [layout, render, h]

theorem Stage.drawn_iff {s : Stage} :
    (∃ node, layout.render s = .ok node) ↔ s.caption.isEmpty = false := by
  cases h : s.caption.isEmpty with
  | false => simp [layout, render, h]
  | true => simp [layout, render, h]

theorem Engagement.render_of_empty {e : Engagement} (h : e.name.isEmpty = true) :
    layout.render e = .error "engagement has no name" := by
  simp [layout, render, h]

theorem Engagement.drawn_iff {e : Engagement} :
    (∃ node, layout.render e = .ok node) ↔ e.name.isEmpty = false := by
  cases h : e.name.isEmpty with
  | false => simp [layout, render, h]
  | true => simp [layout, render, h]

theorem Stage.drawn_of_grow (s s' : Stage) (h : s.grow = some s') :
    layout.token s' = layout.token s ∧
      ((∃ node, layout.render s = .ok node) → ∃ node, layout.render s' = .ok node) := by
  obtain ⟨count, -, rfl⟩ := Option.map_eq_some_iff.mp h
  exact ⟨rfl, fun hn => drawn_iff.mpr (drawn_iff.mp hn :)⟩

theorem Engagement.drawn_of_grow (e e' : Engagement) (h : e.grow = some e') :
    layout.token e' = layout.token e ∧
      ((∃ node, layout.render e = .ok node) → ∃ node, layout.render e' = .ok node) := by
  obtain ⟨count, -, rfl⟩ := Option.map_eq_some_iff.mp h
  exact ⟨rfl, fun hn => drawn_iff.mpr (drawn_iff.mp hn :)⟩

theorem Outcome.eq_applied {o : Outcome} (h : o ≠ .overflowed) (hr : ∀ e, o ≠ .rejected e) :
    o = .applied := by
  cases o with
  | applied => rfl
  | rejected e => exact absurd rfl (hr e)
  | overflowed => exact absurd rfl h

namespace OrderedList

theorem Mirrored.upsert_of_rejected {R : Type} {layout : Layout R} {l : OrderedList layout}
    {base : String} (h : l.Mirrored base) {r : R} {region : Region} {e : DispatchError}
    (hr : Outcome.ofView region (l.upsert r).1.result = .rejected e) : (l.upsert r).2 = l := by
  cases hn : layout.render r with
  | error reason => rw [h.upsert_of_render_error hn]
  | ok node =>
    rw [h.upsert_of_render_ok hn] at hr
    simp [Outcome.ofView] at hr

end OrderedList

namespace Dispatcher

variable {config : Config} {d : Dispatcher config} {e : DispatchError}

theorem announceWallet_of_rejected (h : d.Mirrored) {w : Wallet}
    (hr : (d.announceWallet w).1 = .rejected e) : (d.announceWallet w).2 = d := by
  have hl := h.wallets.upsert_of_rejected hr
  simp only [announceWallet, hl]

theorem engage_of_rejected (h : d.Mirrored) {engagement : Engagement}
    (hr : (d.engage engagement).1 = .rejected e) : (d.engage engagement).2 = d := by
  have hl := h.engagements.upsert_of_rejected hr
  simp only [engage, hl]

theorem removeWallet_of_rejected (h : d.Mirrored) {token : String}
    (hr : (d.removeWallet token).1 = .rejected e) : (d.removeWallet token).2 = d := by
  by_cases ht : token ∈ d.wallets.tokens
  · obtain ⟨before, old, after, hs, rfl⟩ := OrderedList.exists_split ht
    obtain ⟨l', hl, -⟩ := h.wallets.remove_of_mem hs
    simp [removeWallet, hl, Outcome.ofView] at hr
  · simp only [removeWallet, OrderedList.remove_of_not_mem ht]

theorem queueStage_of_empty (h : d.Mirrored) {s : Stage} (hs : s.caption.isEmpty = true) :
    (d.queueStage s).2 = d := by
  have hcounted : (s.keepCount (d.moderations.get? s.token)).caption.isEmpty = true := by
    rw [Stage.caption_keepCount]
    exact hs
  unfold queueStage
  split
  next => rw [h.moderations.upsert_of_render_error (Stage.render_of_empty hcounted)]
  next => rfl

theorem queueStage_of_caption (h : d.Mirrored) {s : Stage} (hs : s.caption.isEmpty = false) :
    (d.queueStage s).1 = .applied := by
  have hcounted : (s.keepCount (d.moderations.get? s.token)).caption.isEmpty = false := by
    rw [Stage.caption_keepCount]
    exact hs
  unfold queueStage
  split
  next =>
    obtain ⟨node, hn⟩ := Stage.drawn_iff.mpr hcounted
    have hok := h.moderations.upsert_of_render_ok hn
    simp only [hok, Outcome.ofView]
  next => rfl

/-- A stage without a caption fails in the queue as in the list, and another in neither. -/
theorem announceStage_of_rejected (h : d.Mirrored) {s : Stage}
    (hr : (d.announceStage s).1 = .rejected e) : (d.announceStage s).2 = d := by
  cases hs : s.caption.isEmpty with
  | true =>
    have hqueue := queueStage_of_empty h hs
    have hlist := h.stages.upsert_of_render_error (Stage.render_of_empty hs)
    simp only [announceStage, hqueue, hlist]
  | false =>
    have hqueued := h.of_follows (d.follows_queueStage s)
    obtain ⟨node, hn⟩ := Stage.drawn_iff.mpr hs
    have hok := hqueued.stages.upsert_of_render_ok hn
    simp [announceStage, queueStage_of_caption h hs, hok, Outcome.ofView, Outcome.both] at hr

theorem showPost_applied (h : d.Mirrored) (stage : String) (post : Post) :
    (d.showPost stage post).1 = .applied := by
  unfold showPost
  split
  next =>
    have hok : (d.posts.upsert post).1.result = .ok () := h.posts.upsert_of_render_ok rfl
    simp [hok, Outcome.ofView]
  next => rfl

theorem publish_ne_rejected (h : d.Mirrored) (stage : String) (post : Post) (e : DispatchError) :
    (d.publish stage post).1 ≠ .rejected e := by
  have hmoderated := h.moderations.bump_ne_rejected .moderations stage Stage.drawn_of_grow
  have hcounted := h.of_follows (d.follows_bumpModeration stage)
  have hposted := showPost_applied hcounted stage post
  have hshown := hcounted.of_follows (follows_showPost _ stage post)
  have hengaged :=
    hshown.engagements.bump_ne_rejected .engagements stage Engagement.drawn_of_grow
  unfold publish
  dsimp only
  split
  next => exact hmoderated e
  next hno =>
    split
    next => exact hengaged e
    next =>
      rw [Outcome.eq_applied hno hmoderated, hposted]
      exact hengaged e

theorem closeStage_fst (h : d.Mirrored) (token : String) :
    (d.closeStage token).1 =
      if d.openStage = some token ∨ token ∈ d.stages.tokens ∨ token ∈ d.moderations.tokens ∨
          token ∈ d.engagements.tokens then .applied
      else .rejected (.unknownToken token) := by
  simp [closeStage, h.stages.removeIfPresent_fst, h.moderations.removeIfPresent_fst,
    h.engagements.removeIfPresent_fst, Outcome.ofView, Outcome.both, Except.toOption]

theorem closeStage_of_rejected (h : d.Mirrored) {token : String}
    (hr : (d.closeStage token).1 = .rejected e) : (d.closeStage token).2 = d := by
  rw [closeStage_fst h] at hr
  split at hr
  next => simp at hr
  next hno =>
    simp only [not_or] at hno
    obtain ⟨hopen, hstages, hmoderations, hengagements⟩ := hno
    simp only [closeStage, OrderedList.removeIfPresent_of_not_mem hstages,
      OrderedList.removeIfPresent_of_not_mem hmoderations,
      OrderedList.removeIfPresent_of_not_mem hengagements, hopen]
    rfl

theorem dispatch_of_rejected (h : d.Mirrored) {m : Message}
    (hr : (d.dispatch m).1 = .rejected e) : (d.dispatch m).2 = d := by
  cases m with
  | newWalletBalance wallet => exact announceWallet_of_rejected h hr
  | walletRemoved token => exact removeWallet_of_rejected h hr
  | newStage stage => exact announceStage_of_rejected h hr
  | stageEngaged engagement => exact engage_of_rejected h hr
  | newStagePost stage post => exact absurd hr (publish_ne_rejected h stage post e)
  | stageClosed token => exact closeStage_of_rejected h hr
  | openStage token => simp [dispatch, openMainView] at hr

theorem handleText_of_rejected (h : d.Mirrored) {text : String}
    (hr : (d.handleText text).1 = .rejected e) : (d.handleText text).2 = d := by
  unfold handleText at hr ⊢
  split at hr
  next m hm => exact dispatch_of_rejected h hr
  next => rfl

end Dispatcher

end LiveFeed
