import LiveFeed.Proofs.Counter
import LiveFeed.Proofs.Lookup

namespace LiveFeed

theorem Stage.counter_keepCount (s : Stage) (known? : Option Stage) :
    s.keepCount known? =
      counter.withCount s (known?.elim s.count fun k => max s.count k.count) := by
  cases known? with
  | none => rfl
  | some known => rfl

theorem Engagement.counter_keepCount (e : Engagement) (known? : Option Engagement) :
    e.keepCount known? =
      counter.withCount e (known?.elim e.count fun k => max e.count k.count) := by
  cases known? with
  | none => rfl
  | some known => rfl

/-- What events do to what is read off the views, steps do. -/
theorem Counter.read_step {R : Type} {C : Counter R} {config : Config} {token : String} {s : Step}
    {d : Dispatcher config} (read : Dispatcher config → Option R)
    (hread : ∀ d counters, read (d.withStatistics counters) = read d)
    (hreset : read d.reset = none)
    (hm : ∀ m, s.message? = some m →
      read (d.dispatch m).2 = C.next config token (.message m) (read d)) :
    read (d.step s) = C.next config token s (read d) :=
  Dispatcher.read_step read hread (fun he => hreset.trans (next_of_empties he).symm)
    (fun m h => (hm m h).trans (next_of_message h).symm) fun he h => (next_of_neither he h).symm

/-- A list that counts a post without an overflow counts it as its counter tells. -/
theorem Counter.get?_bump {R : Type} (C : Counter R) {layout : Layout R} {l : OrderedList layout}
    {base : String} (h : l.Mirrored base) {region : Region} {stage : String} {grow : R → Option R}
    (hgrow : ∀ k, grow k = (increment? (C.count k)).map (C.withCount k))
    (hdrawn : ∀ r r', grow r = some r' → layout.token r' = layout.token r ∧
      ((∃ node, layout.render r = .ok node) → ∃ node, layout.render r' = .ok node))
    (hroom : (l.bump region stage grow).1 ≠ .overflowed) (config : Config) (token : String)
    (post : Post) :
    (l.bump region stage grow).2.get? token =
      C.next config token (.message (.newStagePost stage post)) (l.get? token) := by
  have hgrown : (l.get? stage).bind grow = _ := C.bind_grow hgrow fun k hk hfull =>
    hroom (OrderedList.bump_eq_overflowed.mpr
      ⟨k, hk, by rw [hgrow, increment?_eq_none.mpr hfull, Option.map_none]⟩)
  rw [h.get?_bump hdrawn hroom, hgrown, next_post]
  split
  next ht => rw [ht]
  next => rfl

namespace Dispatcher

variable {config : Config} {d : Dispatcher config} {token : String}

theorem queueStage_unlisted (h : d.Mirrored) {s : Stage}
    (hs : (Message.newStage s).queued? = none) : (d.queueStage s).2 = d := by
  cases hm : s.moderation with
  | false => simp [queueStage, hm]
  | true =>
    have hempty : s.caption.isEmpty = true := by simpa [Message.queued?, hm] using hs
    exact queueStage_of_empty h hempty

theorem queueStage_listed (h : d.Mirrored) {s r : Stage}
    (hs : (Message.newStage s).queued? = some r) (token : String) :
    r = s ∧ (d.queueStage s).2.moderations.get? token =
      if s.token = token then some (s.keepCount (d.moderations.get? token))
      else d.moderations.get? token := by
  cases hm : s.moderation with
  | false => simp [Message.queued?, hm] at hs
  | true =>
    have hdrawn : s.caption.isEmpty = false ∧ s = r := by
      simpa [Message.queued?, hm] using hs
    obtain ⟨hcaption, rfl⟩ := hdrawn
    have hcounted : (s.keepCount (d.moderations.get? s.token)).caption.isEmpty = false := by
      rw [Stage.caption_keepCount]
      exact hcaption
    obtain ⟨node, hn⟩ := Stage.drawn_iff.mpr hcounted
    have htoken : Stage.layout.token (s.keepCount (d.moderations.get? s.token)) = s.token := by
      rw [Stage.counter_keepCount]
      rfl
    have hget := h.moderations.get?_upsert hn token
    rw [htoken] at hget
    refine ⟨rfl, ?_⟩
    simp only [queueStage, hm, if_true, hget]
    split
    next ht => rw [ht]
    next => rfl

theorem engage_unlisted (h : d.Mirrored) {e : Engagement}
    (he : (Message.stageEngaged e).engaged? = none) : (d.engage e).2 = d := by
  have hempty : (e.keepCount (d.engagements.get? e.token)).name.isEmpty = true := by
    rw [Engagement.counter_keepCount]
    simpa [Message.engaged?, Engagement.counter] using he
  simp only [engage, h.engagements.upsert_of_render_error (Engagement.render_of_empty hempty)]

theorem engage_listed (h : d.Mirrored) {e r : Engagement}
    (he : (Message.stageEngaged e).engaged? = some r) (token : String) :
    r = e ∧ (d.engage e).2.engagements.get? token =
      if e.token = token then some (e.keepCount (d.engagements.get? token))
      else d.engagements.get? token := by
  have hdrawn : e.name.isEmpty = false ∧ e = r := by
    simpa [Message.engaged?] using he
  obtain ⟨hname, rfl⟩ := hdrawn
  have hcounted : (e.keepCount (d.engagements.get? e.token)).name.isEmpty = false := by
    rw [Engagement.counter_keepCount]
    exact hname
  obtain ⟨node, hn⟩ := Engagement.drawn_iff.mpr hcounted
  have htoken : Engagement.layout.token (e.keepCount (d.engagements.get? e.token)) = e.token := by
    rw [Engagement.counter_keepCount]
    rfl
  have hget := h.engagements.get?_upsert hn token
  rw [htoken] at hget
  refine ⟨rfl, hget.trans ?_⟩
  split
  next ht => rw [ht]
  next => rfl

theorem moderations_bump_ne_overflowed {stage : String} (h : ¬ d.Full stage) :
    (d.moderations.bump .moderations stage Stage.grow).1 ≠ .overflowed := by
  intro ho
  obtain ⟨s, hs, hg⟩ := OrderedList.bump_eq_overflowed.mp ho
  exact h (Or.inl ⟨s, hs, Stage.grow_eq_none.mp hg⟩)

theorem engagements_bump_ne_overflowed {stage : String} (h : ¬ d.Full stage) :
    (d.engagements.bump .engagements stage Engagement.grow).1 ≠ .overflowed := by
  intro ho
  obtain ⟨e, he, hg⟩ := OrderedList.bump_eq_overflowed.mp ho
  exact h (Or.inr ⟨e, he, Engagement.grow_eq_none.mp hg⟩)

theorem moderations_dispatch (h : d.Mirrored) {m : Message}
    (hm : (d.dispatch m).1 ≠ .overflowed) (token : String) :
    (d.dispatch m).2.moderations.get? token =
      Stage.counter.next config token (.message m) (d.moderations.get? token) := by
  cases m with
  | newStage stage =>
    have hdispatch : (d.dispatch (.newStage stage)).2.moderations =
        (d.queueStage stage).2.moderations := rfl
    rw [hdispatch]
    cases hq : Stage.counter.listed? (.newStage stage) with
    | none =>
      rw [queueStage_unlisted h hq]
      exact (Stage.counter.next_unlisted hq (by simp) rfl).symm
    | some r =>
      obtain ⟨rfl, hget⟩ := queueStage_listed h hq token
      rw [hget, Counter.next_listed hq, Stage.counter_keepCount]
      rfl
  | newStagePost stage post =>
    have hdispatch : (d.dispatch (.newStagePost stage post)).2.moderations =
        (d.moderations.bump .moderations stage Stage.grow).2 :=
      congrArg Dispatcher.moderations (d.publish_snd stage post)
    have hfull : ¬ d.Full stage := fun hfull => hm (publish_eq_overflowed.mpr hfull)
    rw [hdispatch]
    exact Stage.counter.get?_bump h.moderations (fun _ => rfl) Stage.drawn_of_grow
      (moderations_bump_ne_overflowed hfull) config token post
  | stageClosed stage =>
    have hdispatch : (d.dispatch (.stageClosed stage)).2.moderations =
        (d.moderations.removeIfPresent stage).2 :=
      congrArg Dispatcher.moderations (d.closeStage_snd stage)
    rw [hdispatch, h.moderations.get?_removeIfPresent, Counter.next_close]
  | newWalletBalance wallet => exact (Stage.counter.next_unlisted rfl (by simp) rfl).symm
  | walletRemoved stage => exact (Stage.counter.next_unlisted rfl (by simp) rfl).symm
  | stageEngaged engagement => exact (Stage.counter.next_unlisted rfl (by simp) rfl).symm
  | openStage stage => exact (Stage.counter.next_unlisted rfl (by simp) rfl).symm

theorem engagements_dispatch (h : d.Mirrored) {m : Message}
    (hm : (d.dispatch m).1 ≠ .overflowed) (token : String) :
    (d.dispatch m).2.engagements.get? token =
      Engagement.counter.next config token (.message m) (d.engagements.get? token) := by
  cases m with
  | newStage stage =>
    have hdispatch : (d.dispatch (.newStage stage)).2.engagements = d.engagements :=
      (congrArg Dispatcher.engagements (d.announceStage_snd stage) :)
    rw [hdispatch]
    exact (Engagement.counter.next_unlisted rfl (by simp) rfl).symm
  | stageEngaged engagement =>
    have hdispatch : (d.dispatch (.stageEngaged engagement)).2 = (d.engage engagement).2 := rfl
    rw [hdispatch]
    cases hq : Engagement.counter.listed? (.stageEngaged engagement) with
    | none =>
      rw [engage_unlisted h hq]
      exact (Engagement.counter.next_unlisted hq (by simp) rfl).symm
    | some r =>
      obtain ⟨rfl, hget⟩ := engage_listed h hq token
      rw [hget, Counter.next_listed hq, Engagement.counter_keepCount]
      rfl
  | newStagePost stage post =>
    have hfull : ¬ d.Full stage := fun hfull => hm (publish_eq_overflowed.mpr hfull)
    have hdispatch : (d.dispatch (.newStagePost stage post)).2.engagements =
        (d.engagements.bump .engagements stage Engagement.grow).2 :=
      congrArg Dispatcher.engagements (publish_of_room post (moderations_bump_ne_overflowed hfull))
    rw [hdispatch]
    exact Engagement.counter.get?_bump h.engagements (fun _ => rfl) Engagement.drawn_of_grow
      (engagements_bump_ne_overflowed hfull) config token post
  | stageClosed stage =>
    have hdispatch : (d.dispatch (.stageClosed stage)).2.engagements =
        (d.engagements.removeIfPresent stage).2 :=
      congrArg Dispatcher.engagements (d.closeStage_snd stage)
    rw [hdispatch, h.engagements.get?_removeIfPresent, Counter.next_close]
  | newWalletBalance wallet => exact (Engagement.counter.next_unlisted rfl (by simp) rfl).symm
  | walletRemoved stage => exact (Engagement.counter.next_unlisted rfl (by simp) rfl).symm
  | openStage stage => exact (Engagement.counter.next_unlisted rfl (by simp) rfl).symm

theorem not_full_of_room {s : Step} (hs : d.outcome? s ≠ some .overflowed) {token : String}
    (hp : s.postsOn token = true) : ¬ d.Full token := by
  unfold Step.postsOn at hp
  split at hp
  next stage post hm =>
    rw [decide_eq_true_eq] at hp
    rw [outcome?_of_message hm, ne_eq, Option.some.injEq] at hs
    exact fun hfull => hs (publish_eq_overflowed.mpr (hp ▸ hfull))
  next => simp at hp

theorem moderations_step (h : d.Mirrored) {s : Step} (hs : d.outcome? s ≠ some .overflowed)
    (token : String) :
    (d.step s).moderations.get? token =
      Stage.counter.next config token s (d.moderations.get? token) := by
  refine Counter.read_step (·.moderations.get? token) (fun _ _ => rfl) rfl fun m hm => ?_
  rw [outcome?_of_message hm, ne_eq, Option.some.injEq] at hs
  exact moderations_dispatch h hs token

theorem engagements_step (h : d.Mirrored) {s : Step} (hs : d.outcome? s ≠ some .overflowed)
    (token : String) :
    (d.step s).engagements.get? token =
      Engagement.counter.next config token s (d.engagements.get? token) := by
  refine Counter.read_step (·.engagements.get? token) (fun _ _ => rfl) rfl fun m hm => ?_
  rw [outcome?_of_message hm, ne_eq, Option.some.injEq] at hs
  exact engagements_dispatch h hs token

/-- The queue and the engagements hold what the steps of a run tell of them. -/
structure Counted (d : Dispatcher config) (steps : List Step) : Prop where
  moderations : ∀ token,
    Stage.counter.Accounts config token steps (d.moderations.get? token)
  engagements : ∀ token,
    Engagement.counter.Accounts config token steps (d.engagements.get? token)

theorem Counted.concat {steps : List Step} (h : d.Counted steps) (hm : d.Mirrored) {s : Step}
    (hs : d.outcome? s ≠ some .overflowed) : (d.step s).Counted (steps ++ [s]) where
  moderations := by
    intro token
    rw [moderations_step hm hs]
    refine (h.moderations token).concat fun hp k hk => ?_
    have hfull := not_full_of_room hs hp
    have hlt := k.count.toNat_lt
    have hne : k.count.toNat ≠ 2 ^ 64 - 1 := fun he => hfull (Or.inl ⟨k, hk, he⟩)
    have hcount : Stage.counter.count k = k.count := rfl
    rw [hcount]
    omega
  engagements := by
    intro token
    rw [engagements_step hm hs]
    refine (h.engagements token).concat fun hp k hk => ?_
    have hfull := not_full_of_room hs hp
    have hlt := k.count.toNat_lt
    have hne : k.count.toNat ≠ 2 ^ 64 - 1 := fun he => hfull (Or.inr ⟨k, hk, he⟩)
    have hcount : Engagement.counter.count k = k.count := rfl
    rw [hcount]
    omega

/-- Whatever steps a run is made of, the posts are counted right as long as no counter overflows. -/
theorem counted_run (config : Config) (steps : List Step)
    (h : some .overflowed ∉ (new config).results steps) :
    ((new config).run steps).Counted steps := by
  induction steps using List.reverseRecOn with
  | nil =>
    constructor
    · intro token
      exact .absent rfl
    · intro token
      exact .absent rfl
  | append_singleton steps s ih =>
    rw [results_concat, List.mem_append, List.mem_singleton, not_or] at h
    obtain ⟨hsteps, hs⟩ := h
    rw [run_concat]
    exact (ih hsteps).concat (mirrored_run config steps) (Ne.symm hs)

theorem counted_run_announced_again :
    some .overflowed ∉ (new {}).results [.message (.newStage ⟨"s", "c", "", true, 5⟩),
      .message (.newStagePost "s" ⟨"p", "a", "", "b", none, false⟩),
      .message (.newStage ⟨"s", "d", "", true, 3⟩)] ∧
    ((new {}).run [.message (.newStage ⟨"s", "c", "", true, 5⟩),
      .message (.newStagePost "s" ⟨"p", "a", "", "b", none, false⟩),
      .message (.newStage ⟨"s", "d", "", true, 3⟩)]).Counted
        [.message (.newStage ⟨"s", "c", "", true, 5⟩),
          .message (.newStagePost "s" ⟨"p", "a", "", "b", none, false⟩),
          .message (.newStage ⟨"s", "d", "", true, 3⟩)] :=
  ⟨by decide +kernel, counted_run {} _ (by decide +kernel)⟩

end Dispatcher

end LiveFeed
