import LiveFeed.Proofs.PostCounts
import LiveFeed.Proofs.Refusals

namespace LiveFeed

/-- What stands under one token in the list of stages, and what in the moderation queue. -/
structure Stage.Agree (listed? queued? : Option Stage) : Prop where
  listed : queued?.isSome = true → listed?.isSome = true
  moderated : ∀ q ∈ queued?, q.moderation = true
  queued : ∀ s ∈ listed?, s.moderation = true →
    ∃ q ∈ queued?, q.caption = s.caption ∧ q.author = s.author ∧ s.count ≤ q.count

namespace Stage

theorem le_count_keepCount (s : Stage) (known? : Option Stage) :
    s.count ≤ (s.keepCount known?).count := by
  cases known? with
  | none => exact UInt64.le_refl _
  | some known =>
    rw [UInt64.le_iff_toNat_le, keepCount, toNat_max]
    exact Nat.le_max_left _ _

theorem agree_none : Agree none none where
  listed := id
  moderated := by simp
  queued := by simp

namespace Agree

variable {listed? queued? : Option Stage}

/-- A stage that is listed again is queued again, unless it is no longer moderated. -/
theorem announce (h : Agree listed? queued?) (s : Stage) :
    Agree (some s) (if s.moderation then some (s.keepCount queued?) else queued?) := by
  cases hm : s.moderation with
  | false =>
    refine ⟨fun _ => rfl, h.moderated, ?_⟩
    rintro _ ⟨⟩ hs
    rw [hm] at hs
    cases hs
  | true =>
    have hkept : (s.keepCount queued?).moderation = s.moderation ∧
        (s.keepCount queued?).author = s.author := by
      cases queued? <;> exact ⟨rfl, rfl⟩
    refine ⟨fun _ => rfl, ?_, ?_⟩
    · rintro _ ⟨⟩
      exact hkept.1.trans hm
    · rintro _ ⟨⟩ -
      exact ⟨_, rfl, s.caption_keepCount queued?, hkept.2, s.le_count_keepCount queued?⟩

theorem grow (h : Agree listed? queued?) :
    Agree listed? (queued?.map fun q => q.grow.getD q) := by
  have hgrown (q : Stage) : (q.grow.getD q).moderation = q.moderation ∧
      (q.grow.getD q).caption = q.caption ∧ (q.grow.getD q).author = q.author ∧
      q.count ≤ (q.grow.getD q).count := by
    cases hq : q.grow with
    | none => exact ⟨rfl, rfl, rfl, UInt64.le_refl _⟩
    | some q' =>
      have hcount := count_of_grow hq
      obtain ⟨count, -, rfl⟩ := Option.map_eq_some_iff.mp hq
      exact ⟨rfl, rfl, rfl, UInt64.le_iff_toNat_le.mpr (by rw [Option.getD_some]; omega)⟩
  refine ⟨fun hq => h.listed (by simpa using hq), ?_, ?_⟩
  · intro q hq
    obtain ⟨old, hold, rfl⟩ := Option.map_eq_some_iff.mp hq
    exact (hgrown old).1.trans (h.moderated old hold)
  · intro s hs hm
    obtain ⟨q, hq, hcaption, hauthor, hcount⟩ := h.queued s hs hm
    obtain ⟨-, hcaption', hauthor', hcount'⟩ := hgrown q
    exact ⟨_, Option.mem_map_of_mem _ hq, hcaption'.trans hcaption, hauthor'.trans hauthor,
      UInt64.le_trans hcount hcount'⟩

end Agree

end Stage

namespace Dispatcher

variable {config : Config} {d : Dispatcher config}

theorem announceStage_stages (h : d.Mirrored) (s : Stage) (token : String) :
    (d.announceStage s).2.stages.get? token =
      if s.caption.isEmpty = false ∧ s.token = token then some s else d.stages.get? token := by
  rw [announceStage_snd]
  cases hs : s.caption.isEmpty with
  | true =>
    rw [h.stages.upsert_of_render_error (Stage.render_of_empty hs)]
    simp
  | false =>
    obtain ⟨node, hn⟩ := Stage.drawn_iff.mpr hs
    rw [h.stages.get?_upsert hn]
    simp [Stage.layout]

theorem announceStage_moderations (h : d.Mirrored) (s : Stage) (token : String) :
    (d.announceStage s).2.moderations.get? token =
      if s.caption.isEmpty = false ∧ s.token = token ∧ s.moderation = true then
        some (s.keepCount (d.moderations.get? token))
      else d.moderations.get? token := by
  have hqueue : (d.announceStage s).2.moderations = (d.queueStage s).2.moderations := rfl
  rw [hqueue]
  cases hq : (Message.newStage s).queued? with
  | none =>
    have hout : ¬ (s.caption.isEmpty = false ∧ s.token = token ∧ s.moderation = true) := by
      rintro ⟨hcaption, -, hm⟩
      simp [Message.queued?, hcaption, hm] at hq
    rw [queueStage_unlisted h hq, if_neg hout]
  | some r =>
    have hin : (s.moderation = true ∧ s.caption.isEmpty = false) ∧ s = r := by
      simpa [Message.queued?] using hq
    obtain ⟨⟨hm, hcaption⟩, -⟩ := hin
    obtain ⟨rfl, hget⟩ := queueStage_listed h hq token
    rw [hget]
    simp [hcaption, hm]

/-- Under each token the list of stages and the queue fit together. -/
def Agrees (d : Dispatcher config) : Prop :=
  ∀ token, Stage.Agree (d.stages.get? token) (d.moderations.get? token)

namespace Agrees

theorem announceStage (h : d.Agrees) (hd : d.Mirrored) (s : Stage) :
    (d.announceStage s).2.Agrees := by
  intro token
  rw [announceStage_stages hd, announceStage_moderations hd]
  by_cases hs : s.caption.isEmpty = false ∧ s.token = token
  · have hannounced := (h token).announce s
    simpa [hs] using hannounced
  · have hout : ¬ (s.caption.isEmpty = false ∧ s.token = token ∧ s.moderation = true) :=
      fun hin => hs ⟨hin.1, hin.2.1⟩
    rw [if_neg hs, if_neg hout]
    exact h token

theorem publish (h : d.Agrees) (hd : d.Mirrored) (stage : String) (post : Post) :
    (d.publish stage post).2.Agrees := by
  intro token
  rw [publish_snd, hd.moderations.get?_bump_getD Stage.drawn_of_grow]
  split
  next ht => exact ht ▸ (h stage).grow
  next => exact h token

theorem closeStage (h : d.Agrees) (hd : d.Mirrored) (stage : String) :
    (d.closeStage stage).2.Agrees := by
  intro token
  rw [closeStage_snd, hd.stages.get?_removeIfPresent, hd.moderations.get?_removeIfPresent]
  split
  next => exact Stage.agree_none
  next => exact h token

theorem dispatch (h : d.Agrees) (hd : d.Mirrored) (m : Message) : (d.dispatch m).2.Agrees := by
  cases m with
  | newStage stage => exact h.announceStage hd stage
  | newStagePost stage post => exact h.publish hd stage post
  | stageClosed token => exact h.closeStage hd token
  | newWalletBalance wallet => exact h
  | walletRemoved token => exact h
  | stageEngaged engagement => exact h
  | openStage token => exact h

theorem step (h : d.Agrees) (hd : d.Mirrored) (s : Step) : (d.step s).Agrees :=
  step_keeps (fun _ _ hsame => hsame) h (fun _ => Stage.agree_none) (h.dispatch hd) s

end Agrees

theorem agrees_run (config : Config) (steps : List Step) : ((new config).run steps).Agrees := by
  induction steps using List.reverseRecOn with
  | nil => exact fun _ => Stage.agree_none
  | append_singleton steps s ih =>
    rw [run_concat]
    exact ih.step (mirrored_run config steps) s

/--
The queue holds moderated stages only, each of which is listed, and it holds every stage that is
listed as moderated, with at least as many posts counted.
-/
structure Consistent (d : Dispatcher config) : Prop where
  listed : ∀ token ∈ d.moderations.tokens, token ∈ d.stages.tokens
  moderated : ∀ q ∈ d.moderations.records, q.moderation = true
  queued : ∀ s ∈ d.stages.records, s.moderation = true →
    ∃ q ∈ d.moderations.records,
      q.token = s.token ∧ q.caption = s.caption ∧ q.author = s.author ∧ s.count ≤ q.count

/-- Whatever steps a dispatcher goes through, its stages and its queue stay consistent. -/
theorem consistent_run (config : Config) (steps : List Step) :
    ((new config).run steps).Consistent := by
  have hagrees := agrees_run config steps
  have hmirrored := mirrored_run config steps
  constructor
  · intro token htoken
    exact OrderedList.get?_isSome.mp ((hagrees token).listed (OrderedList.get?_isSome.mpr htoken))
  · intro q hq
    have hfound : ((new config).run steps).moderations.get? q.token = some q :=
      (OrderedList.get?_eq_some_iff hmirrored.moderations.tokens_nodup).mpr ⟨hq, rfl⟩
    exact (hagrees q.token).moderated q hfound
  · intro s hs hm
    have hfound : ((new config).run steps).stages.get? s.token = some s :=
      (OrderedList.get?_eq_some_iff hmirrored.stages.tokens_nodup).mpr ⟨hs, rfl⟩
    obtain ⟨q, hq, hshared⟩ := (hagrees s.token).queued s hfound hm
    obtain ⟨hmem, htoken⟩ :=
      (OrderedList.get?_eq_some_iff hmirrored.moderations.tokens_nodup).mp hq
    exact ⟨q, hmem, htoken, hshared⟩

end Dispatcher

end LiveFeed
