import LiveFeed.Proofs.Arrivals
import LiveFeed.Proofs.StableOrder

namespace LiveFeed

theorem Layout.place_of_unranked {R : Type} {layout : Layout R}
    (h : ∀ a b, layout.precedes a b = false) (r : R) (before after : List R) :
    layout.place r before after = before.length := by
  have hbefore : before.findIdx? (layout.precedes r) = none := by
    apply List.findIdx?_eq_none_iff.mpr
    intro e _
    exact h r e
  have hafter : after.findIdx (!layout.precedes · r) = 0 := by
    cases after with
    | nil => rfl
    | cons e after => simp [List.findIdx_cons, h]
  simp [place, hbefore, hafter]

/-- Without ranks a record that is known keeps its place, and a new one goes to the end. -/
theorem OrderedList.Mirrored.upsert_unranked {R : Type} {layout : Layout R}
    {l : OrderedList layout} {base : String} (h : l.Mirrored base)
    (hnever : ∀ a b, layout.precedes a b = false) {r : R} {node : Element}
    (hn : layout.render r = .ok node) :
    (l.upsert r).2.records =
      if layout.token r ∈ l.tokens then l.exchange r else l.records ++ [r] := by
  by_cases hr : layout.token r ∈ l.tokens
  · obtain ⟨before, old, after, hs, ho⟩ := exists_split hr
    obtain ⟨l', calls, hl, -, hrecords⟩ := h.update_of_render_ok hs ho hn
    have hplace := Layout.place_of_unranked hnever r before after
    rw [upsert_of_mem hr, hl, if_pos hr, exchange_eq h.tokens_nodup hs ho, hrecords, hplace,
      insertIdx_append_length]
  · obtain ⟨l', hl, -, hrecords⟩ := h.insert_of_render_ok hr hn
    have hend : l.records.findIdx (layout.precedes r) = l.records.length := by
      apply List.findIdx_eq_length.mpr
      intro e _
      exact hnever r e
    rw [upsert_of_not_mem hr, hl, if_neg hr, hrecords, hend, List.insertIdx_length_self]

theorem OrderedList.mem_of_mem_upsert_unranked {R : Type} {layout : Layout R}
    {l : OrderedList layout} {r x : R}
    (hx : x ∈ if layout.token r ∈ l.tokens then l.exchange r else l.records ++ [r]) :
    x = r ∨ (x ∈ l.records ∧ layout.token x ≠ layout.token r) := by
  split at hx
  next =>
    obtain ⟨e, he, rfl⟩ := List.mem_map.mp hx
    by_cases ht : layout.token e = layout.token r
    · exact Or.inl (if_pos ht)
    · rw [if_neg ht]
      exact Or.inr ⟨he, ht⟩
  next hr =>
    rcases List.mem_append.mp hx with hx | hx
    · exact Or.inr ⟨hx, fun ht => hr (ht ▸ List.mem_map_of_mem hx)⟩
    · exact Or.inl (List.mem_singleton.mp hx)

theorem eraseDups_concat {α : Type} [DecidableEq α] (xs : List α) (x : α) :
    (xs ++ [x]).eraseDups = if x ∈ xs then xs.eraseDups else xs.eraseDups ++ [x] := by
  rw [List.eraseDups_append]
  by_cases hx : x ∈ xs
  · simp [List.removeAll, hx]
  · simp [List.removeAll, hx, List.eraseDups_cons]

namespace Dispatcher

variable {config : Config} {d : Dispatcher config}

/-- A post that overflows no counter in the queue comes to the main view of its stage. -/
theorem posts_publish {stage : String} {post : Post}
    (h : (d.publish stage post).1 ≠ .overflowed) :
    (d.publish stage post).2.posts =
      if d.openStage = some stage then (d.posts.upsert post).2 else d.posts := by
  by_cases hfull : (d.moderations.bump .moderations stage Stage.grow).1 = .overflowed
  · rw [publish_of_full post hfull] at h
    exact absurd rfl h
  · rw [publish_of_room post hfull]

theorem openStage_dispatch (m : Message) :
    (d.dispatch m).2.openStage = (Step.message m).openAfter d.openStage := by
  cases m with
  | newStagePost stage post =>
    rw [Step.openAfter_eq_self rfl fun _ => rfl]
    exact (congrArg Dispatcher.openStage (d.publish_snd stage post) :)
  | stageClosed token =>
    have hopen : (d.dispatch (.stageClosed token)).2.openStage =
        if d.openStage = some token then none else d.openStage :=
      congrArg Dispatcher.openStage (d.closeStage_snd token)
    have hcloses (other : String) :
        (Step.message (.stageClosed token)).closes other = decide (token = other) := by
      simp [Step.closes, Step.message?]
    rw [hopen]
    cases ho : d.openStage with
    | none => rfl
    | some opened =>
      by_cases ht : opened = token
      · simp [Step.openAfter, Step.opens?, Step.message?, hcloses, ht, Option.filter_some]
      · simp [Step.openAfter, Step.opens?, Step.message?, hcloses, ht, Ne.symm ht,
          Option.filter_some]
  | openStage token => rfl
  | newStage stage =>
    rw [Step.openAfter_eq_self rfl fun _ => rfl]
    exact (congrArg Dispatcher.openStage (d.announceStage_snd stage) :)
  | newWalletBalance wallet =>
    rw [Step.openAfter_eq_self rfl fun _ => rfl]
    rfl
  | walletRemoved token =>
    rw [Step.openAfter_eq_self rfl fun _ => rfl]
    rfl
  | stageEngaged engagement =>
    rw [Step.openAfter_eq_self rfl fun _ => rfl]
    rfl

theorem posts_dispatch {m : Message} (h : (d.dispatch m).1 ≠ .overflowed) :
    (d.dispatch m).2.posts = (Step.message m).turn config d.openStage d.posts := by
  have hother (hopens : (Step.message m).opens? = none)
      (hcloses : ∀ token, (Step.message m).closes token = false)
      (harrival : (Step.message m).arrival? d.openStage = none) :
      (Step.message m).turn config d.openStage d.posts = d.posts := by
    have hrenews : (Step.message m).renews config d.openStage = false := by
      cases ho : d.openStage <;> simp [Step.renews, Step.empties, hopens, hcloses]
    simp only [Step.turn, hrenews, harrival]
    rfl
  cases m with
  | newStagePost stage post =>
    have hrenews : (Step.message (.newStagePost stage post)).renews config d.openStage = false := by
      cases ho : d.openStage <;>
        simp [Step.renews, Step.empties, Step.opens?, Step.closes, Step.message?]
    have harrival : (Step.message (.newStagePost stage post)).arrival? d.openStage =
        if d.openStage = some stage then some post else none := rfl
    have hposts : (d.dispatch (.newStagePost stage post)).2.posts = _ := posts_publish h
    rw [hposts, Step.turn, hrenews, harrival]
    split
    next => rfl
    next => rfl
  | stageClosed token =>
    have hposts : (d.dispatch (.stageClosed token)).2.posts =
        if d.openStage = some token then d.posts.reset else d.posts :=
      congrArg Dispatcher.posts (d.closeStage_snd token)
    have hrenews : (Step.message (.stageClosed token)).renews config d.openStage =
        decide (d.openStage = some token) := by
      cases ho : d.openStage <;>
        simp [Step.renews, Step.empties, Step.opens?, Step.closes, Step.message?, eq_comm]
    have harrival : (Step.message (.stageClosed token)).arrival? d.openStage = none := rfl
    rw [hposts, Step.turn, hrenews, harrival]
    simp only [decide_eq_true_eq]
  | openStage token => rfl
  | newStage stage =>
    rw [hother rfl (fun _ => rfl) rfl]
    exact (congrArg Dispatcher.posts (d.announceStage_snd stage) :)
  | newWalletBalance wallet => exact (hother rfl (fun _ => rfl) rfl).symm
  | walletRemoved token => exact (hother rfl (fun _ => rfl) rfl).symm
  | stageEngaged engagement => exact (hother rfl (fun _ => rfl) rfl).symm

/-- Of a step the main view takes in its event, or that it empties the views. -/
theorem view_step {s : Step} (h : d.outcome? s ≠ some .overflowed) :
    (d.step s).openStage = s.openAfter d.openStage ∧
      (d.step s).posts = s.turn config d.openStage d.posts := by
  obtain ⟨counters, hstep⟩ := d.step_eq s
  have hopen : (d.step s).openStage = (d.after s).openStage := by rw [hstep]; rfl
  have hposts : (d.step s).posts = (d.after s).posts := by rw [hstep]; rfl
  rw [hopen, hposts]
  cases hm : s.message? with
  | some m =>
    have he : s.empties config = false := Step.empties_of_message hm
    have hopens : s.opens? = (Step.message m).opens? := by rw [Step.opens?, hm]; rfl
    have hcloses (token : String) : s.closes token = (Step.message m).closes token := by
      rw [Step.closes, hm]
      rfl
    have harrival : s.arrival? d.openStage = (Step.message m).arrival? d.openStage := by
      rw [Step.arrival?, hm]
      rfl
    rw [outcome?_of_message hm, ne_eq, Option.some.injEq] at h
    rw [after_of_message hm]
    simp only [Step.turn, Step.renews, Step.openAfter, he, hopens, hcloses, harrival]
    exact ⟨openStage_dispatch m, posts_dispatch h⟩
  | none =>
    have hopens : s.opens? = none := by rw [Step.opens?, hm]
    have hcloses (token : String) : s.closes token = false := by simp [Step.closes, hm]
    rw [Step.openAfter_eq_self hopens hcloses]
    have harrival : s.arrival? d.openStage = none := by rw [Step.arrival?, hm]
    have hrenews : s.renews config d.openStage = s.empties config := by
      cases ho : d.openStage <;> simp [Step.renews, hopens, hcloses]
    rw [Step.turn, hrenews, harrival]
    cases he : s.empties config with
    | true =>
      rw [after_of_empties he]
      exact ⟨rfl, rfl⟩
    | false =>
      rw [after_of_neither he hm]
      exact ⟨rfl, rfl⟩

/-- The main view holds the posts that came to the open stage, each as it was last sent. -/
structure Posted (d : Dispatcher config) (steps : List Step) : Prop where
  openStage : d.openStage = MainView.opened? config steps
  tokens : d.posts.tokens = ((MainView.arrivals config steps).map Post.token).eraseDups
  latest : ∀ post ∈ d.posts.records,
    ((MainView.arrivals config steps).filter (·.token = post.token)).getLast? = some post
  shut : d.openStage = none → d.posts.records = []

namespace Posted

variable {steps : List Step} {s : Step}

theorem of_renews (h : d.Posted steps) (hs : d.outcome? s ≠ some .overflowed)
    (hr : s.renews config d.openStage = true) : (d.step s).Posted (steps ++ [s]) := by
  obtain ⟨hopen, hturn⟩ := view_step hs
  have hposts : (d.step s).posts.records = [] := by
    rw [hturn, Step.turn, if_pos hr]
    rfl
  have harrivals : MainView.arrivals config (steps ++ [s]) = [] :=
    MainView.arrivals_of_renews (h.openStage ▸ hr)
  constructor
  · rw [hopen, MainView.opened?_concat, h.openStage]
  · rw [OrderedList.tokens, hposts, harrivals]
    rfl
  · intro post hpost
    rw [hposts] at hpost
    cases hpost
  · exact fun _ => hposts

theorem of_quiet (h : d.Posted steps) (hs : d.outcome? s ≠ some .overflowed)
    (hr : s.renews config d.openStage = false) (ha : s.arrival? d.openStage = none) :
    (d.step s).Posted (steps ++ [s]) := by
  obtain ⟨hopen, hturn⟩ := view_step hs
  have hposts : (d.step s).posts = d.posts := by
    rw [hturn, Step.turn, hr, ha]
    rfl
  have harrivals : MainView.arrivals config (steps ++ [s]) = MainView.arrivals config steps := by
    rw [MainView.arrivals_concat (h.openStage ▸ hr), ← h.openStage, ha, Option.toList_none,
      List.append_nil]
  have hkept := Step.openAfter_of_not_renews hr
  constructor
  · rw [hopen, MainView.opened?_concat, h.openStage]
  · rw [hposts, harrivals, h.tokens]
  · rw [hposts, harrivals]
    exact h.latest
  · rw [hposts, hopen, hkept]
    exact h.shut

theorem of_arrival (h : d.Posted steps) (hm : d.Mirrored) (hs : d.outcome? s ≠ some .overflowed)
    {post : Post} (ha : s.arrival? d.openStage = some post) :
    (d.step s).Posted (steps ++ [s]) := by
  obtain ⟨hopen, hturn⟩ := view_step hs
  obtain ⟨hr, hnone⟩ := Step.of_arrival config ha
  have hkept := Step.openAfter_of_not_renews hr
  have hrecords : (d.step s).posts.records =
      if post.token ∈ d.posts.tokens then d.posts.exchange post else d.posts.records ++ [post] := by
    rw [hturn, Step.turn, hr, ha]
    exact hm.posts.upsert_unranked (fun _ _ => rfl) (r := post) rfl
  have harrivals : MainView.arrivals config (steps ++ [s]) =
      MainView.arrivals config steps ++ [post] := by
    rw [MainView.arrivals_concat (h.openStage ▸ hr), ← h.openStage, ha, Option.toList_some]
  constructor
  · rw [hopen, MainView.opened?_concat, h.openStage]
  · have hknown : post.token ∈ (MainView.arrivals config steps).map Post.token ↔
        post.token ∈ d.posts.tokens := by
      rw [h.tokens, List.mem_eraseDups]
    rw [harrivals, List.map_append, List.map_singleton, eraseDups_concat, ← h.tokens,
      OrderedList.tokens, hrecords]
    simp only [hknown]
    split
    next => exact d.posts.map_token_exchange post
    next => exact List.map_append
  · intro shown hshown
    rw [harrivals, List.filter_append]
    rw [hrecords] at hshown
    rcases OrderedList.mem_of_mem_upsert_unranked hshown with rfl | ⟨hold, hne⟩
    · rw [List.filter_cons_of_pos (by simp), List.filter_nil, List.getLast?_concat]
    · have hother : post.token ≠ shown.token := Ne.symm hne
      rw [List.filter_cons_of_neg (by simpa using hother), List.filter_nil, List.append_nil]
      exact h.latest shown hold
  · intro hshut
    rw [hopen, hkept] at hshut
    exact absurd hshut hnone

theorem concat (h : d.Posted steps) (hm : d.Mirrored) (hs : d.outcome? s ≠ some .overflowed) :
    (d.step s).Posted (steps ++ [s]) := by
  cases ha : s.arrival? d.openStage with
  | some post => exact h.of_arrival hm hs ha
  | none =>
    cases hr : s.renews config d.openStage with
    | true => exact h.of_renews hs hr
    | false => exact h.of_quiet hs hr ha

end Posted

/-- Whatever steps a run is made of, its main view can be told from them. -/
theorem posted_run (config : Config) (steps : List Step)
    (h : some .overflowed ∉ (new config).results steps) :
    ((new config).run steps).Posted steps := by
  induction steps using List.reverseRecOn with
  | nil =>
    refine ⟨?_, rfl, ?_, fun _ => rfl⟩
    · change config.views.openStage = config.views.openStage.filter fun _ => true
      cases config.views.openStage <;> rfl
    · intro post hpost
      cases hpost
  | append_singleton steps s ih =>
    rw [results_concat, List.mem_append, List.mem_singleton, not_or] at h
    obtain ⟨hsteps, hs⟩ := h
    rw [run_concat]
    exact (ih hsteps).concat (mirrored_run config steps) (Ne.symm hs)

theorem posted_run_sent_again :
    some .overflowed ∉ (new {}).results [.message (.openStage "s"),
      .message (.newStagePost "s" ⟨"p", "a", "", "b", none, false⟩),
      .message (.newStagePost "s" ⟨"q", "a", "", "b", none, false⟩),
      .message (.newStagePost "t" ⟨"r", "a", "", "b", none, false⟩),
      .message (.newStagePost "s" ⟨"p", "a", "", "c", none, false⟩)] ∧
    ((new {}).run [.message (.openStage "s"),
      .message (.newStagePost "s" ⟨"p", "a", "", "b", none, false⟩),
      .message (.newStagePost "s" ⟨"q", "a", "", "b", none, false⟩),
      .message (.newStagePost "t" ⟨"r", "a", "", "b", none, false⟩),
      .message (.newStagePost "s" ⟨"p", "a", "", "c", none, false⟩)]).Posted
        [.message (.openStage "s"),
          .message (.newStagePost "s" ⟨"p", "a", "", "b", none, false⟩),
          .message (.newStagePost "s" ⟨"q", "a", "", "b", none, false⟩),
          .message (.newStagePost "t" ⟨"r", "a", "", "b", none, false⟩),
          .message (.newStagePost "s" ⟨"p", "a", "", "c", none, false⟩)] :=
  ⟨by decide +kernel, posted_run {} _ (by decide +kernel)⟩

end Dispatcher

end LiveFeed
