import LiveFeed.Proofs.Dropped

namespace LiveFeed

theorem increment?_eq_none {n : UInt64} : increment? n = none ↔ n.toNat = 2 ^ 64 - 1 := by
  have hn := n.toNat_lt
  have hsize : UInt64.size = 2 ^ 64 := rfl
  unfold increment?
  split
  next h =>
    constructor
    · intro he
      simp at he
    · intro he
      omega
  next h =>
    have he : n.toNat = 2 ^ 64 - 1 := by omega
    simp [he]

theorem increment?_of_room {n : UInt64} (h : n.toNat ≠ 2 ^ 64 - 1) :
    increment? n = some (n + 1) := by
  have hn := n.toNat_lt
  have hsize : UInt64.size = 2 ^ 64 := rfl
  rw [increment?, if_pos (by omega)]

theorem toNat_of_increment? {n m : UInt64} (h : increment? n = some m) :
    m.toNat = n.toNat + 1 := by
  unfold increment? at h
  split at h
  next hlt =>
    obtain rfl := Option.some.inj h
    rw [UInt64.toNat_add, UInt64.toNat_one]
    exact Nat.mod_eq_of_lt hlt
  next => simp at h

theorem Stage.grow_eq_none {s : Stage} : s.grow = none ↔ s.count.toNat = 2 ^ 64 - 1 := by
  rw [grow, Option.map_eq_none_iff, increment?_eq_none]

theorem Engagement.grow_eq_none {e : Engagement} : e.grow = none ↔ e.count.toNat = 2 ^ 64 - 1 := by
  rw [grow, Option.map_eq_none_iff, increment?_eq_none]

theorem Stage.count_of_grow {s s' : Stage} (h : s.grow = some s') :
    s'.count.toNat = s.count.toNat + 1 := by
  obtain ⟨count, hc, rfl⟩ := Option.map_eq_some_iff.mp h
  exact toNat_of_increment? hc

theorem Engagement.count_of_grow {e e' : Engagement} (h : e.grow = some e') :
    e'.count.toNat = e.count.toNat + 1 := by
  obtain ⟨count, hc, rfl⟩ := Option.map_eq_some_iff.mp h
  exact toNat_of_increment? hc

theorem toNat_max (a b : UInt64) : (max a b).toNat = max a.toNat b.toNat := by
  have hmax : max a b = if a ≤ b then b else a := rfl
  rw [hmax]
  split
  next h => exact (Nat.max_eq_right (UInt64.le_iff_toNat_le.mp h)).symm
  next h => exact (Nat.max_eq_left (Nat.le_of_lt (UInt64.not_le.mp h))).symm

theorem toNat_max_le {a b : UInt64} {n : Nat} (ha : a.toNat ≤ n) (hb : b.toNat ≤ n) :
    (max a b).toNat ≤ n := by
  rw [toNat_max]
  exact Nat.max_le.mpr ⟨ha, hb⟩

theorem Stage.count_keepCount_le {s : Stage} {known? : Option Stage} {n : Nat}
    (hs : s.count.toNat ≤ n) (hk : ∀ known ∈ known?, known.count.toNat ≤ n) :
    (s.keepCount known?).count.toNat ≤ n := by
  cases known? with
  | none => exact hs
  | some known => exact toNat_max_le hs (hk known rfl)

theorem Engagement.count_keepCount_le {e : Engagement} {known? : Option Engagement} {n : Nat}
    (he : e.count.toNat ≤ n) (hk : ∀ known ∈ known?, known.count.toNat ≤ n) :
    (e.keepCount known?).count.toNat ≤ n := by
  cases known? with
  | none => exact he
  | some known => exact toNat_max_le he (hk known rfl)

namespace Message

/-- The count with which an event announces a record whose posts are counted. -/
def announced : Message → Nat
  | newStage s => if s.moderation then s.count.toNat else 0
  | stageEngaged e => e.count.toNat
  | newWalletBalance _ | walletRemoved _ | newStagePost _ _ | stageClosed _ | openStage _ => 0

def isPost : Message → Bool
  | newStagePost _ _ => true
  | newWalletBalance _ | walletRemoved _ | newStage _ | stageEngaged _ | stageClosed _
  | openStage _ => false

end Message

namespace Frame

/-- The event in a frame, if it holds one. -/
def message? : Frame → Option Message
  | text content => (Message.decode content).toOption
  | opened | closed _ | failed _ => none

def announced (frame : Frame) : Nat := (frame.message?.map Message.announced).getD 0

def isPost (frame : Frame) : Bool := frame.message?.any Message.isPost

end Frame

namespace Outcome

theorem ofView_ne_overflowed {α : Type} (region : Region) (result : Except ViewError α) :
    ofView region result ≠ overflowed := by
  cases result <;> simp [ofView]

theorem both_eq_overflowed {o o' : Outcome} :
    o.both o' = overflowed ↔ o = overflowed ∨ (o = applied ∧ o' = overflowed) := by
  cases o <;> simp [both]

end Outcome

namespace Dispatcher

variable {config : Config} {d : Dispatcher config}

/-- No more can be counted on a stage in the queue or among the engagements. -/
def Full (d : Dispatcher config) (stage : String) : Prop :=
  (∃ s, d.moderations.get? stage = some s ∧ s.count.toNat = 2 ^ 64 - 1) ∨
    ∃ e, d.engagements.get? stage = some e ∧ e.count.toNat = 2 ^ 64 - 1

theorem queueStage_ne_overflowed (s : Stage) : (d.queueStage s).1 ≠ .overflowed := by
  unfold queueStage
  split
  next => exact Outcome.ofView_ne_overflowed _ _
  next => simp

theorem announceStage_ne_overflowed (s : Stage) : (d.announceStage s).1 ≠ .overflowed := by
  intro h
  rcases Outcome.both_eq_overflowed.mp h with hq | ⟨-, hl⟩
  · exact queueStage_ne_overflowed s hq
  · exact Outcome.ofView_ne_overflowed _ _ hl

theorem closeStage_ne_overflowed (token : String) : (d.closeStage token).1 ≠ .overflowed := by
  have hview {α : Type} (region : Region) (result : Except ViewError α) :=
    Outcome.ofView_ne_overflowed region result
  intro h
  simp only [closeStage, Outcome.both_eq_overflowed, hview, false_or, and_false] at h
  obtain ⟨-, h⟩ := h
  split at h
  next => simp at h
  next => simp at h

theorem showPost_ne_overflowed (stage : String) (post : Post) :
    (d.showPost stage post).1 ≠ .overflowed := by
  unfold showPost
  split
  next => exact Outcome.ofView_ne_overflowed _ _
  next => simp

/-- A full queue ends the event before the engagements are reached. -/
theorem publish_engagements (stage : String) (post : Post) :
    (d.publish stage post).2.engagements = d.engagements ∨
      (d.publish stage post).2.engagements =
        (d.engagements.bump .engagements stage Engagement.grow).2 := by
  by_cases h : (d.moderations.bump .moderations stage Stage.grow).1 = .overflowed
  · exact Or.inl (by rw [publish_of_full post h])
  · exact Or.inr (by rw [publish_of_room post h])

theorem publish_eq_overflowed {stage : String} {post : Post} :
    (d.publish stage post).1 = .overflowed ↔ d.Full stage := by
  have hm : (d.moderations.bump .moderations stage Stage.grow).1 = .overflowed ↔
      ∃ s, d.moderations.get? stage = some s ∧ s.count.toNat = 2 ^ 64 - 1 := by
    simp only [OrderedList.bump_eq_overflowed, Stage.grow_eq_none]
  have he : (d.engagements.bump .engagements stage Engagement.grow).1 = .overflowed ↔
      ∃ e, d.engagements.get? stage = some e ∧ e.count.toNat = 2 ^ 64 - 1 := by
    simp only [OrderedList.bump_eq_overflowed, Engagement.grow_eq_none]
  rw [Full, ← hm, ← he]
  by_cases hfull : (d.moderations.bump .moderations stage Stage.grow).1 = .overflowed
  · rw [publish_of_full post hfull]
    simp [hfull]
  · have hposted := showPost_ne_overflowed (d := { d with
      moderations := (d.moderations.bump .moderations stage Stage.grow).2 }) stage post
    simp only [publish, if_neg hfull, showPost_snd]
    split
    next hfull' => simp [hfull']
    next hroom' => simp [Outcome.both_eq_overflowed, hfull, hroom', hposted]

/-- Of all events only a post overflows, and only where its stage is full. -/
theorem dispatch_eq_overflowed {m : Message} :
    (d.dispatch m).1 = .overflowed ↔ ∃ stage post, m = .newStagePost stage post ∧ d.Full stage := by
  cases m with
  | newWalletBalance wallet =>
    simp [dispatch, announceWallet, Outcome.ofView_ne_overflowed]
  | walletRemoved token => simp [dispatch, removeWallet, Outcome.ofView_ne_overflowed]
  | newStage stage => simp [dispatch, announceStage_ne_overflowed]
  | stageEngaged engagement => simp [dispatch, engage, Outcome.ofView_ne_overflowed]
  | newStagePost stage post => simp [dispatch, publish_eq_overflowed]
  | stageClosed token => simp [dispatch, closeStage_ne_overflowed]
  | openStage token => simp [dispatch, openMainView]

theorem handleFrame_eq_overflowed {frame : Frame} :
    (d.handleFrame frame).1 = some .overflowed ↔
      ∃ stage post, frame.message? = some (.newStagePost stage post) ∧ d.Full stage := by
  cases frame with
  | opened => simp [handleFrame, Frame.message?]
  | text text =>
    cases hm : Message.decode text with
    | ok m =>
      simp [handleFrame, handleText, Frame.message?, hm, dispatch_eq_overflowed, Except.toOption]
    | error e => simp [handleFrame, handleText, Frame.message?, hm, Except.toOption]
  | closed reason => simp [handleFrame, Frame.message?]
  | failed error => simp [handleFrame, Frame.message?]

/-- No counter of the queue or of the engagements is above a bound. -/
structure Bounded (d : Dispatcher config) (n : Nat) : Prop where
  moderations : ∀ s ∈ d.moderations.records, s.count.toNat ≤ n
  engagements : ∀ e ∈ d.engagements.records, e.count.toNat ≤ n

theorem bounded_new (config : Config) (n : Nat) : (new config).Bounded n where
  moderations := by simp [new, OrderedList.ofRegion, OrderedList.new]
  engagements := by simp [new, OrderedList.ofRegion, OrderedList.new]

namespace Bounded

variable {n : Nat}

theorem mono (h : d.Bounded n) {n' : Nat} (hn : n ≤ n') : d.Bounded n' where
  moderations := fun s hs => Nat.le_trans (h.moderations s hs) hn
  engagements := fun e he => Nat.le_trans (h.engagements e he) hn

theorem not_full (h : d.Bounded n) (hn : n < 2 ^ 64 - 1) (stage : String) : ¬ d.Full stage := by
  rintro (⟨s, hs, hc⟩ | ⟨e, he, hc⟩)
  · have hle := h.moderations s (List.mem_of_find?_eq_some hs)
    omega
  · have hle := h.engagements e (List.mem_of_find?_eq_some he)
    omega

theorem reset (d : Dispatcher config) (n : Nat) : d.reset.Bounded n where
  moderations := by simp [Dispatcher.reset, OrderedList.reset]
  engagements := by simp [Dispatcher.reset, OrderedList.reset]

theorem queueStage (hm : d.Mirrored) (h : d.Bounded n) {s : Stage}
    (hs : s.moderation = true → s.count.toNat ≤ n) : (d.queueStage s).2.Bounded n := by
  unfold Dispatcher.queueStage
  split
  next hq =>
    refine ⟨fun x hx => ?_, h.engagements⟩
    rcases OrderedList.mem_of_mem_upsert hm.moderations.tokens_nodup hx with rfl | hx
    · have hknown : ∀ known ∈ d.moderations.get? s.token, known.count.toNat ≤ n :=
        fun known hk => h.moderations known (List.mem_of_find?_eq_some hk)
      exact Stage.count_keepCount_le (hs hq) hknown
    · exact h.moderations x hx
  next => exact h

theorem engage (hm : d.Mirrored) (h : d.Bounded n) {e : Engagement} (he : e.count.toNat ≤ n) :
    (d.engage e).2.Bounded n := by
  refine ⟨h.moderations, fun x hx => ?_⟩
  rcases OrderedList.mem_of_mem_upsert hm.engagements.tokens_nodup hx with rfl | hx
  · have hknown : ∀ known ∈ d.engagements.get? e.token, known.count.toNat ≤ n :=
      fun known hk => h.engagements known (List.mem_of_find?_eq_some hk)
    exact Engagement.count_keepCount_le he hknown
  · exact h.engagements x hx

theorem publish (hm : d.Mirrored) (h : d.Bounded n) (stage : String) (post : Post) :
    (d.publish stage post).2.Bounded (n + 1) := by
  constructor
  · intro x hx
    rw [publish_snd] at hx
    rcases OrderedList.mem_of_mem_bump hm.moderations.tokens_nodup hx with hx | ⟨s, hs, hg⟩
    · exact Nat.le_succ_of_le (h.moderations x hx)
    · have hcount := Stage.count_of_grow hg
      have hle := h.moderations s hs
      omega
  · intro x hx
    rcases publish_engagements (d := d) stage post with he | he
    · rw [he] at hx
      exact Nat.le_succ_of_le (h.engagements x hx)
    · rw [he] at hx
      rcases OrderedList.mem_of_mem_bump hm.engagements.tokens_nodup hx with hx | ⟨e, he, hg⟩
      · exact Nat.le_succ_of_le (h.engagements x hx)
      · have hcount := Engagement.count_of_grow hg
        have hle := h.engagements e he
        omega

theorem closeStage (hm : d.Mirrored) (h : d.Bounded n) (token : String) :
    (d.closeStage token).2.Bounded n := by
  have hmoderations : ∀ s ∈ (d.moderations.removeIfPresent token).2.records,
      s.count.toNat ≤ n := fun s hs =>
    h.moderations s (OrderedList.mem_of_mem_removeIfPresent hm.moderations.tokens_nodup hs)
  have hengagements : ∀ e ∈ (d.engagements.removeIfPresent token).2.records,
      e.count.toNat ≤ n := fun e he =>
    h.engagements e (OrderedList.mem_of_mem_removeIfPresent hm.engagements.tokens_nodup he)
  rw [closeStage_snd]
  exact ⟨hmoderations, hengagements⟩

theorem dispatch (hm : d.Mirrored) (h : d.Bounded n) {m : Message} (hn : m.announced ≤ n) :
    (d.dispatch m).2.Bounded (n + if m.isPost then 1 else 0) := by
  cases m with
  | newWalletBalance wallet => exact ⟨h.moderations, h.engagements⟩
  | walletRemoved token => exact ⟨h.moderations, h.engagements⟩
  | newStage stage =>
    have hs : stage.moderation = true → stage.count.toNat ≤ n := by
      intro hq
      simpa [Message.announced, hq] using hn
    have hqueued := h.queueStage hm hs
    exact ⟨hqueued.moderations, hqueued.engagements⟩
  | stageEngaged engagement => exact h.engage hm hn
  | newStagePost stage post => exact h.publish hm stage post
  | stageClosed token => exact h.closeStage hm token
  | openStage token => exact ⟨h.moderations, h.engagements⟩

theorem handleText (hm : d.Mirrored) (h : d.Bounded n) {text : String}
    (hn : (Frame.text text).announced ≤ n) :
    (d.handleText text).2.Bounded (n + if (Frame.text text).isPost then 1 else 0) := by
  unfold Dispatcher.handleText
  split
  next m ht =>
    have he : (Frame.text text).message? = some m := by simp [Frame.message?, ht, Except.toOption]
    have hm' : m.announced ≤ n := by simpa [Frame.announced, he] using hn
    have hdispatched := h.dispatch hm hm'
    simpa [Frame.isPost, he] using hdispatched
  next => exact h.mono (Nat.le_add_right n _)

theorem count (h : d.Bounded n) (outcome : Outcome) : (d.count outcome).Bounded n := by
  cases outcome with
  | applied => exact ⟨h.moderations, h.engagements⟩
  | rejected e => exact ⟨h.moderations, h.engagements⟩
  | overflowed => exact h

theorem disconnected (h : d.Bounded n) : d.disconnected.Bounded n := by
  unfold Dispatcher.disconnected
  split
  next =>
    have hreset := reset d n
    exact ⟨hreset.moderations, hreset.engagements⟩
  next => exact h

theorem handleFrame (hm : d.Mirrored) (h : d.Bounded n) {frame : Frame}
    (hn : frame.announced ≤ n) :
    (d.handleFrame frame).2.Bounded (n + if frame.isPost then 1 else 0) := by
  cases frame with
  | opened => exact h
  | text text => exact (h.handleText hm hn).count (d.handleText text).1
  | closed reason => exact h.disconnected
  | failed error => exact h.disconnected

end Bounded

/-- What comes of the frames of a row, one after the other. -/
def outcomes (d : Dispatcher config) : List Frame → List (Option Outcome)
  | [] => []
  | frame :: frames => (d.handleFrame frame).1 :: (d.handleFrame frame).2.outcomes frames

theorem not_overflowed_of_bounded {n : Nat} {frames : List Frame} (hm : d.Mirrored)
    (h : d.Bounded n) (hn : ∀ frame ∈ frames, frame.announced ≤ n)
    (hroom : n + frames.countP Frame.isPost < 2 ^ 64) :
    some .overflowed ∉ d.outcomes frames := by
  -- each post raises the bound by one, and leaves one post less to come
  induction frames generalizing d n with
  | nil => simp [outcomes]
  | cons frame frames ih =>
    rw [List.countP_cons] at hroom
    have hfirst : (d.handleFrame frame).1 ≠ some .overflowed := by
      intro ho
      obtain ⟨stage, post, hmessage, hfull⟩ := handleFrame_eq_overflowed.mp ho
      have hpost : frame.isPost = true := by simp [Frame.isPost, hmessage, Message.isPost]
      rw [if_pos hpost] at hroom
      exact h.not_full (by omega) stage hfull
    have hstep := h.handleFrame hm (hn frame List.mem_cons_self)
    have hrest : some .overflowed ∉ (d.handleFrame frame).2.outcomes frames := by
      refine ih (hm.of_follows (d.follows_handleFrame frame)) hstep ?_ ?_
      · intro f hf
        exact Nat.le_trans (hn f (List.mem_cons_of_mem frame hf)) (Nat.le_add_right n _)
      · omega
    intro hmem
    rcases List.mem_cons.mp hmem with ho | ho
    · exact hfirst ho.symm
    · exact hrest ho

/-- Which frames make a counter overflow, and what keeps a row of frames from it. -/
structure Limits (config : Config) : Prop where
  /-- An event that cannot be applied is dropped, and nothing but the count of those shows it. -/
  dropped : ∀ (steps : List Step) (frame : Frame) (e : DispatchError),
    (((new config).run steps).handleFrame frame).1 = some (.rejected e) →
      (((new config).run steps).handleFrame frame).2 = ((new config).run steps).addDropped 1
  /-- A frame overflows just when it holds a post for a stage that is full. -/
  overflowed_iff : ∀ (d : Dispatcher config) (frame : Frame),
    (d.handleFrame frame).1 = some .overflowed ↔
      ∃ stage post, frame.message? = some (.newStagePost stage post) ∧ d.Full stage
  /-- No frame overflows if each announced count leaves room for the posts of the row. -/
  not_overflowed : ∀ frames : List Frame,
    (∀ frame ∈ frames, frame.announced + frames.countP Frame.isPost < 2 ^ 64) →
      some .overflowed ∉ (new config).outcomes frames

theorem limits (config : Config) : Limits config where
  dropped := fun steps frame e hr =>
    handleFrame_of_drops (mirrored_run config steps) (by simp [drops, hr])
  overflowed_iff := fun _ _ => handleFrame_eq_overflowed
  not_overflowed := by
    intro frames hroom
    cases frames with
    | nil => simp [outcomes]
    | cons frame frames =>
      have hfirst := hroom frame List.mem_cons_self
      refine not_overflowed_of_bounded (mirrored_new config)
        (bounded_new config (2 ^ 64 - 1 - (frame :: frames).countP Frame.isPost)) ?_ ?_
      · intro f hf
        have hf := hroom f hf
        omega
      · omega

/-- One post on a stage that was entered with the largest count overflows. -/
theorem handleFrame_overflowed_largest_count :
    (((new {}).handleFrame (.text ("\x7b\"action\":\"StageEngaged\",\"token\":\"s\"," ++
      "\"name\":\"n\",\"count\":18446744073709551615\x7d"))).2.handleFrame
        (.text ("\x7b\"action\":\"NewStagePost\",\"stage\":\"s\"," ++
          "\"post\":\x7b\"token\":\"p\",\"author\":\"a\",\"content\":\"b\"\x7d\x7d"))).1 =
      some .overflowed := by
  decide +kernel

end Dispatcher

end LiveFeed
