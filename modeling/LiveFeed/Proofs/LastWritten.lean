import LiveFeed.Proofs.Moderation

namespace LiveFeed

/-- How events write records into a list and strike them out. -/
structure Register (R : Type) where
  token : R → String
  /-- The record that an event writes, if it can be drawn. -/
  written? : Message → Option R
  /-- The token under which an event strikes out what stands there. -/
  struck? : Message → Option String

def Wallet.register : Register Wallet where
  token := token
  written?
    | .newWalletBalance w => if w.token ≠ "" then some w else none
    | _ => none
  struck?
    | .walletRemoved token => some token
    | _ => none

def Stage.register : Register Stage where
  token := token
  written?
    | .newStage s => if s.caption ≠ "" then some s else none
    | _ => none
  struck?
    | .stageClosed token => some token
    | _ => none

namespace Register

variable {R : Type} (W : Register R) (config : Config) (token : String)

/-- Whether nothing stands under a token after a step. -/
def clears (s : Step) : Bool := s.empties config || s.message?.bind W.struck? = some token

/-- The record that a step writes under a token. -/
def writing? (s : Step) : Option R := (s.message?.bind W.written?).filter (W.token · = token)

/-- The record written last under a token since it was last cleared. -/
def latest? (steps : List Step) : Option R :=
  ((steps.rtakeWhile (!W.clears config token ·)).filterMap (W.writing? token)).getLast?

/-- What a step makes of the record under a token. -/
def next (s : Step) (known? : Option R) : Option R :=
  if W.clears config token s then none else (W.writing? token s).or known?

variable {W config token} {steps : List Step} {s : Step} {m : Message} {known? : Option R}

theorem latest?_concat (steps : List Step) (s : Step) :
    W.latest? config token (steps ++ [s]) =
      W.next config token s (W.latest? config token steps) := by
  rw [latest?, next]
  cases hc : W.clears config token s with
  | true =>
    rw [List.rtakeWhile_concat_neg _ _ _ (by simp [hc])]
    rfl
  | false =>
    rw [List.rtakeWhile_concat_pos _ _ _ (by simp [hc]), List.filterMap_append]
    cases hw : W.writing? token s with
    | none => simp [hw, latest?]
    | some r => simp [hw]

theorem next_of_empties (h : s.empties config = true) : W.next config token s known? = none := by
  simp [next, clears, h]

theorem next_of_neither (he : s.empties config = false) (hm : s.message? = none) :
    W.next config token s known? = known? := by
  simp [next, clears, writing?, he, hm]

theorem next_of_message (h : s.message? = some m) :
    W.next config token s known? = W.next config token (.message m) known? := by
  have he : s.empties config = false := Step.empties_of_message h
  have hm : (Step.message m).message? = some m := rfl
  simp only [next, clears, writing?, he, h, hm]
  rfl

theorem next_struck {struck : String} (h : W.struck? m = some struck)
    (hw : W.written? m = none) :
    W.next config token (.message m) known? = if struck = token then none else known? := by
  simp [next, clears, writing?, Step.empties, Step.message?, h, hw]

theorem next_unstruck (h : W.struck? m = none) :
    W.next config token (.message m) known? =
      ((W.written? m).filter (W.token · = token)).or known? := by
  simp [next, clears, writing?, Step.empties, Step.message?, h]

theorem next_written {r : R} {drawn : Prop} [Decidable drawn] (h : W.struck? m = none)
    (hw : W.written? m = if drawn then some r else none) :
    W.next config token (.message m) known? =
      if drawn ∧ W.token r = token then some r else known? := by
  rw [next_unstruck h, hw]
  by_cases hd : drawn
  · by_cases ht : W.token r = token
    · simp [hd, ht, Option.filter_some]
    · simp [hd, ht, Option.filter_some]
  · simp [hd]

theorem next_other (h : W.struck? m = none) (hw : W.written? m = none) :
    W.next config token (.message m) known? = known? := by
  rw [next_unstruck h, hw]
  rfl

/-- What events do to what is read off the views, steps do. -/
theorem read_step {d : Dispatcher config} (read : Dispatcher config → Option R)
    (hread : ∀ d counters, read (d.withStatistics counters) = read d)
    (hreset : read d.reset = none)
    (hdispatch : ∀ m, read (d.dispatch m).2 = W.next config token (.message m) (read d))
    (s : Step) :
    read (d.step s) = W.next config token s (read d) :=
  Dispatcher.read_step read hread (fun he => hreset.trans (next_of_empties he).symm)
    (fun m h => (hdispatch m).trans (next_of_message h).symm)
    fun he h => (next_of_neither he h).symm

end Register

/-- Whether an event is about what has that token; a post names no record. -/
def Message.names (token : String) : Message → Bool
  | newWalletBalance w => w.token = token
  | newStage s => s.token = token
  | stageEngaged e => e.token = token
  | walletRemoved other | stageClosed other | openStage other => other = token
  | newStagePost _ _ => false

namespace Dispatcher

variable {config : Config} {d : Dispatcher config} {token : String}

theorem announceWallet_wallets (h : d.Mirrored) (w : Wallet) (token : String) :
    (d.announceWallet w).2.wallets.get? token =
      if w.token ≠ "" ∧ w.token = token then some w else d.wallets.get? token := by
  have hupsert : (d.announceWallet w).2.wallets = (d.wallets.upsert w).2 := rfl
  rw [hupsert]
  by_cases hw : w.token = ""
  · have hempty : w.token.isEmpty = true := String.isEmpty_iff.mpr hw
    rw [h.wallets.upsert_of_render_error (Wallet.render_of_empty hempty),
      if_neg fun hin => hin.1 hw]
  · have hdrawn : w.token.isEmpty = false := by simpa using hw
    obtain ⟨node, hn⟩ := (Wallet.drawn_iff config.views.walletOrder).mpr hdrawn
    rw [h.wallets.get?_upsert hn]
    exact if_congr (and_iff_right hw).symm rfl rfl

theorem removeWallet_wallets (h : d.Mirrored) (removed token : String) :
    (d.removeWallet removed).2.wallets.get? token =
      if removed = token then none else d.wallets.get? token := by
  have hremove : (d.removeWallet removed).2.wallets = (d.wallets.removeIfPresent removed).2 := by
    by_cases hr : removed ∈ d.wallets.tokens
    · rw [OrderedList.removeIfPresent, if_pos (OrderedList.get?_isSome.mpr hr)]
      rfl
    · rw [OrderedList.removeIfPresent_of_not_mem hr]
      simp only [removeWallet, OrderedList.remove_of_not_mem hr]
  rw [hremove, h.wallets.get?_removeIfPresent]

theorem wallets_dispatch (h : d.Mirrored) (m : Message) (token : String) :
    (d.dispatch m).2.wallets.get? token =
      Wallet.register.next config token (.message m) (d.wallets.get? token) := by
  cases m with
  | newWalletBalance w =>
    have hdispatch : (d.dispatch (.newWalletBalance w)).2 = (d.announceWallet w).2 := rfl
    rw [hdispatch, announceWallet_wallets h, Register.next_written rfl rfl]
    rfl
  | walletRemoved removed =>
    have hdispatch : (d.dispatch (.walletRemoved removed)).2 = (d.removeWallet removed).2 := rfl
    rw [hdispatch, removeWallet_wallets h, Register.next_struck rfl rfl]
  | newStage s =>
    have hdispatch : (d.dispatch (.newStage s)).2.wallets = d.wallets :=
      (congrArg Dispatcher.wallets (d.announceStage_snd s) :)
    rw [hdispatch, Register.next_other rfl rfl]
  | newStagePost stage post =>
    have hdispatch : (d.dispatch (.newStagePost stage post)).2.wallets = d.wallets :=
      (congrArg Dispatcher.wallets (d.publish_snd stage post) :)
    rw [hdispatch, Register.next_other rfl rfl]
  | stageClosed closed =>
    have hdispatch : (d.dispatch (.stageClosed closed)).2.wallets = d.wallets :=
      (congrArg Dispatcher.wallets (d.closeStage_snd closed) :)
    rw [hdispatch, Register.next_other rfl rfl]
  | stageEngaged e => exact (Register.next_other rfl rfl).symm
  | openStage opened => exact (Register.next_other rfl rfl).symm

theorem stages_dispatch (h : d.Mirrored) (m : Message) (token : String) :
    (d.dispatch m).2.stages.get? token =
      Stage.register.next config token (.message m) (d.stages.get? token) := by
  cases m with
  | newStage s =>
    have hdispatch : (d.dispatch (.newStage s)).2 = (d.announceStage s).2 := rfl
    rw [hdispatch, announceStage_stages h, Register.next_written rfl rfl]
    exact if_congr (and_congr_left' (by simp)) rfl rfl
  | stageClosed closed =>
    have hdispatch : (d.dispatch (.stageClosed closed)).2.stages =
        (d.stages.removeIfPresent closed).2 :=
      (congrArg Dispatcher.stages (d.closeStage_snd closed) :)
    rw [hdispatch, h.stages.get?_removeIfPresent, Register.next_struck rfl rfl]
  | newStagePost stage post =>
    have hdispatch : (d.dispatch (.newStagePost stage post)).2.stages = d.stages :=
      (congrArg Dispatcher.stages (d.publish_snd stage post) :)
    rw [hdispatch, Register.next_other rfl rfl]
  | newWalletBalance w => exact (Register.next_other rfl rfl).symm
  | walletRemoved removed => exact (Register.next_other rfl rfl).symm
  | stageEngaged e => exact (Register.next_other rfl rfl).symm
  | openStage opened => exact (Register.next_other rfl rfl).symm

theorem wallets_step (h : d.Mirrored) (s : Step) (token : String) :
    (d.step s).wallets.get? token =
      Wallet.register.next config token s (d.wallets.get? token) :=
  Register.read_step (·.wallets.get? token) (fun _ _ => rfl) rfl
    (fun m => wallets_dispatch h m token) s

theorem stages_step (h : d.Mirrored) (s : Step) (token : String) :
    (d.step s).stages.get? token = Stage.register.next config token s (d.stages.get? token) :=
  Register.read_step (·.stages.get? token) (fun _ _ => rfl) rfl
    (fun m => stages_dispatch h m token) s

/-- An event that fails, in whatever way, leaves the wallets and the list of stages alone. -/
theorem kept_of_failed (h : d.Mirrored) {m : Message} (hm : (d.dispatch m).1 ≠ .applied) :
    (d.dispatch m).2.wallets = d.wallets ∧ (d.dispatch m).2.stages = d.stages := by
  cases ho : (d.dispatch m).1 with
  | applied => exact absurd ho hm
  | rejected e =>
    rw [dispatch_of_rejected h ho]
    exact ⟨rfl, rfl⟩
  | overflowed =>
    obtain ⟨stage, post, rfl, -⟩ := dispatch_eq_overflowed.mp ho
    exact ⟨(congrArg Dispatcher.wallets (d.publish_snd stage post) :),
      (congrArg Dispatcher.stages (d.publish_snd stage post) :)⟩

/-- The wallets and the list of stages hold what was written last, and nothing else moves them. -/
structure LastWritten (d : Dispatcher config) (steps : List Step) : Prop where
  wallets : ∀ token, d.wallets.get? token = Wallet.register.latest? config token steps
  stages : ∀ token, d.stages.get? token = Stage.register.latest? config token steps
  others : ∀ (s : Step) (m : Message) (token : String), s.message? = some m →
    m.names token = false →
      (d.step s).wallets.get? token = d.wallets.get? token ∧
        (d.step s).stages.get? token = d.stages.get? token
  failed : ∀ (s : Step) (o : Outcome), d.outcome? s = some o → o ≠ .applied →
    (d.step s).wallets = d.wallets ∧ (d.step s).stages = d.stages

theorem wallets_of_others {m : Message} (h : d.Mirrored) (hm : m.names token = false) :
    (d.dispatch m).2.wallets.get? token = d.wallets.get? token := by
  rw [wallets_dispatch h]
  cases m with
  | newWalletBalance w =>
    rw [Register.next_written rfl rfl, if_neg fun hin => of_decide_eq_false hm hin.2]
  | walletRemoved removed => rw [Register.next_struck rfl rfl, if_neg (of_decide_eq_false hm)]
  | _ => exact Register.next_other rfl rfl

theorem stages_of_others {m : Message} (h : d.Mirrored) (hm : m.names token = false) :
    (d.dispatch m).2.stages.get? token = d.stages.get? token := by
  rw [stages_dispatch h]
  cases m with
  | newStage s =>
    rw [Register.next_written rfl rfl, if_neg fun hin => of_decide_eq_false hm hin.2]
  | stageClosed closed => rw [Register.next_struck rfl rfl, if_neg (of_decide_eq_false hm)]
  | _ => exact Register.next_other rfl rfl

theorem empties_of_outcome? {s : Step} {o : Outcome} (h : d.outcome? s = some o) :
    s.empties config = false := by
  cases s with
  | frame f =>
    cases f with
    | opened => rfl
    | text content => rfl
    | closed reason => simp [outcome?, handleFrame] at h
    | failed error => simp [outcome?, handleFrame] at h
  | text content => rfl
  | message m => rfl
  | reset => simp [outcome?] at h

/-- A step that fails brings an event that fails, or a text that holds none. -/
theorem step_of_failed (h : d.Mirrored) {s : Step} {o : Outcome} (hs : d.outcome? s = some o)
    (ho : o ≠ .applied) : (d.step s).wallets = d.wallets ∧ (d.step s).stages = d.stages := by
  have hkept : ((d.step s).wallets, (d.step s).stages) = (d.wallets, d.stages) := by
    refine read_step (fun d => (d.wallets, d.stages)) (fun _ _ => rfl) (fun he => ?_)
      (fun m hm => ?_) fun _ _ => rfl
    · rw [empties_of_outcome? hs] at he
      cases he
    · rw [outcome?_of_message hm] at hs
      have hfailed : (d.dispatch m).1 ≠ .applied := Option.some.inj hs ▸ ho
      obtain ⟨hwallets, hstages⟩ := kept_of_failed h hfailed
      rw [hwallets, hstages]
  exact Prod.mk.inj hkept

theorem wallets_run (config : Config) (steps : List Step) (token : String) :
    ((new config).run steps).wallets.get? token = Wallet.register.latest? config token steps := by
  induction steps using List.reverseRecOn with
  | nil => rfl
  | append_singleton steps s ih =>
    rw [run_concat, wallets_step (mirrored_run config steps), ih, Register.latest?_concat]

theorem stages_run (config : Config) (steps : List Step) (token : String) :
    ((new config).run steps).stages.get? token = Stage.register.latest? config token steps := by
  induction steps using List.reverseRecOn with
  | nil => rfl
  | append_singleton steps s ih =>
    rw [run_concat, stages_step (mirrored_run config steps), ih, Register.latest?_concat]

/-- Whatever a run is made of, what was written last under a token stands there in the end. -/
theorem lastWritten_run (config : Config) (steps : List Step) :
    ((new config).run steps).LastWritten steps where
  wallets := wallets_run config steps
  stages := stages_run config steps
  others := by
    intro s m token hm hnames
    have h := mirrored_run config steps
    constructor
    · exact (read_of_message (·.wallets.get? token) (fun _ _ => rfl) hm).trans
        (wallets_of_others h hnames)
    · exact (read_of_message (·.stages.get? token) (fun _ _ => rfl) hm).trans
        (stages_of_others h hnames)
  failed := fun _ _ hs ho => step_of_failed (mirrored_run config steps) hs ho

/-- What has no caption is turned down, and a post counts elsewhere. -/
example : Stage.register.latest? {} "a" [.message (.newStage ⟨"a", "c", "", false, 1⟩),
    .message (.newStage ⟨"a", "", "", false, 2⟩),
    .message (.newStagePost "a" ⟨"p", "", "", "", none, false⟩)] =
      some ⟨"a", "c", "", false, 1⟩ := by decide

end Dispatcher

end LiveFeed
