import LiveFeed.Proofs.PostCounts
import LiveFeed.Proofs.Refusals

namespace LiveFeed

/-- An element that is drawn again for its record leaves the mount as it is. -/
theorem Shows.redrawn {R : Type} {layout : Layout R} {base : String} {m : Mount} {n : Nodes}
    {before after : List R} {r : R} (h : Shows layout base m n (before ++ r :: after))
    {node : Element} (hn : layout.render r = .ok node) {handle : Handle}
    (hr : n.get? (layout.token r) = some handle) (key : String) :
    m.perform (.replace ⟨handle, key⟩ node) = (true, m) := by
  obtain ⟨front, c, back, hc, -, hcr, -⟩ := h.split
  obtain ⟨hget, node', hn', helement⟩ := Nodes.picture_eq_some_iff.mp hcr
  obtain rfl : c.handle = handle := Option.some.inj (hget.symm.trans hr)
  obtain rfl : node' = node := Except.ok.inj (hn'.symm.trans hn)
  have hw : m.refusing ≠ some .replace := by simp [h.willing]
  have hid : c.element.tag.id.getD "" = base ++ "-" ++ layout.token r := by simp [helement]
  have hsame : { m with children := front ++ { c with element := c.element } :: back } = m := by
    rw [← hc]
  have he := Mount.replace_eq hc h.handles_nodup hw node'
  rw [hid, ← helement, hsame] at he
  exact Mount.perform_replace he key

namespace OrderedList.Mirrored

variable {R : Type} {layout : Layout R} {l : OrderedList layout} {base : String} {r : R}

/-- An update with the record that is stored finds it in its place, whatever stands beside it. -/
theorem update_self (ranked : layout.IsRanked) (h : l.Mirrored base) (ho : l.Ordered)
    (hr : r ∈ l.records) :
    l.update r = (⟨.ok (), [.replace (l.key (layout.token r))]⟩, l) := by
  obtain ⟨before, after, hs⟩ := List.append_of_mem hr
  obtain ⟨node, hn⟩ := h.render_of_mem hr
  obtain ⟨c, -, hget, hattached⟩ := h.attached_eq hr
  have hplace : layout.place r before after = before.length :=
    Layout.place_of_tied ranked (hs ▸ ho.sorted) (Layout.tied_refl ranked r)
  have hplan : l.planUpdate r = .ok
      { edits := [.replace ⟨c.handle, l.key (layout.token r)⟩ node]
        records := l.records
        nodes := l.nodes } := by
    rw [planUpdate_split h.tokens_nodup hs rfl, hattached, render_of_ok hn, hs]
    simp [hplace, bind, Except.bind, pure, Except.pure]
  have hshows : Shows layout base l.mount l.nodes (before ++ r :: after) := hs ▸ h.toShows
  have hperform := hshows.redrawn hn hget (l.key (layout.token r))
  rw [update_of_ok hplan, carryOut_eq (Mount.performAll_one hperform), Edit.call]

/-- A record that was stored is found under its token. -/
theorem get?_stored (h : l.Mirrored base) (hok : (l.upsert r).1.result = .ok ()) :
    (l.upsert r).2.get? (layout.token r) = some r := by
  cases hn : layout.render r with
  | error reason =>
    rw [h.upsert_of_render_error hn] at hok
    cases hok
  | ok node => rw [h.get?_upsert hn, if_pos rfl]

/-- What was stored can be stored again, and that changes nothing. -/
theorem upsert_again (ranked : layout.IsRanked) (h : l.Mirrored base) (ho : l.Ordered)
    (hok : (l.upsert r).1.result = .ok ()) :
    ((l.upsert r).2.upsert r).1.result = .ok () ∧
      ((l.upsert r).2.upsert r).2 = (l.upsert r).2 := by
  have hstored : r ∈ (l.upsert r).2.records := List.mem_of_find?_eq_some (h.get?_stored hok)
  have hmirrored := h.of_follows (l.follows_upsert r)
  have hordered := ho.of_follows ranked (l.follows_upsert r)
  rw [upsert_of_mem (List.mem_map_of_mem hstored), hmirrored.update_self ranked hordered hstored]
  exact ⟨rfl, rfl⟩

end OrderedList.Mirrored

/-- A count that was kept is kept again as it is. -/
theorem Counter.kept_again {R : Type} (C : Counter R) (r : R) (known? : Option R) :
    max (C.count r) (C.count (C.withCount r
      (known?.elim (C.count r) fun k => max (C.count r) (C.count k)))) =
        known?.elim (C.count r) fun k => max (C.count r) (C.count k) := by
  rw [C.count_withCount]
  apply UInt64.toNat_inj.mp
  cases known? with
  | none => rw [Option.elim_none, toNat_max, Nat.max_self]
  | some known =>
    simp only [Option.elim_some, toNat_max]
    omega

theorem Stage.keepCount_again (s : Stage) (known? : Option Stage) :
    s.keepCount (some (s.keepCount known?)) = s.keepCount known? := by
  have h := counter.kept_again s known?
  simp only [counter_keepCount, Option.elim_some]
  exact congrArg (counter.withCount s) h

theorem Engagement.keepCount_again (e : Engagement) (known? : Option Engagement) :
    e.keepCount (some (e.keepCount known?)) = e.keepCount known? := by
  have h := counter.kept_again e known?
  simp only [counter_keepCount, Option.elim_some]
  exact congrArg (counter.withCount e) h

theorem Outcome.ofView_eq_applied {region : Region} {result : Except ViewError Unit} :
    ofView region result = applied ↔ result = .ok () := by
  cases result <;> simp [ofView]

theorem Outcome.both_eq_applied {o o' : Outcome} :
    o.both o' = applied ↔ o = applied ∧ o' = applied := by
  cases o <;> simp [both]

/-- Events that tell how something is, and not what becomes of it. -/
def Message.announces : Message → Bool
  | newWalletBalance _ | newStage _ | stageEngaged _ | openStage _ => true
  | walletRemoved _ | newStagePost _ _ | stageClosed _ => false

namespace Dispatcher

variable {config : Config} {d : Dispatcher config}

theorem announceWallet_again (h : d.Mirrored) (ho : d.Ordered) {w : Wallet}
    (hok : (d.announceWallet w).1 = .applied) :
    (d.announceWallet w).2.announceWallet w = (.applied, (d.announceWallet w).2) := by
  obtain ⟨hagain, hsame⟩ := h.wallets.upsert_again (Wallet.isRanked _) ho.wallets
    (Outcome.ofView_eq_applied.mp hok)
  simp only [announceWallet, hagain, hsame, Outcome.ofView]

theorem engage_again (h : d.Mirrored) (ho : d.Ordered) {e : Engagement}
    (hok : (d.engage e).1 = .applied) :
    (d.engage e).2.engage e = (.applied, (d.engage e).2) := by
  have hstored := Outcome.ofView_eq_applied.mp hok
  obtain ⟨hagain, hsame⟩ := h.engagements.upsert_again Engagement.isRanked ho.engagements hstored
  have hget := h.engagements.get?_stored hstored
  have htoken (known? : Option Engagement) :
      Engagement.layout.token (e.keepCount known?) = e.token := e.token_keepCount known?
  rw [htoken] at hget
  simp only [engage, hget, e.keepCount_again, hagain, hsame, Outcome.ofView]

theorem queueStage_again (h : d.Mirrored) (ho : d.Ordered) {s : Stage}
    (hok : (d.queueStage s).1 = .applied) :
    (d.queueStage s).2.queueStage s = (.applied, (d.queueStage s).2) := by
  cases hm : s.moderation with
  | false => simp [queueStage, hm]
  | true =>
    simp only [queueStage, hm, if_true] at hok ⊢
    have hstored := Outcome.ofView_eq_applied.mp hok
    obtain ⟨hagain, hsame⟩ := h.moderations.upsert_again Stage.isRanked ho.moderations hstored
    have hget := h.moderations.get?_stored hstored
    have htoken (known? : Option Stage) :
        Stage.layout.token (s.keepCount known?) = s.token := s.token_keepCount known?
    rw [htoken] at hget
    simp only [hget, s.keepCount_again, hagain, hsame, Outcome.ofView]

/-- The queue does not look at the list of stages. -/
theorem queueStage_with_stages (d : Dispatcher config) (s : Stage)
    (stages : OrderedList Stage.layout) :
    ({ d with stages } : Dispatcher config).queueStage s =
      ((d.queueStage s).1, { (d.queueStage s).2 with stages }) := by
  unfold queueStage
  split
  next => rfl
  next => rfl

theorem announceStage_again (h : d.Mirrored) (ho : d.Ordered) {s : Stage}
    (hok : (d.announceStage s).1 = .applied) :
    (d.announceStage s).2.announceStage s = (.applied, (d.announceStage s).2) := by
  obtain ⟨hqueued, hlisted⟩ := Outcome.both_eq_applied.mp hok
  have hfollows := d.follows_queueStage s
  obtain ⟨hagain, hsame⟩ := (h.of_follows hfollows).stages.upsert_again Stage.isRanked
    (ho.of_follows hfollows).stages (Outcome.ofView_eq_applied.mp hlisted)
  have hannounced : (d.announceStage s).2 =
      { (d.queueStage s).2 with stages := ((d.queueStage s).2.stages.upsert s).2 } := rfl
  have hqueue : (d.announceStage s).2.queueStage s = (.applied, (d.announceStage s).2) := by
    rw [hannounced, queueStage_with_stages, queueStage_again h ho hqueued]
  rw [announceStage, hqueue, hannounced]
  simp only [hagain, hsame, Outcome.ofView, Outcome.both]

/--
In every state that a dispatcher can come to, an announcement that was taken in is taken in again
when it is delivered once more, and nothing changes: no record, no order, no handle, and with them
no HTML.
-/
theorem redelivered_run (config : Config) (steps : List Step) {m : Message}
    (hannounces : m.announces = true)
    (hok : (((new config).run steps).dispatch m).1 = .applied) :
    (((new config).run steps).dispatch m).2.dispatch m =
      (.applied, (((new config).run steps).dispatch m).2) := by
  have h := mirrored_run config steps
  have ho := ordered_run config steps
  cases m with
  | newWalletBalance wallet => exact announceWallet_again h ho hok
  | newStage stage => exact announceStage_again h ho hok
  | stageEngaged engagement => exact engage_again h ho hok
  | openStage token => rfl
  | walletRemoved token => cases hannounces
  | newStagePost stage post => cases hannounces
  | stageClosed token => cases hannounces

theorem redelivered_run_tied :
    (Message.newStage ⟨"b", "c", "", true, 2⟩).announces = true ∧
    (((new {}).run [.message (.newStage ⟨"a", "c", "", true, 1⟩),
      .message (.newStage ⟨"b", "c", "", true, 5⟩),
      .message (.newStage ⟨"d", "c", "", false, 0⟩)]).dispatch
        (.newStage ⟨"b", "c", "", true, 2⟩)).1 = .applied ∧
    (((new {}).run [.message (.newStage ⟨"a", "c", "", true, 1⟩),
      .message (.newStage ⟨"b", "c", "", true, 5⟩),
      .message (.newStage ⟨"d", "c", "", false, 0⟩)]).dispatch
        (.newStage ⟨"b", "c", "", true, 2⟩)).2.dispatch (.newStage ⟨"b", "c", "", true, 2⟩) =
      (.applied, (((new {}).run [.message (.newStage ⟨"a", "c", "", true, 1⟩),
        .message (.newStage ⟨"b", "c", "", true, 5⟩),
        .message (.newStage ⟨"d", "c", "", false, 0⟩)]).dispatch
          (.newStage ⟨"b", "c", "", true, 2⟩)).2) :=
  ⟨rfl, by decide +kernel, redelivered_run {} _ rfl (by decide +kernel)⟩

end Dispatcher

end LiveFeed
