import LiveFeed.Record.Wallet
import LiveFeed.Proofs.Carrying

namespace LiveFeed

/-- The event has the mount turn a call down later on. -/
def Event.isRefusal {R : Type} : Event R → Bool
  | .disturbed (.refuse _) => true
  | .disturbed (.take _) | .disturbed (.attach _ _) | .asked _ => false

namespace OrderedList

variable {R : Type} {layout : Layout R} {l : OrderedList layout} {base : String}

/-- A plan fails only by a call that is turned down. -/
theorem Tracked.ask_eq_of_error (h : l.Tracked base) (hw : l.mount.refusing = none)
    {op : Operation R} {e : ViewError} (he : (l.ask op).1.result = .error e) :
    l.ask op = (⟨.error e, []⟩, l) := by
  rcases h.ask_cases op with ⟨reason, ha⟩ | hc
  · rw [ha] at he ⊢
    rw [Except.error.inj he]
  · exact nomatch he.symm.trans (hc.result_eq hw)

theorem Tracked.ask_of_error (h : l.Tracked base) (hw : l.mount.refusing = none)
    {op : Operation R} {e : ViewError} (he : (l.ask op).1.result = .error e) :
    (l.ask op).2 = l := by
  rw [h.ask_eq_of_error hw he]

theorem willing_live {events : List (Event R)} (h : l.Tracked base)
    (hw : l.mount.refusing = none) (he : ∀ e ∈ events, e.isRefusal = false) :
    (l.live events).mount.refusing = none := by
  induction events generalizing l with
  | nil => exact hw
  | cons e events ih =>
    have hfirst := he e List.mem_cons_self
    have hw' : (l.meet e).mount.refusing = none := by
      cases e with
      | asked op => exact h.willing_apply hw op
      | disturbed i =>
        cases i with
        | take key => exact hw
        | attach key node => exact hw
        | refuse call => simp [Event.isRefusal] at hfirst
    exact ih (h.meet e) hw' fun e' hm => he e' (List.mem_cons_of_mem e hm)

/--
Whatever was taken out of the mount of a list or put into it, an operation that fails leaves the
records, the handles known for them and the mount as they were.
-/
theorem ask_eq_self_of_error (base : String) (children : List Child) (next : Handle)
    (events : List (Event R)) (he : ∀ e ∈ events, e.isRefusal = false) (op : Operation R)
    (error : ViewError)
    (hf : (((new layout { base, children, next }).live events).ask op).1.result = .error error) :
    (((new layout { base, children, next }).live events).ask op).2 =
      (new layout { base, children, next }).live events := by
  have start : (new layout { base, children, next }).Tracked base := Tracks.clear rfl
  have hw := willing_live start rfl he
  exact (tracked_live { base, children, next } events).ask_of_error hw hf

/-- The update of a record whose child was taken away and whose key a child of others has. -/
theorem ask_eq_self_of_error_taken_child :
    let l := (new (Wallet.layout .ascending) { base := "wallets" }).live
      [.asked (.insert ⟨"a", 5, none⟩), .asked (.insert ⟨"b", 7, none⟩),
        .disturbed (.take "wallets-a"), .disturbed (.attach "wallets-a" .paragraph)]
    (l.ask (.update ⟨"a", 9, none⟩)).1.result = .error (.missingMountNode "wallets-a") ∧
      (l.ask (.update ⟨"a", 9, none⟩)).2 = l := by
  have hf : (((new (Wallet.layout .ascending) { base := "wallets" }).live
      [.asked (.insert ⟨"a", 5, none⟩), .asked (.insert ⟨"b", 7, none⟩),
        .disturbed (.take "wallets-a"), .disturbed (.attach "wallets-a" .paragraph)]).ask
          (.update ⟨"a", 9, none⟩)).1.result = .error (.missingMountNode "wallets-a") := by
    decide +kernel
  exact ⟨hf, ask_eq_self_of_error "wallets" [] 0 _ (by decide) _ _ hf⟩

/-- The operation detaches the child of its record, and the child to come instead is turned down. -/
def Strands (l : OrderedList layout) (op : Operation R) : Prop :=
  ∃ r, op = .update r ∧
    (l.ask op).1.calls = [.detach (l.key (layout.token r)), .refused .insertBefore]

/-- The child of a token is gone, and so nothing can be done about its record. -/
structure Stuck (l : OrderedList layout) (token : String) : Prop where
  missing : ∀ h, l.nodes.get? token = some h → h ∉ l.mount.handles
  update : ∀ r, layout.token r = token →
    (l.update r).1.result = .error (.missingMountNode (l.key token))
  remove : (l.remove token).1.result = .error (.missingMountNode (l.key token))

/-- What an operation that fails leaves. -/
structure Aftermath (l : OrderedList layout) (op : Operation R) : Prop where
  records : (l.ask op).2.records = l.records
  nodes : (l.ask op).2.nodes = l.nodes
  /-- The children stay just when it is not an update that detached one and could not go on. -/
  children : (l.ask op).2.mount.children = l.mount.children ↔ ¬ l.Strands op
  /-- The detached child is then the only one missing. -/
  stranded : ∀ r, op = .update r → l.Strands op → ∃ front c back,
    l.mount.children = front ++ c :: back ∧ l.nodes.get? (layout.token r) = some c.handle ∧
      (l.ask op).2.mount.children = front ++ back ∧ (l.ask op).2.Stuck (layout.token r)

theorem attached_of_missing {token : String}
    (h : ∀ i, l.nodes.get? token = some i → i ∉ l.mount.handles) :
    l.attached token = .error (.missingMountNode (l.key token)) := by
  unfold attached
  split
  next i hi =>
    obtain ⟨hget, hc⟩ := Option.filter_eq_some_iff.mp hi
    exact absurd (Mount.contains_iff.mp hc) (h i hget)
  next => rfl

theorem Tracked.stuck (h : l.Tracked base) {token : String} (ht : token ∈ l.tokens)
    (hm : ∀ i, l.nodes.get? token = some i → i ∉ l.mount.handles) : l.Stuck token := by
  have hattached := attached_of_missing hm
  obtain ⟨before, old, after, hs, ho⟩ := exists_split ht
  refine ⟨hm, ?_, ?_⟩
  · rintro r rfl
    have hplan : l.planUpdate r = .error (.missingMountNode (l.key (layout.token r))) := by
      rw [planUpdate_split h.tokens_nodup hs ho, hattached]
      rfl
    rw [update_of_error hplan]
  · subst ho
    have hplan : l.planRemove (layout.token old) =
        .error (.missingMountNode (l.key (layout.token old))) := by
      rw [planRemove_split h.tokens_nodup hs, hattached]
      rfl
    rw [remove_of_error hplan]

theorem Tracked.stuck_bereft (h : l.Tracked base) {token : String} {i : Handle}
    (hget : l.nodes.get? token = some i) {front back : List Child} {c : Child}
    (hc : l.mount.children = front ++ c :: back) (hi : c.handle = i) :
    (l.bereft i).mount.children = front ++ back ∧ (l.bereft i).Stuck token := by
  subst hi
  have hleft : (l.bereft c.handle).mount.children = front ++ back :=
    Mount.eraseP_handle hc h.handles_nodup
  have hbereft : (l.bereft c.handle).Tracked base :=
    h.of_children rfl rfl List.eraseP_sublist
  refine ⟨hleft, hbereft.stuck (h.known token c.handle hget) ?_⟩
  intro j hj hm
  obtain rfl : c.handle = j := Option.some.inj (hget.symm.trans hj)
  rw [Mount.handles, hleft] at hm
  exact Mount.handle_not_mem hc h.handles_nodup hm

theorem Tracked.aftermath (h : l.Tracked base) {op : Operation R} {error : ViewError}
    (hf : (l.ask op).1.result = .error error) : l.Aftermath op := by
  rcases h.ask_cases op with ⟨e, ha⟩ | hc
  · have hno : ¬ l.Strands op := by
      rintro ⟨r, -, hcalls⟩
      simp [ha] at hcalls
    -- the mount was not asked for anything
    refine ⟨?_, ?_, iff_of_true ?_ hno, fun _ _ hs => absurd hs hno⟩
    · rw [ha]
    · rw [ha]
    · rw [ha]
  · generalize ha : l.ask op = outcome at hc hf
    cases hc with
    | done => simp at hf
    | refused =>
      have hno : ¬ l.Strands op := by
        rintro ⟨r, -, hcalls⟩
        simp [ha] at hcalls
      refine ⟨?_, ?_, iff_of_true ?_ hno, fun _ _ hs => absurd hs hno⟩
      · rw [ha, calm]
      · rw [ha, calm]
      · rw [ha, calm, Mount.calm]
    | @stranded r i e update _ known there =>
      -- the child is known and detached, so that one child is missing from now on
      have hyes : l.Strands op := ⟨r, update, by rw [ha]⟩
      obtain ⟨front, c, back, hc, hi⟩ := Mount.exists_child (Mount.contains_iff.mpr there)
      obtain ⟨hleft, hstuck⟩ := h.stuck_bereft known hc hi
      have hlost : (l.bereft i).mount.children ≠ l.mount.children := by
        intro he
        have hlen := congrArg List.length (hleft.symm.trans (he.trans hc))
        simp at hlen
      refine ⟨?_, ?_, iff_of_false ?_ (not_not.mpr hyes), ?_⟩
      · rw [ha, bereft, calm]
      · rw [ha, bereft, calm]
      · rw [ha]
        exact hlost
      · intro r' hr' _
        obtain rfl : r = r' := by simpa [update] using hr'
        rw [ha]
        exact ⟨front, c, back, hc, hi ▸ known, hleft, hstuck⟩

/--
Whatever befell the mount of a list and whatever call it turns down, an operation that fails leaves
the records, and it leaves the children unless it had detached one that it could not put back.
-/
theorem aftermath_live (mount : Mount) (events : List (Event R)) (op : Operation R)
    (error : ViewError)
    (hf : (((new layout mount).live events).ask op).1.result = .error error) :
    ((new layout mount).live events).Aftermath op :=
  (tracked_live mount events).aftermath hf

theorem aftermath_live_refused_move :
    let l := (new (Wallet.layout .ascending) { base := "wallets" }).live
      [.asked (.insert ⟨"a", 1, none⟩), .asked (.insert ⟨"b", 2, none⟩),
        .disturbed (.refuse .insertBefore)]
    (l.ask (.update ⟨"b", 0, none⟩)).1.result = .error (.missingMountNode "wallets-a") ∧
      l.Aftermath (.update ⟨"b", 0, none⟩) := by
  have hf : (((new (Wallet.layout .ascending) { base := "wallets" }).live
      [.asked (.insert ⟨"a", 1, none⟩), .asked (.insert ⟨"b", 2, none⟩),
        .disturbed (.refuse .insertBefore)]).ask (.update ⟨"b", 0, none⟩)).1.result =
          .error (.missingMountNode "wallets-a") := by
    decide +kernel
  exact ⟨hf, aftermath_live { base := "wallets" } _ _ _ hf⟩

/-- A failed move that leaves its record without a child. -/
theorem children_ne_of_refused_move :
    let l := (new (Wallet.layout .ascending) { base := "wallets" }).live
      [.asked (.insert ⟨"a", 1, none⟩), .asked (.insert ⟨"b", 2, none⟩),
        .disturbed (.refuse .insertBefore)]
    (l.ask (.update ⟨"b", 0, none⟩)).1.result = .error (.missingMountNode "wallets-a") ∧
      l.mount.keys = ["wallets-a", "wallets-b"] ∧
      (l.ask (.update ⟨"b", 0, none⟩)).2.mount.keys = ["wallets-a"] ∧
      ((l.ask (.update ⟨"b", 0, none⟩)).2.ask (.remove "b")).1.result =
        .error (.missingMountNode "wallets-b") := by
  decide +kernel

end OrderedList

end LiveFeed
