import LiveFeed.Proofs.Atomicity
import LiveFeed.Proofs.Neighbours
import LiveFeed.Proofs.Upserts

namespace LiveFeed.OrderedList

variable {R : Type} {layout : Layout R} {l : OrderedList layout} {base : String}

/-- The child that was drawn for a token is gone from the mount. -/
def Lost (l : OrderedList layout) (token : String) : Prop :=
  ∃ h, l.nodes.get? token = some h ∧ h ∉ l.mount.handles

/-- The tokens whose children an operation has to find in the mount. -/
inductive Needs (l : OrderedList layout) : Operation R → String → Prop
  | first {r next : R} (first : l.records.find? (layout.precedes r) = some next) :
      Needs l (.insert r) (layout.token next)
  | own (r : R) : Needs l (.update r) (layout.token r)
  | behind {r next : R} (moves : ¬ l.Keeps r) (behind : l.nextSorted? r = some next) :
      Needs l (.update r) (layout.token next)
  | removed (token : String) : Needs l (.remove token) token

/-- The errors of an operation, each where none of those before it is due. -/
inductive Fails (l : OrderedList layout) : Operation R → ViewError → Prop
  | duplicate {r : R} (known : layout.token r ∈ l.tokens) :
      Fails l (.insert r) (.duplicateToken (layout.token r))
  | firstLost {r next : R} (fresh : layout.token r ∉ l.tokens)
      (first : l.records.find? (layout.precedes r) = some next)
      (lost : l.Lost (layout.token next)) :
      Fails l (.insert r) (.missingMountNode (l.key (layout.token next)))
  | newUndrawn {r : R} {reason : String} (fresh : layout.token r ∉ l.tokens)
      (found : ∀ token, l.Needs (.insert r) token → ¬ l.Lost token)
      (undrawn : layout.render r = .error reason) :
      Fails l (.insert r) (.render (layout.token r) reason)
  | unknown {r : R} (unknown : layout.token r ∉ l.tokens) :
      Fails l (.update r) (.unknownToken (layout.token r))
  | ownLost {r : R} (known : layout.token r ∈ l.tokens) (lost : l.Lost (layout.token r)) :
      Fails l (.update r) (.missingMountNode (l.key (layout.token r)))
  | behindLost {r next : R} (known : layout.token r ∈ l.tokens)
      (own : ¬ l.Lost (layout.token r)) (moves : ¬ l.Keeps r)
      (behind : l.nextSorted? r = some next) (lost : l.Lost (layout.token next)) :
      Fails l (.update r) (.missingMountNode (l.key (layout.token next)))
  | undrawn {r : R} {reason : String} (known : layout.token r ∈ l.tokens)
      (found : ∀ token, l.Needs (.update r) token → ¬ l.Lost token)
      (undrawn : layout.render r = .error reason) :
      Fails l (.update r) (.render (layout.token r) reason)
  | removedUnknown {token : String} (unknown : token ∉ l.tokens) :
      Fails l (.remove token) (.unknownToken token)
  | removedLost {token : String} (known : token ∈ l.tokens) (lost : l.Lost token) :
      Fails l (.remove token) (.missingMountNode (l.key token))

/-- A child was drawn for each record, whether it is still there or not. -/
def Housed (l : OrderedList layout) : Prop :=
  ∀ token ∈ l.tokens, ∃ h, l.nodes.get? token = some h

theorem exists_get?_insert {n : Nodes} {r : R} {front back : List R}
    (h : ∀ token ∈ (front ++ back).map layout.token, ∃ i, n.get? token = some i) (next : Handle) :
    ∀ token ∈ (front ++ r :: back).map layout.token,
      ∃ i, (n.insert (layout.token r) next).get? token = some i := by
  intro token ht
  rw [Nodes.get?_insert]
  by_cases heq : token = layout.token r
  · exact ⟨next, if_pos heq⟩
  · rw [if_neg heq]
    exact h token ((mem_map_append_cons.mp ht).resolve_left heq)

theorem Plans.housed (hd : l.tokens.Nodup) (h : l.Housed) {op : Operation R} {plan : Plan R}
    (hp : l.Plans op plan) :
    ∀ token ∈ plan.records.map layout.token, ∃ i, plan.nodes.get? token = some i := by
  cases hp with
  | @insert r front back node before records fresh drawn anchored =>
    have hrest : ∀ token ∈ (front ++ back).map layout.token,
        ∃ i, l.nodes.get? token = some i := records ▸ h
    exact exists_get?_insert hrest l.mount.next
  | @replace r old front back node child records same drawn found =>
    have htokens : (front ++ r :: back).map layout.token = l.tokens := by
      rw [tokens, records]
      simp [same]
    intro token ht
    exact h token (htokens ▸ ht)
  | @move r old before after front back node child next records same rest drawn found anchored =>
    have hrest : ∀ token ∈ (front ++ back).map layout.token,
        ∃ i, l.nodes.get? token = some i := by
      intro token ht
      obtain ⟨e, he, rfl⟩ := List.mem_map.mp ht
      exact h _ (List.mem_map_of_mem (mem_of_rest records (rest ▸ he)))
    exact exists_get?_insert hrest l.mount.next
  | @remove old front back child records found =>
    intro token ht
    have hne : token ≠ layout.token old := fun heq => token_not_mem hd records (heq ▸ ht)
    obtain ⟨e, he, rfl⟩ := List.mem_map.mp ht
    rw [Nodes.get?_erase, if_neg hne]
    exact h _ (List.mem_map_of_mem (mem_of_rest records he))

theorem Housed.apply (hd : l.tokens.Nodup) (h : l.Housed) (op : Operation R) :
    (l.apply op).Housed := by
  rw [← snd_ask]
  rcases OrderedList.ask_cases hd op with rfl | ⟨e, he⟩ | ⟨plan, hp, he⟩
  · intro token ht
    simp [ask, reset, tokens] at ht
  · rw [he]
    exact h
  · rw [he]
    intro token ht
    rcases carryOut_cases plan () with ⟨e, -, hrecords, hnodes⟩ | ⟨-, hrecords, hnodes⟩
    · rw [hnodes]
      exact h token (by rwa [tokens, hrecords] at ht)
    · rw [hnodes]
      exact hp.housed hd h token (by rwa [tokens, hrecords] at ht)

/-- What holds of a list whose children others may have taken, but whose mount obliges it. -/
structure Steady (base : String) (l : OrderedList layout) : Prop where
  tracked : l.Tracked base
  ordered : l.Ordered
  housed : l.Housed
  willing : l.mount.refusing = none

theorem steady_live (ranked : layout.IsRanked) (base : String) (children : List Child)
    (next : Handle) {events : List (Event R)} (he : ∀ e ∈ events, e.isRefusal = false) :
    ((new layout { base, children, next }).live events).Steady base := by
  have tracked : (new layout { base, children, next }).Tracked base := Tracks.clear rfl
  have ordered : (new layout { base, children, next }).Ordered := Ordered.of_nil rfl
  have housed : (new layout { base, children, next }).Housed := by
    intro token ht
    simp [new, tokens] at ht
  have hboth := live_keeps (P := fun l => l.Tracked base ∧ l.Housed)
    (fun l e h => ⟨h.1.meet e, by
      cases e with
      | asked op => exact h.2.apply h.1.tokens_nodup op
      | disturbed i => cases i <;> exact h.2⟩) ⟨tracked, housed⟩ events
  exact
    { tracked := hboth.1
      ordered := live_keeps (fun _ e h => h.meet ranked e) ordered events
      housed := hboth.2
      willing := willing_live tracked rfl he }

theorem attached_of_lost {token : String} (hl : l.Lost token) :
    l.attached token = .error (.missingMountNode (l.key token)) := by
  obtain ⟨i, hi, hno⟩ := hl
  refine attached_of_missing fun j hj => ?_
  obtain rfl : i = j := Option.some.inj (hi.symm.trans hj)
  exact hno

theorem anchor_of_lost {next : R} (hl : l.Lost (layout.token next)) :
    l.anchor (some next) = .error (.missingMountNode (l.key (layout.token next))) := by
  rw [anchor, attached_of_lost hl]
  rfl

theorem Housed.exists_attached (h : l.Housed) {token : String} (ht : token ∈ l.tokens)
    (hl : ¬ l.Lost token) : ∃ child, l.attached token = .ok child := by
  obtain ⟨i, hi⟩ := h token ht
  have hmem : i ∈ l.mount.handles := by
    by_contra hno
    exact hl ⟨i, hi, hno⟩
  have hin : l.mount.contains i = true := Mount.contains_iff.mpr hmem
  exact ⟨⟨i, l.key token⟩, by simp [attached, hi, Option.filter, hin]⟩

theorem Housed.exists_anchor (h : l.Housed) {next : Option R}
    (hn : ∀ e, next = some e → e ∈ l.records ∧ ¬ l.Lost (layout.token e)) :
    ∃ before, l.anchor next = .ok before := by
  cases next with
  | none => exact ⟨none, rfl⟩
  | some e =>
    obtain ⟨hmem, hl⟩ := hn e rfl
    obtain ⟨child, hc⟩ := h.exists_attached (List.mem_map_of_mem hmem) hl
    exact ⟨some child, by rw [anchor, hc]; rfl⟩

theorem result_ask_remove (l : OrderedList layout) (token : String) :
    (l.ask (.remove token)).1.result = (fun _ => ()) <$> (l.remove token).1.result := rfl

namespace Steady

/-- A mount that obliges makes every change that was planned. -/
theorem carryOut_result {α : Type} (h : l.Steady base) {op : Operation R} {plan : Plan R}
    (hp : l.Plans op plan) (value : α) : (l.carryOut plan value).1.result = .ok value := by
  have hunit := (h.tracked.carried hp).result_eq h.willing
  rw [← carryOut_unit plan value] at hunit
  obtain ⟨a, ha, -⟩ := map_eq_ok_iff.mp hunit
  rcases carryOut_cases plan value with ⟨e, he, -⟩ | ⟨hok, -⟩
  · rw [he] at ha
    cases ha
  · exact hok

theorem insert_of_plan (h : l.Steady base) {r : R} {plan : Plan R}
    (hp : l.planInsert r = .ok plan) : (l.insert r).1.result = .ok () := by
  rw [insert_of_ok hp]
  exact h.carryOut_result (plans_insert hp) ()

theorem update_of_plan (h : l.Steady base) {r : R} {plan : Plan R}
    (hp : l.planUpdate r = .ok plan) : (l.update r).1.result = .ok () := by
  rw [update_of_ok hp]
  exact h.carryOut_result (plans_update h.ordered.tokens_nodup hp) ()

theorem remove_of_plan (h : l.Steady base) {token : String} {r : R} {plan : Plan R}
    (hp : l.planRemove token = .ok (r, plan)) : (l.remove token).1.result = .ok r := by
  rw [remove_of_ok hp]
  exact h.carryOut_result (plans_remove h.ordered.tokens_nodup hp) r

theorem exists_first (h : l.Steady base) {r : R}
    (found : ∀ token, l.Needs (.insert r) token → ¬ l.Lost token) :
    ∃ before, l.anchor l.records[l.records.findIdx (layout.precedes r)]? = .ok before := by
  refine h.housed.exists_anchor fun e he => ?_
  rw [← List.find?_eq_getElem?_findIdx] at he
  exact ⟨List.mem_of_find?_eq_some he, found _ (.first he)⟩

theorem exists_behind (h : l.Steady base) (ranked : layout.IsRanked) {r : R}
    (known : layout.token r ∈ l.tokens) (moves : ¬ l.Keeps r)
    (found : ∀ token, l.Needs (.update r) token → ¬ l.Lost token) :
    ∃ before, l.anchor (l.nextSorted? r) = .ok before := by
  refine h.housed.exists_anchor fun e he => ?_
  have hmem := (h.ordered.mem_of_nextSorted? ranked known he).1
  exact ⟨hmem, found _ (.behind moves he)⟩

/-- An update whose children are all found comes to an end just when its record is drawn. -/
theorem planUpdate_found (h : l.Steady base) (ranked : layout.IsRanked) {r : R}
    (known : layout.token r ∈ l.tokens)
    (found : ∀ token, l.Needs (.update r) token → ¬ l.Lost token) :
    ∃ finish : Element → Plan R, l.planUpdate r = do
      let node ← render layout r
      return finish node := by
  obtain ⟨child, hc⟩ := h.housed.exists_attached known (found _ (.own r))
  by_cases keeps : l.Keeps r
  · rw [h.ordered.planUpdate_of_keeps ranked known keeps, hc]
    exact ⟨_, rfl⟩
  · obtain ⟨before, ha⟩ := h.exists_behind ranked known keeps found
    rw [h.ordered.planUpdate_of_moves ranked known keeps, hc, ha]
    exact ⟨_, rfl⟩

theorem result_of_fails (h : l.Steady base) (ranked : layout.IsRanked) {op : Operation R}
    {e : ViewError} (hf : l.Fails op e) : (l.ask op).1.result = .error e := by
  cases hf with
  | duplicate known => rw [ask, insert_of_mem known]
  | @firstLost r next fresh first lost =>
    have hplan : l.planInsert r = .error (.missingMountNode (l.key (layout.token next))) := by
      rw [planInsert_of_not_mem fresh, ← List.find?_eq_getElem?_findIdx, first,
        anchor_of_lost lost]
      rfl
    rw [ask, insert_of_error hplan]
  | @newUndrawn r reason fresh found undrawn =>
    obtain ⟨before, ha⟩ := h.exists_first found
    have hplan : l.planInsert r = .error (.render (layout.token r) reason) := by
      rw [planInsert_of_not_mem fresh, ha, render_of_error undrawn]
      rfl
    rw [ask, insert_of_error hplan]
  | unknown unknown => rw [ask, update_of_not_mem unknown]
  | @ownLost r known lost =>
    have hplan : l.planUpdate r = .error (.missingMountNode (l.key (layout.token r))) := by
      by_cases keeps : l.Keeps r
      · rw [h.ordered.planUpdate_of_keeps ranked known keeps, attached_of_lost lost]
        rfl
      · rw [h.ordered.planUpdate_of_moves ranked known keeps, attached_of_lost lost]
        rfl
    rw [ask, update_of_error hplan]
  | @behindLost r next known own moves behind lost =>
    obtain ⟨child, hc⟩ := h.housed.exists_attached known own
    have hplan : l.planUpdate r = .error (.missingMountNode (l.key (layout.token next))) := by
      rw [h.ordered.planUpdate_of_moves ranked known moves, hc, behind, anchor_of_lost lost]
      rfl
    rw [ask, update_of_error hplan]
  | @undrawn r reason known found undrawn =>
    obtain ⟨finish, hfound⟩ := h.planUpdate_found ranked known found
    have hplan : l.planUpdate r = .error (.render (layout.token r) reason) := by
      rw [hfound, render_of_error undrawn]
      rfl
    rw [ask, update_of_error hplan]
  | removedUnknown unknown =>
    rw [result_ask_remove, remove_of_not_mem unknown]
    rfl
  | @removedLost token known lost =>
    obtain ⟨before, old, after, hs, rfl⟩ := exists_split known
    have hplan : l.planRemove (layout.token old) =
        .error (.missingMountNode (l.key (layout.token old))) := by
      rw [planRemove_split h.ordered.tokens_nodup hs, attached_of_lost lost]
      rfl
    rw [result_ask_remove, remove_of_error hplan]
    rfl

theorem remove_of_found (h : l.Steady base) {token : String} {r : R} (hr : l.get? token = some r)
    (hl : ¬ l.Lost token) : (l.remove token).1.result = .ok r := by
  have known := get?_isSome.mp (Option.isSome_of_eq_some hr)
  obtain ⟨child, hc⟩ := h.housed.exists_attached known hl
  have hplan : l.planRemove token = .ok (r,
      { edits := [.detach child]
        records := l.records.eraseP (layout.token · = token)
        nodes := l.nodes.erase token }) := by
    rw [planRemove, hr, hc]
    rfl
  exact h.remove_of_plan hplan

/-- An operation with none of the reasons to fail succeeds. -/
theorem ok_or_fails (h : l.Steady base) (ranked : layout.IsRanked) (op : Operation R) :
    (l.ask op).1.result = .ok () ∨ ∃ e, l.Fails op e := by
  -- the reasons are gone through in the order in which the operation meets them
  cases op with
  | insert r =>
    by_cases known : layout.token r ∈ l.tokens
    · exact .inr ⟨_, .duplicate known⟩
    by_cases hlost : ∃ token, l.Needs (.insert r) token ∧ l.Lost token
    · obtain ⟨token, ⟨first⟩, lost⟩ := hlost
      exact .inr ⟨_, .firstLost known first lost⟩
    have found : ∀ token, l.Needs (.insert r) token → ¬ l.Lost token :=
      fun token needed lost => hlost ⟨token, needed, lost⟩
    cases hn : layout.render r with
    | error reason => exact .inr ⟨_, .newUndrawn known found hn⟩
    | ok node =>
      obtain ⟨before, ha⟩ := h.exists_first found
      have hplan := planInsert_of_not_mem known
      rw [ha, render_of_ok hn] at hplan
      exact .inl (h.insert_of_plan hplan)
  | update r =>
    by_cases known : layout.token r ∈ l.tokens
    · by_cases own : l.Lost (layout.token r)
      · exact .inr ⟨_, .ownLost known own⟩
      by_cases hlost : ∃ token, l.Needs (.update r) token ∧ l.Lost token
      · obtain ⟨token, needed, lost⟩ := hlost
        cases needed with
        | own => exact absurd lost own
        | behind moves behind => exact .inr ⟨_, .behindLost known own moves behind lost⟩
      have found : ∀ token, l.Needs (.update r) token → ¬ l.Lost token :=
        fun token needed lost => hlost ⟨token, needed, lost⟩
      cases hn : layout.render r with
      | error reason => exact .inr ⟨_, .undrawn known found hn⟩
      | ok node =>
        obtain ⟨finish, hplan⟩ := h.planUpdate_found ranked known found
        rw [render_of_ok hn] at hplan
        exact .inl (h.update_of_plan hplan)
    · exact .inr ⟨_, .unknown known⟩
  | remove token =>
    cases hr : l.get? token with
    | none => exact .inr ⟨_, .removedUnknown (get?_eq_none.mp hr)⟩
    | some r =>
      by_cases lost : l.Lost token
      · have known := get?_isSome.mp (Option.isSome_of_eq_some hr)
        exact .inr ⟨_, .removedLost known lost⟩
      · left
        rw [result_ask_remove, h.remove_of_found hr lost]
        rfl
  | reset => exact .inl rfl

theorem fails_iff (h : l.Steady base) (ranked : layout.IsRanked) (op : Operation R)
    (e : ViewError) : (l.ask op).1.result = .error e ↔ l.Fails op e := by
  refine ⟨fun herror => ?_, h.result_of_fails ranked⟩
  rcases h.ok_or_fails ranked op with hok | ⟨reason, hf⟩
  · exact nomatch herror.symm.trans hok
  · obtain rfl : reason = e :=
      Except.error.inj ((h.result_of_fails ranked hf).symm.trans herror)
    exact hf

theorem succeeds_iff (h : l.Steady base) (ranked : layout.IsRanked) (op : Operation R) :
    (l.ask op).1.result = .ok () ↔ ∀ e, ¬ l.Fails op e := by
  constructor
  · intro hok e hf
    exact nomatch (h.result_of_fails ranked hf).symm.trans hok
  · intro hno
    refine (h.ok_or_fails ranked op).resolve_right ?_
    rintro ⟨e, hf⟩
    exact hno e hf

theorem removed_iff (h : l.Steady base) (ranked : layout.IsRanked) (token : String) (r : R) :
    (l.remove token).1.result = .ok r ↔ l.get? token = some r ∧ ¬ l.Lost token := by
  refine ⟨fun hok => ?_, fun ⟨hr, hl⟩ => h.remove_of_found hr hl⟩
  have hask : (l.ask (.remove token)).1.result = .ok () := by
    rw [result_ask_remove, hok]
    rfl
  have hno := (h.succeeds_iff ranked _).mp hask
  have known : token ∈ l.tokens := by
    by_contra unknown
    exact hno _ (.removedUnknown unknown)
  have hl : ¬ l.Lost token := fun lost => hno _ (.removedLost known lost)
  obtain ⟨found, hfound⟩ := Option.isSome_iff_exists.mp (get?_isSome.mpr known)
  obtain rfl : found = r := Except.ok.inj ((h.remove_of_found hfound hl).symm.trans hok)
  exact ⟨hfound, hl⟩

end Steady

/-- Which operations fail, and with what. -/
structure Judged (l : OrderedList layout) : Prop where
  housed : l.Housed
  fails_iff : ∀ (op : Operation R) (e : ViewError),
    (l.ask op).1.result = .error e ↔ l.Fails op e
  succeeds_iff : ∀ op : Operation R, (l.ask op).1.result = .ok () ↔ ∀ e, ¬ l.Fails op e
  removed_iff : ∀ (token : String) (r : R),
    (l.remove token).1.result = .ok r ↔ l.get? token = some r ∧ ¬ l.Lost token
  /-- A child that is gone is missed only by the operations that need it. -/
  missed : ∀ (op : Operation R) (key : String),
    (l.ask op).1.result = .error (.missingMountNode key) →
      ∃ token, l.Needs op token ∧ l.Lost token ∧ key = l.key token

theorem Fails.missed {op : Operation R} {key : String}
    (hf : l.Fails op (.missingMountNode key)) :
    ∃ token, l.Needs op token ∧ l.Lost token ∧ key = l.key token := by
  cases hf with
  | firstLost fresh first lost => exact ⟨_, .first first, lost, rfl⟩
  | ownLost known lost => exact ⟨_, .own _, lost, rfl⟩
  | behindLost known own moves behind lost => exact ⟨_, .behind moves behind, lost, rfl⟩
  | removedLost known lost => exact ⟨_, .removed _, lost, rfl⟩

/--
Whatever was asked of a list, and whatever others took out of its mount or put into it, an operation
fails just where a reason of its own says so, the first one that applies.
-/
theorem judged_live (ranked : layout.IsRanked) (base : String) (children : List Child)
    (next : Handle) (events : List (Event R)) (he : ∀ e ∈ events, e.isRefusal = false) :
    ((new layout { base, children, next }).live events).Judged := by
  have h := steady_live ranked base children next he
  exact
    { housed := h.housed
      fails_iff := h.fails_iff ranked
      succeeds_iff := h.succeeds_iff ranked
      removed_iff := h.removed_iff ranked
      missed := fun op key herror => ((h.fails_iff ranked op _).mp herror).missed }

/-- Where the first wallet has lost its child, the second can be updated, but not in front of it. -/
theorem judged_live_taken_child :
    let l := (new (Wallet.layout .ascending) { base := "wallets" }).live
      [.asked (.insert ⟨"a", 5, none⟩), .asked (.insert ⟨"b", 7, none⟩),
        .disturbed (.take "wallets-a")]
    l.Judged ∧ (l.ask (.update ⟨"b", 9, none⟩)).1.result = .ok () ∧
      (l.ask (.update ⟨"b", 4, none⟩)).1.result = .error (.missingMountNode "wallets-a") := by
  refine ⟨judged_live (Wallet.isRanked .ascending) "wallets" [] 0 _ (by decide), ?_, ?_⟩
  · decide +kernel
  · decide +kernel

end LiveFeed.OrderedList
