import LiveFeed.Proofs.MirrorRuns
import LiveFeed.Proofs.Verdicts

namespace LiveFeed

variable {R : Type} {layout : Layout R}

/-- The token of the record that an operation is about. -/
def Layout.subject? (layout : Layout R) : Operation R → Option String
  | .insert r | .update r => some (layout.token r)
  | .remove token => some token
  | .reset => none

namespace OrderedList

variable {α : Type} {l l' : OrderedList layout} {base : String}

/-- The child that was drawn for a token, with the key that it was drawn under. -/
def child? (l : OrderedList layout) (token : String) : Option Anchor :=
  (l.nodes.get? token).map (⟨·, l.key token⟩)

/-- The children other than that of a token. -/
def others (l : OrderedList layout) (token : String) : List Child :=
  l.mount.children.filter (l.nodes.get? token ≠ some ·.handle)

/-- These changes are made to the mount of a list, all of them and no others. -/
structure Makes (l : OrderedList layout) (edits : List Edit)
    (outcome : Answer α × OrderedList layout) : Prop where
  calls : outcome.1.calls = edits.map Edit.call
  mount : outcome.2.mount = (l.mount.performAll edits).mount

theorem child?_of_attached {token : String} {child : Anchor} (h : l.attached token = .ok child) :
    l.child? token = some child := by
  obtain ⟨hget, -, hkey⟩ := of_attached h
  rw [child?, hget, Option.map_some, ← hkey]

theorem child?_of_anchor {next : Option R} {before : Option Anchor}
    (h : l.anchor next = .ok before) :
    next.map (fun e => l.child? (layout.token e)) = before.map some := by
  cases next with
  | none =>
    obtain rfl := Except.ok.inj h
    rfl
  | some e =>
    obtain ⟨child, hc, rfl⟩ := map_eq_ok_iff.mp h
    rw [Option.map_some, child?_of_attached hc, Option.map_some]

theorem makes_of_ok {plan : Plan R} {value result : α}
    (hok : (l.carryOut plan value).1.result = .ok result) :
    l.Makes plan.edits (l.carryOut plan value) ∧
      (l.carryOut plan value).2.records = plan.records ∧
      (l.carryOut plan value).2.nodes = plan.nodes := by
  cases hfailed : (l.mount.performAll plan.edits).failed with
  | none =>
    have hcalls := Mount.performAll_calls hfailed
    refine ⟨⟨?_, ?_⟩, ?_, ?_⟩
    · simp only [carryOut, hfailed, hcalls]
    · simp only [carryOut, hfailed]
    · simp only [carryOut, hfailed]
    · simp only [carryOut, hfailed]
  | some anchor => simp [carryOut, hfailed] at hok

theorem exists_plan_of_insert {r : R} (hok : (l.insert r).1.result = .ok ()) :
    ∃ plan, l.planInsert r = .ok plan ∧ l.Makes plan.edits (l.insert r) ∧
      (l.insert r).2.records = plan.records ∧ (l.insert r).2.nodes = plan.nodes := by
  cases hplan : l.planInsert r with
  | error e =>
    rw [insert_of_error hplan] at hok
    cases hok
  | ok plan =>
    rw [insert_of_ok hplan] at hok ⊢
    exact ⟨plan, rfl, makes_of_ok hok⟩

theorem exists_plan_of_update {r : R} (hok : (l.update r).1.result = .ok ()) :
    ∃ plan, l.planUpdate r = .ok plan ∧ l.Makes plan.edits (l.update r) ∧
      (l.update r).2.records = plan.records ∧ (l.update r).2.nodes = plan.nodes := by
  cases hplan : l.planUpdate r with
  | error e =>
    rw [update_of_error hplan] at hok
    cases hok
  | ok plan =>
    rw [update_of_ok hplan] at hok ⊢
    exact ⟨plan, rfl, makes_of_ok hok⟩

theorem exists_plan_of_remove {token : String} {r : R}
    (hok : (l.remove token).1.result = .ok r) :
    ∃ found plan, l.planRemove token = .ok (found, plan) ∧
      l.Makes plan.edits (l.remove token) := by
  cases hplan : l.planRemove token with
  | error e =>
    rw [remove_of_error hplan] at hok
    cases hok
  | ok found =>
    obtain ⟨found, plan⟩ := found
    rw [remove_of_ok hplan] at hok ⊢
    exact ⟨found, plan, rfl, (makes_of_ok hok).1⟩

/-- A new element goes in front of the child of the record that follows, or to the end. -/
theorem Ordered.insert_makes (ranked : layout.IsRanked) (h : l.Ordered) {r : R}
    (hok : (l.insert r).1.result = .ok ()) :
    ∃ node before, layout.render r = .ok node ∧
      (layout.next? (layout.token r) (l.insert r).2.records).map
        (fun e => l.child? (layout.token e)) = before.map some ∧
      l.Makes [.place (l.key (layout.token r)) node before] (l.insert r) := by
  have fresh := (h.insert_records ranked hok).1
  obtain ⟨plan, hplan, hmakes, hrecords, -⟩ := exists_plan_of_insert hok
  rw [planInsert_of_not_mem fresh] at hplan
  obtain ⟨before, hbefore, hplan⟩ := exists_of_bind_eq_ok hplan
  obtain ⟨node, hnode, hplan⟩ := exists_of_bind_eq_ok hplan
  obtain rfl := Except.ok.inj hplan
  have hplace : l.records.findIdx (layout.precedes r) ≤ l.records.length :=
    List.findIdx_le_length
  rw [hrecords, Layout.next?_insertIdx fresh hplace]
  exact ⟨node, before, of_render hnode, child?_of_anchor hbefore, hmakes⟩

theorem mem_tokens_of_update {r : R} (hok : (l.update r).1.result = .ok ()) :
    layout.token r ∈ l.tokens := by
  by_contra unknown
  rw [update_of_not_mem unknown] at hok
  cases hok

theorem Ordered.update_makes_replace (ranked : layout.IsRanked) (h : l.Ordered) {r : R}
    (hok : (l.update r).1.result = .ok ()) (hk : l.Keeps r) :
    (∃ node child, layout.render r = .ok node ∧ l.child? (layout.token r) = some child ∧
      l.Makes [.replace child node] (l.update r)) ∧
    (l.update r).2.tokens = l.tokens ∧ (l.update r).2.nodes = l.nodes := by
  have known := mem_tokens_of_update hok
  obtain ⟨plan, hplan, hmakes, hrecords, hnodes⟩ := exists_plan_of_update hok
  rw [h.planUpdate_of_keeps ranked known hk] at hplan
  obtain ⟨child, hchild, hplan⟩ := exists_of_bind_eq_ok hplan
  obtain ⟨node, hnode, hplan⟩ := exists_of_bind_eq_ok hplan
  obtain rfl := Except.ok.inj hplan
  refine ⟨⟨node, child, of_render hnode, child?_of_attached hchild, hmakes⟩, ?_, hnodes⟩
  rw [tokens, hrecords, h.stableSort_exchange_of_keeps ranked known hk, map_token_exchange]

theorem Ordered.update_makes_move (ranked : layout.IsRanked) (h : l.Ordered) {r : R}
    (hok : (l.update r).1.result = .ok ()) (hk : ¬ l.Keeps r) :
    ∃ node child before, layout.render r = .ok node ∧
      l.child? (layout.token r) = some child ∧
      (layout.next? (layout.token r) (l.update r).2.records).map
        (fun e => l.child? (layout.token e)) = before.map some ∧
      l.Makes [.detach child, .place (l.key (layout.token r)) node before] (l.update r) := by
  have known := mem_tokens_of_update hok
  obtain ⟨plan, hplan, hmakes, hrecords, -⟩ := exists_plan_of_update hok
  rw [h.planUpdate_of_moves ranked known hk] at hplan
  obtain ⟨child, hchild, hplan⟩ := exists_of_bind_eq_ok hplan
  obtain ⟨before, hbefore, hplan⟩ := exists_of_bind_eq_ok hplan
  obtain ⟨node, hnode, hplan⟩ := exists_of_bind_eq_ok hplan
  obtain rfl := Except.ok.inj hplan
  have hnext := child?_of_anchor hbefore
  rw [hrecords]
  exact ⟨node, child, before, of_render hnode, child?_of_attached hchild, hnext, hmakes⟩

theorem remove_makes {token : String} {r : R} (hok : (l.remove token).1.result = .ok r) :
    ∃ child, l.child? token = some child ∧ l.Makes [.detach child] (l.remove token) := by
  obtain ⟨found, plan, hplan, hmakes⟩ := exists_plan_of_remove hok
  unfold planRemove at hplan
  split at hplan
  next => cases hplan
  next =>
    obtain ⟨child, hchild, hplan⟩ := exists_of_bind_eq_ok hplan
    obtain ⟨-, rfl⟩ := Prod.mk.inj (Except.ok.inj hplan)
    exact ⟨child, child?_of_attached hchild, hmakes⟩

theorem filter_append_cons {front back : List R} {r : R} :
    (front ++ r :: back).filter (layout.token · ≠ layout.token r) =
      (front ++ back).filter (layout.token · ≠ layout.token r) := by
  rw [List.filter_append, List.filter_append, List.filter_cons_of_neg (by simp)]

/-- A plan leaves the other records in their order and their children under their handles. -/
theorem Plans.others {op : Operation R} {plan : Plan R} (hp : l.Plans op plan) {token : String}
    (ht : layout.subject? op = some token) :
    plan.records.filter (layout.token · ≠ token) = l.records.filter (layout.token · ≠ token) ∧
      ∀ s, s ≠ token → plan.nodes.get? s = l.nodes.get? s := by
  cases hp with
  | insert records =>
    obtain rfl := Option.some.inj ht
    refine ⟨?_, fun s hs => ?_⟩
    · rw [records, filter_append_cons]
    · rw [Nodes.get?_insert, if_neg hs]
  | replace records same =>
    obtain rfl := Option.some.inj ht
    refine ⟨?_, fun s _ => rfl⟩
    rw [records, filter_append_cons, ← same, filter_append_cons]
  | move records same rest =>
    obtain rfl := Option.some.inj ht
    refine ⟨?_, fun s hs => ?_⟩
    · rw [records, filter_append_cons, ← same, filter_append_cons, rest]
    · rw [Nodes.get?_insert, if_neg hs]
  | remove records =>
    obtain rfl := Option.some.inj ht
    refine ⟨?_, fun s hs => ?_⟩
    · rw [records, filter_append_cons]
    · rw [Nodes.get?_erase, if_neg hs]

theorem ask_others (hd : l.tokens.Nodup) {op : Operation R} {token : String}
    (ht : layout.subject? op = some token) :
    (l.ask op).2.records.filter (layout.token · ≠ token) =
        l.records.filter (layout.token · ≠ token) ∧
      ∀ s, s ≠ token → (l.ask op).2.nodes.get? s = l.nodes.get? s := by
  rcases OrderedList.ask_cases hd op with rfl | ⟨e, he⟩ | ⟨plan, hp, he⟩
  · cases ht
  · rw [he]
    exact ⟨rfl, fun _ _ => rfl⟩
  · rw [he]
    rcases carryOut_cases plan () with ⟨e, -, hrecords, hnodes⟩ | ⟨-, hrecords, hnodes⟩
    · rw [hrecords, hnodes]
      exact ⟨rfl, fun _ _ => rfl⟩
    · rw [hrecords, hnodes]
      exact hp.others ht

namespace Mirrored

/-- The other children are the pictures of the other records. -/
theorem map_others (h : l.Mirrored base) (token : String) :
    (l.others token).map some =
      (l.records.filter (layout.token · ≠ token)).map (l.nodes.picture layout base) := by
  let other (c : Option Child) : Bool := l.nodes.get? token ≠ c.map (·.handle)
  have hother : ∀ e ∈ l.records,
      (other ∘ l.nodes.picture layout base) e = decide (layout.token e ≠ token) := by
    intro e he
    obtain ⟨c, -, hc⟩ := h.picture_of_mem he
    have hget := (Nodes.picture_eq_some_iff.mp hc).1
    have hiff : l.nodes.get? token = some c.handle ↔ layout.token e = token :=
      ⟨fun ht => h.injective _ _ _ hget ht, fun heq => heq ▸ hget⟩
    simp [other, hc, hiff]
  have hfilter : (l.mount.children.map some).filter other = (l.others token).map some :=
    List.filter_map
  calc (l.others token).map some
      = (l.mount.children.map some).filter other := hfilter.symm
    _ = (l.records.map (l.nodes.picture layout base)).filter other := by rw [h.pictures]
    _ = (l.records.filter (other ∘ l.nodes.picture layout base)).map
          (l.nodes.picture layout base) := List.filter_map
    _ = _ := by rw [List.filter_congr hother]

theorem others_eq (h : l.Mirrored base) (h' : l'.Mirrored base) {token : String}
    (hrecords : l'.records.filter (layout.token · ≠ token) =
      l.records.filter (layout.token · ≠ token))
    (hnodes : ∀ s, s ≠ token → l'.nodes.get? s = l.nodes.get? s) :
    l'.others token = l.others token := by
  have hmap : (l'.others token).map some = (l.others token).map some := by
    rw [h'.map_others, h.map_others, hrecords]
    refine Nodes.map_picture_congr fun e he => hnodes _ ?_
    simpa using (List.mem_filter.mp he).2
  exact (List.map_inj_right fun _ _ => Option.some.inj).mp hmap

theorem handles_congr (h : l.Mirrored base) (h' : l'.Mirrored base)
    (htokens : l'.tokens = l.tokens) (hnodes : l'.nodes = l.nodes) :
    l'.mount.handles = l.mount.handles := by
  have hmap : l'.mount.handles.map some = l.mount.handles.map some := by
    rw [← h'.handles_eq, ← h.handles_eq, hnodes]
    exact congrArg (List.map l.nodes.get?) htokens
  exact (List.map_inj_right fun _ _ => Option.some.inj).mp hmap

end Mirrored

/-- What the operations of a list change in its mount, and that they change no more than that. -/
structure Frugal (l : OrderedList layout) : Prop where
  insert : ∀ r, (l.insert r).1.result = .ok () → ∃ node before, layout.render r = .ok node ∧
    (layout.next? (layout.token r) (l.insert r).2.records).map
      (fun e => l.child? (layout.token e)) = before.map some ∧
    l.Makes [.place (l.key (layout.token r)) node before] (l.insert r)
  replace : ∀ r, (l.update r).1.result = .ok () → l.Keeps r →
    (∃ node child, layout.render r = .ok node ∧ l.child? (layout.token r) = some child ∧
      l.Makes [.replace child node] (l.update r)) ∧
    (l.update r).2.nodes = l.nodes ∧ (l.update r).2.mount.handles = l.mount.handles
  move : ∀ r, (l.update r).1.result = .ok () → ¬ l.Keeps r → ∃ node child before,
    layout.render r = .ok node ∧ l.child? (layout.token r) = some child ∧
    (layout.next? (layout.token r) (l.update r).2.records).map
      (fun e => l.child? (layout.token e)) = before.map some ∧
    l.Makes [.detach child, .place (l.key (layout.token r)) node before] (l.update r)
  remove : ∀ token r, (l.remove token).1.result = .ok r →
    ∃ child, l.child? token = some child ∧ l.Makes [.detach child] (l.remove token)
  failed : ∀ (op : Operation R) (e : ViewError), (l.ask op).1.result = .error e →
    l.ask op = (⟨.error e, []⟩, l)
  others : ∀ (op : Operation R) (token : String), layout.subject? op = some token →
    (l.ask op).2.others token = l.others token ∧
      ∀ s, s ≠ token → (l.ask op).2.nodes.get? s = l.nodes.get? s

theorem run_eq_live (l : OrderedList layout) (ops : List (Operation R)) :
    l.run ops = l.live (ops.map .asked) := by
  rw [run, live, List.foldl_map]
  rfl

/--
Whatever was asked of a list, an operation makes the fewest calls that lead to the new sequence, and
no child but its own is touched.
-/
theorem frugal_run (ranked : layout.IsRanked) (base : String) (children : List Child)
    (next : Handle) (ops : List (Operation R)) :
    ((new layout { base, children, next }).run ops).Frugal := by
  have start : (new layout { base, children, next }).Mirrored base := mirrored_clear rfl rfl
  have mirrored := start.run ops
  have steady : ((new layout { base, children, next }).run ops).Steady base := by
    rw [run_eq_live]
    refine steady_live ranked base children next fun e he => ?_
    obtain ⟨op, -, rfl⟩ := List.mem_map.mp he
    rfl
  exact
    { insert := fun r hok => steady.ordered.insert_makes ranked hok
      replace := fun r hok hk => by
        obtain ⟨hmakes, htokens, hnodes⟩ := steady.ordered.update_makes_replace ranked hok hk
        exact ⟨hmakes, hnodes, mirrored.handles_congr (mirrored.update r) htokens hnodes⟩
      move := fun r hok hk => steady.ordered.update_makes_move ranked hok hk
      remove := fun token r hok => remove_makes hok
      failed := fun op e he => steady.tracked.ask_eq_of_error steady.willing he
      others := fun op token ht => by
        obtain ⟨hrecords, hnodes⟩ := ask_others mirrored.tokens_nodup ht
        have hafter : (((new layout { base, children, next }).run ops).ask op).2.Mirrored base := by
          rw [snd_ask]
          exact mirrored.apply op
        exact ⟨mirrored.others_eq hafter hrecords hnodes, hnodes⟩ }

/-- The second of three wallets is drawn anew in its place, and then moved to the front. -/
theorem frugal_run_wallets :
    let l := (new (Wallet.layout .ascending) { base := "wallets" }).run
      [.insert ⟨"a", 5, none⟩, .insert ⟨"b", 7, none⟩, .insert ⟨"c", 9, none⟩]
    l.Frugal ∧ (l.update ⟨"b", 8, none⟩).1.calls = [.replace "wallets-b"] ∧
      (l.update ⟨"b", 4, none⟩).1.calls =
        [.detach "wallets-b", .insertBefore "wallets-b" "wallets-a"] := by
  refine ⟨frugal_run (Wallet.isRanked .ascending) "wallets" [] 0 _, ?_, ?_⟩
  · decide +kernel
  · decide +kernel

end OrderedList

end LiveFeed
