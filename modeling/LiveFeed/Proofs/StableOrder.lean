import Mathlib.Data.List.Nodup
import LiveFeed.Proofs.Plans
import LiveFeed.Proofs.RegionOrders
import LiveFeed.Proofs.Runs

namespace LiveFeed.OrderedList

variable {R : Type} {layout : Layout R} {l l' : OrderedList layout}

/-- Each token stands for one record, and the records are sorted. -/
structure Ordered (l : OrderedList layout) : Prop where
  tokens_nodup : l.tokens.Nodup
  sorted : layout.Sorted l.records

namespace Ordered

theorem of_eq {rs : List R} (he : l.records = rs) (hd : (rs.map layout.token).Nodup)
    (hs : layout.Sorted rs) : l.Ordered := by
  subst he
  exact ⟨hd, hs⟩

theorem congr (h : l.Ordered) (he : l'.records = l.records) : l'.Ordered :=
  of_eq he h.tokens_nodup h.sorted

theorem of_nil (h : l.records = []) : l.Ordered := of_eq h List.nodup_nil List.Pairwise.nil

/-- Records from which one is taken are still ordered. -/
theorem rest (h : l.Ordered) {before after : List R} {old : R}
    (hs : l.records = before ++ old :: after) :
    ((before ++ after).map layout.token).Nodup ∧ layout.Sorted (before ++ after) := by
  have hsub : (before ++ after).Sublist l.records := by
    rw [hs]
    exact sublist_append_cons before after old
  exact ⟨h.tokens_nodup.sublist (hsub.map layout.token), h.sorted.sublist hsub⟩

/-- A record whose token is new may join ordered records at its place. -/
theorem placed (ranked : layout.IsRanked) (r : R) (before after : List R)
    (hd : ((before ++ after).map layout.token).Nodup) (hs : layout.Sorted (before ++ after))
    (hr : layout.token r ∉ (before ++ after).map layout.token)
    (he : l.records = (before ++ after).insertIdx (layout.place r before after) r) :
    l.Ordered := by
  refine of_eq he ?_ (Layout.sorted_insertIdx_place ranked hs)
  obtain ⟨front, back, hsplit, hp⟩ := layout.place_split r before after
  rw [hsplit] at hd hr
  rw [hsplit, hp, insertIdx_append_length, List.map_append, List.map_cons, List.nodup_middle,
    ← List.map_append]
  exact List.nodup_cons.mpr ⟨hr, hd⟩

theorem apply (ranked : layout.IsRanked) (h : l.Ordered) (op : Operation R) :
    (l.apply op).Ordered := by
  cases op with
  | insert r =>
    rcases l.insert_cases r with ⟨e, -, he⟩ | ⟨-, hr, he⟩
    · exact h.congr he
    · refine placed ranked r l.records [] ?_ ?_ ?_ ?_
      · rw [List.append_nil]
        exact h.tokens_nodup
      · rw [List.append_nil]
        exact h.sorted
      · rw [List.append_nil]
        exact hr
      · rw [List.append_nil, Layout.place_nil]
        exact he
  | update r =>
    by_cases hr : layout.token r ∈ l.tokens
    · obtain ⟨before, old, after, hs, ho⟩ := exists_split hr
      rcases update_cases h.tokens_nodup hs ho with ⟨e, -, he⟩ | ⟨-, he⟩
      · exact h.congr he
      · obtain ⟨hd, hsorted⟩ := h.rest hs
        exact placed ranked r before after hd hsorted (ho ▸ token_not_mem h.tokens_nodup hs) he
    · exact h.congr (by rw [OrderedList.apply, update_of_not_mem hr])
  | remove token =>
    by_cases ht : token ∈ l.tokens
    · obtain ⟨before, old, after, hs, rfl⟩ := exists_split ht
      rcases remove_cases h.tokens_nodup hs with ⟨e, -, he⟩ | ⟨-, he⟩
      · exact h.congr he
      · obtain ⟨hd, hsorted⟩ := h.rest hs
        exact of_eq he hd hsorted
    · exact h.congr (by rw [OrderedList.apply, remove_of_not_mem ht])
  | reset => exact of_nil rfl

theorem run (ranked : layout.IsRanked) (h : l.Ordered) (ops : List (Operation R)) :
    (l.run ops).Ordered :=
  run_keeps (fun _ op hl => hl.apply ranked op) h ops

theorem meet (ranked : layout.IsRanked) (h : l.Ordered) (e : Event R) : (l.meet e).Ordered := by
  cases e with
  | asked op => exact h.apply ranked op
  | disturbed i => cases i <;> exact h.congr rfl

end Ordered

/-- The records with another in the place of the one that has its token. -/
def exchange (l : OrderedList layout) (r : R) : List R :=
  l.records.map fun e => if layout.token e = layout.token r then r else e

theorem exchange_eq {r old : R} {before after : List R} (hd : l.tokens.Nodup)
    (hs : l.records = before ++ old :: after) (ho : layout.token old = layout.token r) :
    l.exchange r = before ++ r :: after := by
  obtain ⟨hb, ha⟩ := token_ne hd hs
  rw [ho] at hb ha
  have keep {es : List R} (h : ∀ e ∈ es, layout.token e ≠ layout.token r) :
      (es.map fun e => if layout.token e = layout.token r then r else e) = es :=
    (List.map_congr_left fun e he => if_neg (h e he)).trans (List.map_id' es)
  rw [exchange, hs, List.map_append, List.map_cons, keep hb, keep ha, if_pos ho]

theorem map_token_exchange (l : OrderedList layout) (r : R) :
    (l.exchange r).map layout.token = l.tokens := by
  rw [exchange, tokens, List.map_map]
  refine List.map_congr_left fun e _ => ?_
  by_cases he : layout.token e = layout.token r
  · simp [he]
  · simp [he]

theorem filter_token_ne {old : R} {before after : List R} (hd : l.tokens.Nodup)
    (hs : l.records = before ++ old :: after) :
    l.records.filter (layout.token · ≠ layout.token old) = before ++ after := by
  obtain ⟨hb, ha⟩ := token_ne hd hs
  rw [hs, List.filter_append, List.filter_cons_of_neg (by simp),
    List.filter_eq_self.mpr (by simpa using hb), List.filter_eq_self.mpr (by simpa using ha)]

namespace Ordered

theorem insert_records (ranked : layout.IsRanked) (h : l.Ordered) {r : R}
    (hok : (l.insert r).1.result = .ok ()) :
    layout.token r ∉ l.tokens ∧
      (l.insert r).2.records = layout.stableSort (l.records ++ [r]) := by
  rcases l.insert_cases r with ⟨e, herror, -⟩ | ⟨-, hr, he⟩
  · exact nomatch herror.symm.trans hok
  · have hsorted : layout.Sorted (l.records ++ []) := by
      rw [List.append_nil]
      exact h.sorted
    have hplace := Layout.insertIdx_place ranked (r := r) hsorted
    rw [List.append_nil, Layout.place_nil] at hplace
    exact ⟨hr, he.trans hplace⟩

theorem update_records (ranked : layout.IsRanked) (h : l.Ordered) {r : R}
    (hok : (l.update r).1.result = .ok ()) :
    (l.update r).2.records = layout.stableSort (l.exchange r) := by
  by_cases hr : layout.token r ∈ l.tokens
  · obtain ⟨before, old, after, hs, ho⟩ := exists_split hr
    rcases update_cases h.tokens_nodup hs ho with ⟨e, herror, -⟩ | ⟨-, he⟩
    · exact nomatch herror.symm.trans hok
    · rw [he, exchange_eq h.tokens_nodup hs ho]
      exact Layout.insertIdx_place ranked (h.rest hs).2
  · rw [update_of_not_mem hr] at hok
    simp at hok

theorem remove_records (h : l.Ordered) {token : String} {r : R}
    (hok : (l.remove token).1.result = .ok r) :
    (l.remove token).2.records = l.records.filter (layout.token · ≠ token) := by
  by_cases ht : token ∈ l.tokens
  · obtain ⟨before, old, after, hs, rfl⟩ := exists_split ht
    rcases remove_cases h.tokens_nodup hs with ⟨e, herror, -⟩ | ⟨-, he⟩
    · exact nomatch herror.symm.trans hok
    · rw [he, filter_token_ne h.tokens_nodup hs]
  · rw [remove_of_not_mem ht] at hok
    simp at hok

/-- An update that keeps the rank of a record keeps its index and all the others. -/
theorem update_records_of_tied (ranked : layout.IsRanked) (h : l.Ordered) {i : Nat} {old r : R}
    (hi : l.records[i]? = some old) (ho : layout.token old = layout.token r)
    (ht : layout.tied old r) (hok : (l.update r).1.result = .ok ()) :
    (l.update r).2.records = l.records.set i r := by
  obtain ⟨hlt, hget⟩ := List.getElem?_eq_some_iff.mp hi
  have hlen : (l.records.take i).length = i := List.length_take_of_le (Nat.le_of_lt hlt)
  have hs : l.records = l.records.take i ++ old :: l.records.drop (i + 1) := by
    rw [← hget, List.getElem_cons_drop, List.take_append_drop]
  rcases update_cases h.tokens_nodup hs ho with ⟨e, herror, -⟩ | ⟨-, he⟩
  · exact nomatch herror.symm.trans hok
  · rw [he, Layout.place_of_tied ranked (hs ▸ h.sorted) ht, insertIdx_append_length]
    conv => rhs; rw [hs]
    rw [List.set_append_right _ _ (Nat.le_of_eq hlen), hlen, Nat.sub_self, List.set_cons_zero]

/-- All that an operation can do to the records. -/
theorem apply_cases (ranked : layout.IsRanked) (h : l.Ordered) (op : Operation R) :
    (l.apply op).records.Sublist l.records ∨
    (∃ r, layout.token r ∉ l.tokens ∧
      (l.apply op).records = layout.stableSort (l.records ++ [r])) ∨
    ∃ r, (l.apply op).records = layout.stableSort (l.exchange r) := by
  cases op with
  | insert r =>
    rcases l.insert_cases r with ⟨e, -, he⟩ | ⟨hok, -, -⟩
    · exact Or.inl (by rw [OrderedList.apply, he])
    · exact Or.inr (Or.inl ⟨r, h.insert_records ranked hok⟩)
  | update r =>
    by_cases hr : layout.token r ∈ l.tokens
    · obtain ⟨before, old, after, hs, ho⟩ := exists_split hr
      rcases update_cases h.tokens_nodup hs ho with ⟨e, -, he⟩ | ⟨hok, -⟩
      · exact Or.inl (by rw [OrderedList.apply, he])
      · exact Or.inr (Or.inr ⟨r, h.update_records ranked hok⟩)
    · left
      rw [OrderedList.apply, update_of_not_mem hr]
  | remove token =>
    left
    by_cases hm : token ∈ l.tokens
    · obtain ⟨before, old, after, hs, rfl⟩ := exists_split hm
      rcases remove_cases h.tokens_nodup hs with ⟨e, -, he⟩ | ⟨hok, -⟩
      · rw [OrderedList.apply, he]
      · rw [OrderedList.apply, h.remove_records hok]
        exact List.filter_sublist
    · rw [OrderedList.apply, remove_of_not_mem hm]
  | reset => exact Or.inl (List.nil_sublist l.records)

/-- Records of equal rank after an operation stand as those with their tokens stood before it. -/
theorem stands (ranked : layout.IsRanked) (h : l.Ordered) {op : Operation R} {a b : R}
    (hab : [a, b].Sublist (l.apply op).records) (ht : layout.tied a b)
    (ha : layout.token a ∈ l.tokens) (hb : layout.token b ∈ l.tokens) :
    [layout.token a, layout.token b].Sublist l.tokens := by
  rcases h.apply_cases ranked op with hsub | ⟨r, hr, he⟩ | ⟨r, he⟩
  · exact (hab.trans hsub).map layout.token
  · rw [he] at hab
    have hsub := (Layout.sublist_of_sublist_stableSort ranked ht hab).map layout.token
    rw [List.map_append] at hsub
    -- the new token stands at the end and is neither of the two
    have hal : layout.token a ≠ layout.token r := fun heq => hr (heq ▸ ha)
    have hbl : layout.token b ≠ layout.token r := fun heq => hr (heq ▸ hb)
    have hf := hsub.filter (· ≠ layout.token r)
    simp [hal, hbl] at hf
    exact hf.trans List.filter_sublist
  · rw [he] at hab
    have hsub := (Layout.sublist_of_sublist_stableSort ranked ht hab).map layout.token
    rw [map_token_exchange] at hsub
    exact hsub

end Ordered

/-- What holds of a list whose order is that of stable sorting, whatever comes next. -/
structure StablySorted (l : OrderedList layout) : Prop where
  tokens_nodup : l.tokens.Nodup
  sorted : layout.Sorted l.records
  insert : ∀ r, (l.insert r).1.result = .ok () →
    (l.insert r).2.records = layout.stableSort (l.records ++ [r])
  update : ∀ r, (l.update r).1.result = .ok () →
    (l.update r).2.records = layout.stableSort (l.exchange r)
  remove : ∀ token r, (l.remove token).1.result = .ok r →
    (l.remove token).2.records = l.records.filter (layout.token · ≠ token)
  /-- Records of equal rank never swap. -/
  stands : ∀ (op : Operation R) (a b : R), [a, b].Sublist (l.apply op).records →
    layout.tied a b → layout.token a ∈ l.tokens → layout.token b ∈ l.tokens →
      [layout.token a, layout.token b].Sublist l.tokens
  /-- An update that does not change the rank keeps the index. -/
  in_place : ∀ (i : Nat) (old r : R), l.records[i]? = some old →
    layout.token old = layout.token r → layout.tied old r → (l.update r).1.result = .ok () →
      (l.update r).2.records = l.records.set i r

/--
Whatever is asked of a list and whatever others do to its mount, a scan puts every record where
stable sorting would put it.
-/
theorem stablySorted_live (ranked : layout.IsRanked) (mount : Mount) (events : List (Event R)) :
    ((new layout mount).live events).StablySorted := by
  have start : (new layout mount).Ordered := Ordered.of_nil rfl
  have h := live_keeps (fun _ e hl => hl.meet ranked e) start events
  exact
    { tokens_nodup := h.tokens_nodup
      sorted := h.sorted
      insert := fun _ hok => (h.insert_records ranked hok).2
      update := fun _ hok => h.update_records ranked hok
      remove := fun _ _ hok => h.remove_records hok
      stands := fun _ _ _ hab ht ha hb => h.stands ranked hab ht ha hb
      in_place := fun _ _ _ hi ho ht hok => h.update_records_of_tied ranked hi ho ht hok }

theorem stablySorted_live_wallets :
    (Wallet.layout .descending).IsRanked ∧
    ((new (Wallet.layout .descending) (.new "wallets")).live
      [.asked (.insert ⟨"a", 5, none⟩), .asked (.insert ⟨"b", 5, none⟩),
        .disturbed (.take "wallets-a"), .asked (.update ⟨"b", 7, none⟩),
        .asked (.remove "b")]).StablySorted :=
  ⟨Wallet.isRanked .descending, stablySorted_live (Wallet.isRanked .descending) _ _⟩

end LiveFeed.OrderedList
