import LiveFeed.Proofs.StableOrder

namespace LiveFeed

variable {R : Type} {layout : Layout R}

namespace Layout

/-- Where the record with a token stands. -/
def indexOf (layout : Layout R) (token : String) (rs : List R) : Nat :=
  rs.findIdx (layout.token · = token)

/-- The record that follows the one with a token. -/
def next? (layout : Layout R) (token : String) (rs : List R) : Option R :=
  rs[layout.indexOf token rs + 1]?

theorem indexOf_split {front back : List R} {r : R}
    (hf : ∀ e ∈ front, layout.token e ≠ layout.token r) :
    layout.indexOf (layout.token r) (front ++ r :: back) = front.length := by
  have hno : front.findIdx (layout.token · = layout.token r) = front.length :=
    List.findIdx_eq_length.mpr (by simpa using hf)
  rw [indexOf, List.findIdx_append, hno, if_neg (Nat.lt_irrefl _), List.findIdx_cons]
  simp

theorem indexOf_insertIdx {rs : List R} {r : R} (hr : layout.token r ∉ rs.map layout.token)
    {i : Nat} (hi : i ≤ rs.length) :
    layout.indexOf (layout.token r) (rs.insertIdx i r) = i := by
  have hlen : (rs.take i).length = i := List.length_take_of_le hi
  have hinsert := insertIdx_append_length (rs.take i) (rs.drop i) r
  rw [List.take_append_drop, hlen] at hinsert
  have hfront : ∀ e ∈ rs.take i, layout.token e ≠ layout.token r := fun e he heq =>
    hr (heq ▸ List.mem_map_of_mem (List.mem_of_mem_take he))
  rw [hinsert, indexOf_split hfront, hlen]

/-- What stood at the place of a new record follows it. -/
theorem next?_insertIdx {rs : List R} {r : R} (hr : layout.token r ∉ rs.map layout.token)
    {i : Nat} (hi : i ≤ rs.length) :
    layout.next? (layout.token r) (rs.insertIdx i r) = rs[i]? := by
  rw [next?, indexOf_insertIdx hr hi, List.getElem?_insertIdx_of_gt (Nat.lt_succ_self i),
    Nat.succ_sub_one]

theorem place_le (layout : Layout R) (r : R) (before after : List R) :
    layout.place r before after ≤ (before ++ after).length := by
  obtain ⟨front, back, hsplit, hplace⟩ := layout.place_split r before after
  rw [hplace, hsplit, List.length_append]
  exact Nat.le_add_right _ _

end Layout

namespace OrderedList

variable {l : OrderedList layout} {r old : R} {before after : List R}

/-- An update leaves the record at its index if stable sorting does. -/
def Keeps (l : OrderedList layout) (r : R) : Prop :=
  layout.indexOf (layout.token r) (layout.stableSort (l.exchange r)) =
    layout.indexOf (layout.token r) l.records

/-- The record that a stored one is followed by once stable sorting has put it in its place. -/
def nextSorted? (l : OrderedList layout) (r : R) : Option R :=
  layout.next? (layout.token r) (layout.stableSort (l.exchange r))

namespace Ordered

/-- Stable sorting takes a changed record to the place that a scan finds for it. -/
theorem stableSort_exchange (ranked : layout.IsRanked) (h : l.Ordered)
    (hs : l.records = before ++ old :: after) (ho : layout.token old = layout.token r) :
    layout.stableSort (l.exchange r) =
      (before ++ after).insertIdx (layout.place r before after) r := by
  rw [exchange_eq h.tokens_nodup hs ho]
  exact (Layout.insertIdx_place ranked (h.rest hs).2).symm

theorem keeps_iff (ranked : layout.IsRanked) (h : l.Ordered)
    (hs : l.records = before ++ old :: after) (ho : layout.token old = layout.token r) :
    l.Keeps r ↔ layout.place r before after = before.length := by
  have hfresh := token_not_mem h.tokens_nodup hs
  have hbefore := (token_ne h.tokens_nodup hs).1
  rw [ho] at hfresh
  rw [Keeps, h.stableSort_exchange ranked hs ho,
    Layout.indexOf_insertIdx hfresh (layout.place_le r before after), hs, ← ho,
    Layout.indexOf_split hbefore]

theorem nextSorted?_eq (ranked : layout.IsRanked) (h : l.Ordered)
    (hs : l.records = before ++ old :: after) (ho : layout.token old = layout.token r) :
    l.nextSorted? r = (before ++ after)[layout.place r before after]? := by
  have hfresh := token_not_mem h.tokens_nodup hs
  rw [ho] at hfresh
  rw [nextSorted?, h.stableSort_exchange ranked hs ho,
    Layout.next?_insertIdx hfresh (layout.place_le r before after)]

/-- A record that keeps its index leaves nothing to sort. -/
theorem stableSort_exchange_of_keeps (ranked : layout.IsRanked) (h : l.Ordered)
    (hr : layout.token r ∈ l.tokens) (hk : l.Keeps r) :
    layout.stableSort (l.exchange r) = l.exchange r := by
  obtain ⟨before, old, after, hs, ho⟩ := exists_split hr
  have hplace := (h.keeps_iff ranked hs ho).mp hk
  rw [h.stableSort_exchange ranked hs ho, hplace, insertIdx_append_length,
    exchange_eq h.tokens_nodup hs ho]

/-- The record behind the place of a changed one is another one of the list. -/
theorem mem_of_nextSorted? (ranked : layout.IsRanked) (h : l.Ordered)
    (hr : layout.token r ∈ l.tokens) {next : R} (hn : l.nextSorted? r = some next) :
    next ∈ l.records ∧ layout.token next ≠ layout.token r := by
  obtain ⟨before, old, after, hs, ho⟩ := exists_split hr
  rw [h.nextSorted?_eq ranked hs ho] at hn
  have hmem := List.mem_of_getElem? hn
  refine ⟨mem_of_rest hs hmem, fun heq => ?_⟩
  exact token_not_mem h.tokens_nodup hs (ho ▸ heq ▸ List.mem_map_of_mem hmem)

/-- An update that keeps the index needs the child of its own record and no other. -/
theorem planUpdate_of_keeps (ranked : layout.IsRanked) (h : l.Ordered)
    (hr : layout.token r ∈ l.tokens) (hk : l.Keeps r) :
    l.planUpdate r = do
      let child ← l.attached (layout.token r)
      let node ← render layout r
      return {
        edits := [.replace child node]
        records := layout.stableSort (l.exchange r)
        nodes := l.nodes } := by
  obtain ⟨before, old, after, hs, ho⟩ := exists_split hr
  have hplace := (h.keeps_iff ranked hs ho).mp hk
  rw [planUpdate_split h.tokens_nodup hs ho, h.stableSort_exchange ranked hs ho, hplace,
    insertIdx_append_length]
  simp only [if_true]

/-- An update that moves its record also needs the child of the one behind the new place. -/
theorem planUpdate_of_moves (ranked : layout.IsRanked) (h : l.Ordered)
    (hr : layout.token r ∈ l.tokens) (hk : ¬ l.Keeps r) :
    l.planUpdate r = do
      let child ← l.attached (layout.token r)
      let before ← l.anchor (l.nextSorted? r)
      let node ← render layout r
      return {
        edits := [.detach child, .place (l.key (layout.token r)) node before]
        records := layout.stableSort (l.exchange r)
        nodes := l.nodes.insert (layout.token r) l.mount.next } := by
  obtain ⟨before, old, after, hs, ho⟩ := exists_split hr
  have hplace := mt (h.keeps_iff ranked hs ho).mpr hk
  rw [planUpdate_split h.tokens_nodup hs ho, h.stableSort_exchange ranked hs ho,
    h.nextSorted?_eq ranked hs ho]
  simp only [if_neg hplace]

end Ordered

end OrderedList

end LiveFeed
