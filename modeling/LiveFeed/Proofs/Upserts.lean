import Mathlib.Data.List.InsertIdx
import LiveFeed.Dispatcher
import LiveFeed.Proofs.MirrorRuns

namespace LiveFeed

namespace OrderedList

variable {R : Type} {layout : Layout R} {l : OrderedList layout} {base : String}

theorem get?_isSome {token : String} : (l.get? token).isSome = true ↔ token ∈ l.tokens := by
  rw [← not_iff_not, Bool.not_eq_true, Option.isSome_eq_false_iff, Option.isNone_iff_eq_none,
    get?_eq_none]

theorem upsert_of_mem {r : R} (h : layout.token r ∈ l.tokens) : l.upsert r = l.update r := by
  rw [upsert, if_pos (get?_isSome.mpr h)]

theorem upsert_of_not_mem {r : R} (h : layout.token r ∉ l.tokens) : l.upsert r = l.insert r := by
  rw [upsert, if_neg (by rwa [get?_isSome])]

theorem removeIfPresent_of_not_mem {token : String} (h : token ∉ l.tokens) :
    l.removeIfPresent token = (.ok false, l) := by
  rw [removeIfPresent, if_neg (by rwa [get?_isSome])]

theorem mem_of_mem_insert {r x : R} (hx : x ∈ (l.insert r).2.records) :
    x = r ∨ x ∈ l.records := by
  rcases l.insert_cases r with ⟨e, -, he⟩ | ⟨-, -, he⟩
  · rw [he] at hx
    exact Or.inr hx
  · rw [he] at hx
    exact List.eq_or_mem_of_mem_insertIdx hx

theorem mem_of_mem_update (hd : l.tokens.Nodup) {r x : R} (hx : x ∈ (l.update r).2.records) :
    x = r ∨ x ∈ l.records := by
  by_cases hr : layout.token r ∈ l.tokens
  · obtain ⟨before, old, after, hs, ho⟩ := exists_split hr
    rcases update_cases hd hs ho with ⟨e, -, he⟩ | ⟨-, he⟩
    · rw [he] at hx
      exact Or.inr hx
    · rw [he] at hx
      exact (List.eq_or_mem_of_mem_insertIdx hx).imp_right (mem_of_rest hs)
  · rw [update_of_not_mem hr] at hx
    exact Or.inr hx

theorem mem_of_mem_upsert (hd : l.tokens.Nodup) {r x : R} (hx : x ∈ (l.upsert r).2.records) :
    x = r ∨ x ∈ l.records := by
  by_cases hr : layout.token r ∈ l.tokens
  · rw [upsert_of_mem hr] at hx
    exact mem_of_mem_update hd hx
  · rw [upsert_of_not_mem hr] at hx
    exact mem_of_mem_insert hx

theorem mem_of_mem_removeIfPresent (hd : l.tokens.Nodup) {token : String} {x : R}
    (hx : x ∈ (l.removeIfPresent token).2.records) : x ∈ l.records := by
  by_cases ht : token ∈ l.tokens
  · obtain ⟨before, old, after, hs, rfl⟩ := exists_split ht
    rw [removeIfPresent, if_pos (get?_isSome.mpr ht)] at hx
    rcases remove_cases hd hs with ⟨e, -, he⟩ | ⟨-, he⟩
    · exact he ▸ hx
    · exact mem_of_rest hs (he ▸ hx)
  · rw [removeIfPresent_of_not_mem ht] at hx
    exact hx

/-- Counting leaves the records as they are but for one, on which one more is counted. -/
theorem mem_of_mem_bump (hd : l.tokens.Nodup) {region : Region} {token : String}
    {grow : R → Option R} {x : R} (hx : x ∈ (l.bump region token grow).2.records) :
    x ∈ l.records ∨ ∃ r ∈ l.records, grow r = some x := by
  unfold bump at hx
  split at hx
  next => exact Or.inl hx
  next r hr =>
    split at hx
    next => exact Or.inl hx
    next r' hr' =>
      rcases mem_of_mem_update hd hx with rfl | hx
      · exact Or.inr ⟨r, List.mem_of_find?_eq_some hr, hr'⟩
      · exact Or.inl hx

theorem bump_eq_overflowed {region : Region} {token : String} {grow : R → Option R} :
    (l.bump region token grow).1 = .overflowed ↔
      ∃ r, l.get? token = some r ∧ grow r = none := by
  unfold bump
  split
  next hn => simp [hn]
  next r hr =>
    split
    next hg => simp [hr, hg]
    next r' hg =>
      have hno (answer : Answer Unit) : Outcome.ofView region answer.result ≠ .overflowed := by
        cases answer.result <;> simp [Outcome.ofView]
      simp [hr, hg, hno]

namespace Mirrored

theorem render_of_mem (h : l.Mirrored base) {r : R} (hr : r ∈ l.records) :
    ∃ node, layout.render r = .ok node := by
  obtain ⟨c, -, hp⟩ := h.picture_of_mem hr
  obtain ⟨-, node, hn, -⟩ := Nodes.picture_eq_some_iff.mp hp
  exact ⟨node, hn⟩

theorem upsert_of_render_error (h : l.Mirrored base) {r : R} {reason : String}
    (he : layout.render r = .error reason) :
    l.upsert r = (⟨.error (.render (layout.token r) reason), []⟩, l) := by
  by_cases hr : layout.token r ∈ l.tokens
  · rw [upsert_of_mem hr, h.update_of_render_error hr he]
  · rw [upsert_of_not_mem hr, h.insert_of_render_error hr he]

theorem upsert_of_render_ok (h : l.Mirrored base) {r : R} {node : Element}
    (hn : layout.render r = .ok node) : (l.upsert r).1.result = .ok () := by
  by_cases hr : layout.token r ∈ l.tokens
  · obtain ⟨before, old, after, hs, ho⟩ := exists_split hr
    obtain ⟨l', calls, hl, -⟩ := h.update_of_render_ok hs ho hn
    rw [upsert_of_mem hr, hl]
  · obtain ⟨l', hl, -⟩ := h.insert_of_render_ok hr hn
    rw [upsert_of_not_mem hr, hl]

theorem removeIfPresent_fst (h : l.Mirrored base) (token : String) :
    (l.removeIfPresent token).1 = .ok (decide (token ∈ l.tokens)) := by
  by_cases ht : token ∈ l.tokens
  · obtain ⟨before, old, after, hs, rfl⟩ := exists_split ht
    obtain ⟨l', hl, -⟩ := h.remove_of_mem hs
    rw [removeIfPresent, if_pos (get?_isSome.mpr ht), hl, decide_eq_true ht]
    rfl
  · rw [removeIfPresent_of_not_mem ht, decide_eq_false ht]

/-- Counting on a shown record is never turned down if the record can still be drawn. -/
theorem bump_ne_rejected (h : l.Mirrored base) (region : Region) (token : String)
    {grow : R → Option R}
    (hg : ∀ r r', grow r = some r' → layout.token r' = layout.token r ∧
      ((∃ node, layout.render r = .ok node) → ∃ node, layout.render r' = .ok node))
    (e : DispatchError) : (l.bump region token grow).1 ≠ .rejected e := by
  unfold bump
  split
  next => simp
  next r hr =>
    split
    next => simp
    next r' hr' =>
      have hmem : r ∈ l.records := List.mem_of_find?_eq_some hr
      obtain ⟨htoken, hrender⟩ := hg r r' hr'
      obtain ⟨node, hn⟩ := hrender (h.render_of_mem hmem)
      have hin : layout.token r' ∈ l.tokens := htoken ▸ List.mem_map_of_mem hmem
      obtain ⟨before, old, after, hs, ho⟩ := exists_split hin
      obtain ⟨l', calls, hl, -⟩ := h.update_of_render_ok hs ho hn
      simp [hl, Outcome.ofView]

end Mirrored

end OrderedList

end LiveFeed
