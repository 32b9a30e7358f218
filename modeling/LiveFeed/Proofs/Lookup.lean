import LiveFeed.Proofs.Upserts

namespace LiveFeed.OrderedList

variable {R : Type} {layout : Layout R} {l l' : OrderedList layout} {base : String}

/-- A record among others is found under its token, and they are found under theirs. -/
theorem find?_append_cons {front back : List R} {r : R}
    (hr : layout.token r ∉ (front ++ back).map layout.token) (token : String) :
    (front ++ r :: back).find? (layout.token · = token) =
      if layout.token r = token then some r
      else (front ++ back).find? (layout.token · = token) := by
  rw [List.find?_append, List.find?_append]
  by_cases ht : layout.token r = token
  · have hfront : front.find? (layout.token · = token) = none := by
      apply List.find?_eq_none.mpr
      intro e he heq
      have hmem : e ∈ front ++ back := List.mem_append_left back he
      rw [decide_eq_true_eq, ← ht] at heq
      exact hr (heq ▸ List.mem_map_of_mem hmem)
    rw [hfront, List.find?_cons_of_pos (by simpa using ht), if_pos ht]
    rfl
  · rw [List.find?_cons_of_neg (by simpa using ht), if_neg ht]

theorem get?_split (hd : l.tokens.Nodup) {before after : List R} {old : R}
    (hs : l.records = before ++ old :: after) (token : String) :
    l.get? token =
      if layout.token old = token then some old
      else (before ++ after).find? (layout.token · = token) := by
  rw [get?, hs]
  exact find?_append_cons (token_not_mem hd hs) token

theorem get?_eq_some_iff (hd : l.tokens.Nodup) {token : String} {r : R} :
    l.get? token = some r ↔ r ∈ l.records ∧ layout.token r = token := by
  constructor
  · intro h
    exact ⟨List.mem_of_find?_eq_some h, by simpa using List.find?_some h⟩
  · rintro ⟨hr, rfl⟩
    obtain ⟨before, after, hs⟩ := List.append_of_mem hr
    exact get?_eq_some hd hs

/-- A record that was put in its place among others is found, and so are they. -/
theorem get?_placed {before after : List R} {r : R}
    (he : l'.records = (before ++ after).insertIdx (layout.place r before after) r)
    (hr : layout.token r ∉ (before ++ after).map layout.token) (token : String) :
    l'.get? token =
      if layout.token r = token then some r
      else (before ++ after).find? (layout.token · = token) := by
  obtain ⟨front, back, hsplit, hplace⟩ := layout.place_split r before after
  rw [hsplit] at hr
  rw [get?, he, hplace, hsplit, insertIdx_append_length]
  exact find?_append_cons hr token

namespace Mirrored

/-- A record that can be drawn is found after an upsert, whatever was stored under its token. -/
theorem get?_upsert (h : l.Mirrored base) {r : R} {node : Element}
    (hn : layout.render r = .ok node) (token : String) :
    (l.upsert r).2.get? token =
      if layout.token r = token then some r else l.get? token := by
  by_cases hr : layout.token r ∈ l.tokens
  · obtain ⟨before, old, after, hs, ho⟩ := exists_split hr
    obtain ⟨l', calls, hl, -, hrecords⟩ := h.update_of_render_ok hs ho hn
    have habsent := token_not_mem h.tokens_nodup hs
    rw [ho] at habsent
    rw [upsert_of_mem hr, hl, get?_placed hrecords habsent, get?_split h.tokens_nodup hs, ho]
    split
    next => rfl
    next => rfl
  · obtain ⟨l', hl, -, hrecords⟩ := h.insert_of_render_ok hr hn
    rw [← layout.place_nil] at hrecords
    have hplaced : l'.records =
        (l.records ++ []).insertIdx (layout.place r l.records []) r := by
      rw [List.append_nil, hrecords]
    have habsent : layout.token r ∉ (l.records ++ []).map layout.token := by
      rw [List.append_nil]
      exact hr
    rw [upsert_of_not_mem hr, hl, get?_placed hplaced habsent, List.append_nil]
    rfl

theorem get?_removeIfPresent (h : l.Mirrored base) (token other : String) :
    (l.removeIfPresent token).2.get? other = if token = other then none else l.get? other := by
  by_cases ht : token ∈ l.tokens
  · obtain ⟨before, old, after, hs, rfl⟩ := exists_split ht
    obtain ⟨l', hl, -, hrecords⟩ := h.remove_of_mem hs
    have hremoved : (l.removeIfPresent (layout.token old)).2 = l' := by
      rw [removeIfPresent, if_pos (get?_isSome.mpr ht), hl]
    rw [hremoved, get?_split h.tokens_nodup hs]
    split
    next ho =>
      have habsent := token_not_mem h.tokens_nodup hs
      apply get?_eq_none.mpr
      rwa [tokens, hrecords, ← ho]
    next => rw [get?, hrecords]
  · rw [removeIfPresent_of_not_mem ht]
    split
    next ho => exact get?_eq_none.mpr (ho ▸ ht)
    next => rfl

/-- Counting that does not overflow changes one record, if there is one, and no other. -/
theorem get?_bump (h : l.Mirrored base) {region : Region} {token : String}
    {grow : R → Option R}
    (hg : ∀ r r', grow r = some r' → layout.token r' = layout.token r ∧
      ((∃ node, layout.render r = .ok node) → ∃ node, layout.render r' = .ok node))
    (hroom : (l.bump region token grow).1 ≠ .overflowed) (other : String) :
    (l.bump region token grow).2.get? other =
      if token = other then (l.get? token).bind grow else l.get? other := by
  cases hr : l.get? token with
  | none =>
    have hsame : (l.bump region token grow).2 = l := by simp only [bump, hr]
    rw [hsame]
    split
    next ho => rw [← ho, hr]; rfl
    next => rfl
  | some r =>
    cases hr' : grow r with
    | none => exact absurd (bump_eq_overflowed.mpr ⟨r, hr, hr'⟩) hroom
    | some r' =>
      have hmem : r ∈ l.records := List.mem_of_find?_eq_some hr
      have htoken : layout.token r = token := by simpa using List.find?_some hr
      obtain ⟨hkept, hdrawn⟩ := hg r r' hr'
      obtain ⟨node, hn⟩ := hdrawn (h.render_of_mem hmem)
      have hin : layout.token r' ∈ l.tokens := hkept ▸ List.mem_map_of_mem hmem
      have hupdate : (l.bump region token grow).2 = (l.upsert r').2 := by
        rw [upsert_of_mem hin]
        simp only [bump, hr, hr']
      rw [hupdate, h.get?_upsert hn, hkept, htoken]
      split
      next => exact hr'.symm
      next => rfl

/-- A record whose counter is full stays as it is when it is counted on. -/
theorem get?_bump_getD (h : l.Mirrored base) {region : Region} {token : String}
    {grow : R → Option R}
    (hg : ∀ r r', grow r = some r' → layout.token r' = layout.token r ∧
      ((∃ node, layout.render r = .ok node) → ∃ node, layout.render r' = .ok node))
    (other : String) :
    (l.bump region token grow).2.get? other =
      if token = other then (l.get? token).map fun r => (grow r).getD r else l.get? other := by
  by_cases ho : (l.bump region token grow).1 = .overflowed
  · obtain ⟨r, hr, hfull⟩ := bump_eq_overflowed.mp ho
    have hsame : (l.bump region token grow).2 = l := by simp only [bump, hr, hfull]
    rw [hsame]
    split
    next ht => simp [← ht, hr, hfull]
    next => rfl
  · rw [h.get?_bump hg ho]
    cases hr : l.get? token with
    | none => rfl
    | some r =>
      cases hr' : grow r with
      | none => exact absurd (bump_eq_overflowed.mpr ⟨r, hr, hr'⟩) ho
      | some r' => simp [hr']

end Mirrored

end LiveFeed.OrderedList
