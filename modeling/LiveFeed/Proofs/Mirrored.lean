import LiveFeed.Proofs.Shows

namespace LiveFeed

variable {R : Type} {layout : Layout R}

namespace Shows

variable {base : String} {m : Mount} {n : Nodes} {rs : List R} {r : R}

theorem picture_of_mem (h : Shows layout base m n rs) (hr : r ∈ rs) :
    ∃ c ∈ m.children, n.picture layout base r = some c := by
  have hm : n.picture layout base r ∈ m.children.map some := h.pictures ▸ List.mem_map_of_mem hr
  obtain ⟨c, hc, he⟩ := List.mem_map.mp hm
  exact ⟨c, hc, he.symm⟩

/-- A token that names no record can be forgotten. -/
theorem erase (h : Shows layout base m n rs) {token : String}
    (ht : token ∉ rs.map layout.token) : Shows layout base m (n.erase token) rs := by
  refine ⟨h.base_eq, h.willing, h.tokens_nodup, ?_, Nodes.injective_erase h.injective token,
    Nodes.issued_erase h.issued token⟩
  rw [← h.pictures]
  refine Nodes.map_picture_congr fun e he => ?_
  have hne : layout.token e ≠ token := fun heq => ht (heq ▸ List.mem_map_of_mem he)
  simp [Nodes.get?_erase, hne]

end Shows

namespace OrderedList

/-- The mount of a list shows its records, and the list knows of no other children. -/
structure Mirrored (base : String) (l : OrderedList layout) : Prop
    extends Shows layout base l.mount l.nodes l.records where
  known : ∀ t h, l.nodes.get? t = some h → t ∈ l.tokens

variable {base : String} {l : OrderedList layout}

theorem mirrored_clear {m : Mount} (hb : m.base = base) (hw : m.refusing = none) :
    Mirrored base (⟨m.clear, [], {}⟩ : OrderedList layout) where
  base_eq := hb
  willing := hw
  tokens_nodup := List.nodup_nil
  pictures := rfl
  injective := by simp [Nodes.get?_empty]
  issued := by simp [Nodes.get?_empty]
  known := by simp [Nodes.get?_empty]

theorem key_of_base (hb : l.mount.base = base) (token : String) :
    l.key token = base ++ "-" ++ token := by
  rw [key, hb]

namespace Mirrored

theorem key_eq (h : l.Mirrored base) (token : String) : l.key token = base ++ "-" ++ token :=
  key_of_base h.base_eq token

theorem attached_eq (h : l.Mirrored base) {r : R} (hr : r ∈ l.records) :
    ∃ c, l.nodes.picture layout base r = some c ∧
      l.nodes.get? (layout.token r) = some c.handle ∧
      l.attached (layout.token r) = .ok ⟨c.handle, l.key (layout.token r)⟩ := by
  obtain ⟨c, hc, hp⟩ := h.picture_of_mem hr
  have hget := (Nodes.picture_eq_some_iff.mp hp).1
  have hin : l.mount.contains c.handle = true :=
    Mount.contains_iff.mpr (List.mem_map_of_mem hc)
  refine ⟨c, hp, hget, ?_⟩
  simp [attached, hget, Option.filter, hin]

/-- The child of the record behind a new one is always found. -/
theorem anchor_eq (h : l.Mirrored base) (next : Option R) (hn : ∀ r ∈ next, r ∈ l.records) :
    ∃ anchor, l.anchor next = .ok anchor ∧
      anchor.map (·.handle) = (next.bind (l.nodes.picture layout base)).map (·.handle) ∧
      anchor.map (·.key) = next.map fun r => l.key (layout.token r) := by
  cases next with
  | none => exact ⟨none, rfl, rfl, rfl⟩
  | some r =>
    obtain ⟨c, hp, -, ha⟩ := h.attached_eq (hn r rfl)
    refine ⟨some ⟨c.handle, l.key (layout.token r)⟩, ?_, ?_, rfl⟩
    · simp [anchor, ha, Functor.map, Except.map]
    · simp [hp]

end Mirrored

theorem carryOut_eq {α : Type} {edits : List Edit} {m : Mount} {calls : List Call}
    (h : l.mount.performAll edits = { mount := m, calls }) (records : List R) (nodes : Nodes)
    (value : α) :
    l.carryOut ⟨edits, records, nodes⟩ value = (⟨.ok value, calls⟩, ⟨m, records, nodes⟩) := by
  simp [carryOut, h]

namespace Mirrored

theorem insert_of_render_error (h : l.Mirrored base) {r : R} (hr : layout.token r ∉ l.tokens)
    {reason : String} (he : layout.render r = .error reason) :
    l.insert r = (⟨.error (.render (layout.token r) reason), []⟩, l) := by
  obtain ⟨anchor, ha, -⟩ := h.anchor_eq
    l.records[l.records.findIdx (layout.precedes r)]? fun _ hn => List.mem_of_getElem? hn
  have hplan : l.planInsert r = .error (.render (layout.token r) reason) := by
    rw [planInsert_of_not_mem hr, ha, render_of_error he]
    rfl
  exact insert_of_error hplan

/-- A new record that can be drawn is attached by one call, in front of the first it precedes. -/
theorem insert_of_render_ok (h : l.Mirrored base) {r : R} (hr : layout.token r ∉ l.tokens)
    {node : Element} (hn : layout.render r = .ok node) :
    ∃ l', l.insert r = (⟨.ok (), [.place (l.key (layout.token r))
        (l.records[l.records.findIdx (layout.precedes r)]?.map fun e => l.key (layout.token e))]⟩,
          l') ∧
      l'.Mirrored base ∧
      l'.records = l.records.insertIdx (l.records.findIdx (layout.precedes r)) r := by
  obtain ⟨front, back, hs, hp⟩ := layout.place_split r l.records []
  rw [List.append_nil] at hs
  rw [layout.place_nil] at hp
  have hnext : l.records[front.length]? = back.head? := by
    rw [hs, getElem?_append_length]
  have hinsert : l.records.insertIdx front.length r = front ++ r :: back := by
    rw [hs, insertIdx_append_length]
  obtain ⟨anchor, ha, hhandle, hkey⟩ := h.anchor_eq l.records[front.length]?
    fun _ hm => List.mem_of_getElem? hm
  have hplan : l.planInsert r = .ok
      { edits := [.place (l.key (layout.token r)) node anchor]
        records := front ++ r :: back
        nodes := l.nodes.insert (layout.token r) l.mount.next } := by
    rw [planInsert_of_not_mem hr, hp, ha, render_of_ok hn, hinsert]
    rfl
  have habsent : layout.token r ∉ (front ++ back).map layout.token := by
    rw [← hs]
    exact hr
  have hshows : Shows layout base l.mount l.nodes (front ++ back) := hs ▸ h.toShows
  obtain ⟨m', hperform, hshows'⟩ := hshows.placed habsent hn (hnext ▸ hhandle)
  rw [← h.key_eq] at hperform
  refine ⟨⟨m', front ++ r :: back, l.nodes.insert (layout.token r) l.mount.next⟩, ?_,
    ⟨hshows', ?_⟩, ?_⟩
  · rw [insert_of_ok hplan, carryOut_eq (Mount.performAll_one hperform), Edit.call_place, hkey, hp]
  · intro t handle ht
    rw [Nodes.get?_insert] at ht
    apply mem_map_append_cons.mpr
    by_cases htr : t = layout.token r
    · exact Or.inl htr
    · right
      rw [← hs]
      exact h.known t handle (by simpa [htr] using ht)
  · rw [hp, hinsert]

/-- A handle that a list knows belongs to a changed record or to one beside it. -/
theorem known_around (h : l.Mirrored base) {old : R} {before after : List R}
    (hs : l.records = before ++ old :: after) {token : String} {handle : Handle}
    (ht : l.nodes.get? token = some handle) :
    token = layout.token old ∨ token ∈ (before ++ after).map layout.token := by
  have hk := h.known token handle ht
  rw [tokens, hs] at hk
  exact mem_map_append_cons.mp hk

theorem update_of_render_error (h : l.Mirrored base) {r : R} (hr : layout.token r ∈ l.tokens)
    {reason : String} (he : layout.render r = .error reason) :
    l.update r = (⟨.error (.render (layout.token r) reason), []⟩, l) := by
  obtain ⟨before, old, after, hs, ho⟩ := exists_split hr
  obtain ⟨c, -, -, hattached⟩ := h.attached_eq (show old ∈ l.records by simp [hs])
  rw [ho] at hattached
  obtain ⟨anchor, ha, -⟩ := h.anchor_eq (before ++ after)[layout.place r before after]?
    fun e hm => mem_of_rest hs (List.mem_of_getElem? hm)
  have hplan : l.planUpdate r = .error (.render (layout.token r) reason) := by
    rw [planUpdate_split h.tokens_nodup hs ho, hattached, ha, render_of_error he]
    by_cases hp : layout.place r before after = before.length
    · simp [hp, bind, Except.bind]
    · simp [hp, bind, Except.bind]
  exact update_of_error hplan

/-- An update that finds the record in its place exchanges what its child shows. -/
theorem update_in_place (h : l.Mirrored base) {r old : R} {before after : List R}
    (hs : l.records = before ++ old :: after) (ho : layout.token old = layout.token r)
    {node : Element} (hn : layout.render r = .ok node)
    (hp : layout.place r before after = before.length) :
    ∃ l', l.update r = (⟨.ok (), [.replace (l.key (layout.token r))]⟩, l') ∧ l'.Mirrored base ∧
      l'.records = before ++ r :: after := by
  obtain ⟨c, hc, hget, hattached⟩ := h.attached_eq (show old ∈ l.records by simp [hs])
  rw [ho] at hattached hget
  have hplan : l.planUpdate r = .ok
      { edits := [.replace ⟨c.handle, l.key (layout.token r)⟩ node]
        records := before ++ r :: after
        nodes := l.nodes } := by
    rw [planUpdate_split h.tokens_nodup hs ho, hattached, render_of_ok hn]
    simp [hp, bind, Except.bind, pure, Except.pure]
  have hshows : Shows layout base l.mount l.nodes (before ++ old :: after) := hs ▸ h.toShows
  obtain ⟨m', hperform, hshows'⟩ := hshows.replaced ho hn hget (l.key (layout.token r))
  refine ⟨⟨m', before ++ r :: after, l.nodes⟩, ?_, ⟨hshows', ?_⟩, rfl⟩
  · rw [update_of_ok hplan, carryOut_eq (Mount.performAll_one hperform), Edit.call]
  · intro t handle ht
    exact mem_map_append_cons.mpr (ho ▸ h.known_around hs ht)

/-- An update that moves the record has its child detached and drawn anew. -/
theorem update_moved (h : l.Mirrored base) {r old : R} {before after : List R}
    (hs : l.records = before ++ old :: after) (ho : layout.token old = layout.token r)
    {node : Element} (hn : layout.render r = .ok node)
    (hp : layout.place r before after ≠ before.length) :
    ∃ l', l.update r = (⟨.ok (), [.detach (l.key (layout.token r)),
        .place (l.key (layout.token r))
          ((before ++ after)[layout.place r before after]?.map fun e => l.key (layout.token e))]⟩,
        l') ∧
      l'.Mirrored base ∧
      l'.records = (before ++ after).insertIdx (layout.place r before after) r := by
  obtain ⟨c, hc, hget, hattached⟩ := h.attached_eq (show old ∈ l.records by simp [hs])
  rw [ho] at hattached
  obtain ⟨front, back, hsplit, hplace⟩ := layout.place_split r before after
  have hnext : (before ++ after)[layout.place r before after]? = back.head? := by
    rw [hsplit, hplace, getElem?_append_length]
  have hinsert :
      (before ++ after).insertIdx (layout.place r before after) r = front ++ r :: back := by
    rw [hplace, hsplit, insertIdx_append_length]
  obtain ⟨anchor, ha, hhandle, hkey⟩ := h.anchor_eq back.head? fun e he =>
    mem_of_rest hs (hsplit ▸ List.mem_append_right front (List.mem_of_head? he))
  have hplan : l.planUpdate r = .ok
      { edits := [.detach ⟨c.handle, l.key (layout.token r)⟩,
          .place (l.key (layout.token r)) node anchor]
        records := front ++ r :: back
        nodes := l.nodes.insert (layout.token r) l.mount.next } := by
    rw [planUpdate_split h.tokens_nodup hs ho, hattached, hnext, ha, render_of_ok hn, hinsert]
    simp [hp, bind, Except.bind, pure, Except.pure]
  have hshows : Shows layout base l.mount l.nodes (before ++ old :: after) := hs ▸ h.toShows
  obtain ⟨m1, hdetach, hnext1, hshows1⟩ := hshows.detached hget (l.key (layout.token r))
  rw [hsplit] at hshows1
  have habsent : layout.token r ∉ (front ++ back).map layout.token := by
    rw [← hsplit, ← ho]
    exact token_not_mem h.tokens_nodup hs
  obtain ⟨m2, hplaced, hshows2⟩ := hshows1.placed habsent hn hhandle
  rw [hnext1] at hshows2
  rw [← h.key_eq] at hplaced
  refine ⟨⟨m2, front ++ r :: back, l.nodes.insert (layout.token r) l.mount.next⟩, ?_,
    ⟨hshows2, ?_⟩, hinsert.symm⟩
  · rw [update_of_ok hplan, carryOut_eq (Mount.performAll_two hdetach hplaced), Edit.call_place,
      hkey, hnext]
    rfl
  · intro t handle ht
    rw [Nodes.get?_insert] at ht
    apply mem_map_append_cons.mpr
    by_cases htr : t = layout.token r
    · exact Or.inl htr
    · rw [← hsplit, ← ho]
      exact h.known_around hs (by simpa [htr] using ht)

theorem update_of_render_ok (h : l.Mirrored base) {r old : R} {before after : List R}
    (hs : l.records = before ++ old :: after) (ho : layout.token old = layout.token r)
    {node : Element} (hn : layout.render r = .ok node) :
    ∃ l' calls, l.update r = (⟨.ok (), calls⟩, l') ∧ l'.Mirrored base ∧
      l'.records = (before ++ after).insertIdx (layout.place r before after) r := by
  by_cases hp : layout.place r before after = before.length
  · obtain ⟨l', hl, hm, hrecords⟩ := h.update_in_place hs ho hn hp
    refine ⟨l', _, hl, hm, ?_⟩
    rw [hrecords, hp, insertIdx_append_length]
  · obtain ⟨l', hl, hm, hrecords⟩ := h.update_moved hs ho hn hp
    exact ⟨l', _, hl, hm, hrecords⟩

theorem remove_of_mem (h : l.Mirrored base) {old : R} {before after : List R}
    (hs : l.records = before ++ old :: after) :
    ∃ l', l.remove (layout.token old) = (⟨.ok old, [.detach (l.key (layout.token old))]⟩, l') ∧
      l'.Mirrored base ∧ l'.records = before ++ after := by
  obtain ⟨c, hc, hget, hattached⟩ := h.attached_eq (show old ∈ l.records by simp [hs])
  have hplan : l.planRemove (layout.token old) = .ok (old,
      { edits := [.detach ⟨c.handle, l.key (layout.token old)⟩]
        records := before ++ after
        nodes := l.nodes.erase (layout.token old) }) := by
    rw [planRemove_split h.tokens_nodup hs, hattached]
    rfl
  have hshows : Shows layout base l.mount l.nodes (before ++ old :: after) := hs ▸ h.toShows
  obtain ⟨m', hperform, -, hshows'⟩ := hshows.detached hget (l.key (layout.token old))
  have habsent := token_not_mem h.tokens_nodup hs
  refine ⟨⟨m', before ++ after, l.nodes.erase (layout.token old)⟩, ?_,
    ⟨hshows'.erase habsent, ?_⟩, rfl⟩
  · rw [remove_of_ok hplan, carryOut_eq (Mount.performAll_one hperform), Edit.call]
  · intro t handle ht
    simp only [Nodes.get?_erase, Option.ite_none_left_eq_some] at ht
    exact (h.known_around hs ht.2).resolve_left ht.1

end Mirrored

end OrderedList

end LiveFeed
