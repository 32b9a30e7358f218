import LiveFeed.Proofs.Shows

namespace LiveFeed

variable {R : Type} {layout : Layout R}

namespace Nodes

/-- The handle is one that a token of the list leads to. -/
def owns (n : Nodes) (h : Handle) : Bool := n.entries.any fun e => n.get? e.1 = some h

theorem owns_iff {n : Nodes} {h : Handle} : n.owns h = true ↔ ∃ t, n.get? t = some h := by
  constructor
  · intro ho
    obtain ⟨e, -, he⟩ := List.any_eq_true.mp ho
    exact ⟨e.1, of_decide_eq_true he⟩
  · rintro ⟨t, ht⟩
    obtain ⟨e, he, -⟩ := Option.map_eq_some_iff.mp ht
    have htoken : e.1 = t := by simpa using List.find?_some he
    refine List.any_eq_true.mpr ⟨e, List.mem_of_find?_eq_some he, ?_⟩
    rw [htoken]
    exact decide_eq_true ht

theorem owns_congr {n n' : Nodes} {h : Handle}
    (he : ∀ t, n'.get? t = some h ↔ n.get? t = some h) : n'.owns h = n.owns h := by
  rw [Bool.eq_iff_iff, owns_iff, owns_iff]
  exact exists_congr he

theorem filter_owns_congr {n n' : Nodes} {cs : List Child}
    (h : ∀ c ∈ cs, ∀ t, n'.get? t = some c.handle ↔ n.get? t = some c.handle) :
    cs.filter (n'.owns ·.handle) = cs.filter (n.owns ·.handle) :=
  List.filter_congr fun c hc => owns_congr (h c hc)

/-- The list's own children among some are pictures of some of the records, in their order. -/
def Aligned (n : Nodes) (layout : Layout R) (base : String) (rs : List R) (cs : List Child) :
    Prop :=
  ∃ shown : List R, shown.Sublist rs ∧
    shown.map (n.picture layout base) = (cs.filter (n.owns ·.handle)).map some

namespace Aligned

variable {n n' : Nodes} {base : String} {rs rs' : List R} {cs cs' : List Child} {r : R} {c : Child}

theorem nil (n : Nodes) (base : String) : n.Aligned layout base [] [] :=
  ⟨[], List.Sublist.slnil, rfl⟩

theorem append (h : n.Aligned layout base rs cs) (h' : n.Aligned layout base rs' cs') :
    n.Aligned layout base (rs ++ rs') (cs ++ cs') := by
  obtain ⟨shown, hs, hp⟩ := h
  obtain ⟨shown', hs', hp'⟩ := h'
  refine ⟨shown ++ shown', hs.append hs', ?_⟩
  rw [List.map_append, hp, hp', List.filter_append, List.map_append]

theorem cons (h : n.Aligned layout base rs cs) (hr : n.picture layout base r = some c) :
    n.Aligned layout base (r :: rs) (c :: cs) := by
  obtain ⟨shown, hs, hp⟩ := h
  have hown : n.owns c.handle = true := owns_iff.mpr ⟨_, (picture_eq_some_iff.mp hr).1⟩
  refine ⟨r :: shown, hs.cons_cons r, ?_⟩
  rw [List.map_cons, hr, hp, List.filter_cons_of_pos (by exact hown), List.map_cons]

theorem of_children (h : n.Aligned layout base rs cs) (hc : cs'.Sublist cs) :
    n.Aligned layout base rs cs' := by
  obtain ⟨shown, hs, hp⟩ := h
  have hsub := (hc.filter (n.owns ·.handle)).map some
  rw [← hp] at hsub
  obtain ⟨shown', hs', hp'⟩ := List.sublist_map_iff.mp hsub
  exact ⟨shown', hs'.trans hs, hp'.symm⟩

/-- What a list knows of other records and of other children does not matter. -/
theorem congr (h : n.Aligned layout base rs cs)
    (hr : ∀ r ∈ rs, n'.get? (layout.token r) = n.get? (layout.token r))
    (hc : ∀ c ∈ cs, ∀ t, n'.get? t = some c.handle ↔ n.get? t = some c.handle) :
    n'.Aligned layout base rs cs := by
  obtain ⟨shown, hs, hp⟩ := h
  refine ⟨shown, hs, ?_⟩
  rw [map_picture_congr fun r hm => hr r (hs.subset hm), hp, filter_owns_congr hc]

end Aligned

end Nodes

/--
What a list can rely on where others change its mount too: of its own children, those that are left
are pictures of its records, in the order of the records.
-/
structure Tracks (layout : Layout R) (base : String) (m : Mount) (n : Nodes) (rs : List R) :
    Prop where
  base_eq : m.base = base
  tokens_nodup : (rs.map layout.token).Nodup
  handles_nodup : m.handles.Nodup
  handles_lt : ∀ h ∈ m.handles, h < m.next
  injective : ∀ s t h, n.get? s = some h → n.get? t = some h → s = t
  issued : ∀ t h, n.get? t = some h → h < m.next
  known : ∀ t h, n.get? t = some h → t ∈ rs.map layout.token
  aligned : n.Aligned layout base rs m.children

namespace Tracks

variable {base : String} {m m' : Mount} {n : Nodes} {rs before after : List R} {r old : R}
  {front back : List Child} {c : Child}

theorem clear (hb : m.base = base) : Tracks layout base m.clear {} [] where
  base_eq := hb
  tokens_nodup := List.nodup_nil
  handles_nodup := List.nodup_nil
  handles_lt := by simp [Mount.clear, Mount.handles]
  injective := by simp [Nodes.get?_empty]
  issued := by simp [Nodes.get?_empty]
  known := by simp [Nodes.get?_empty]
  aligned := .nil _ _

theorem of_children (h : Tracks layout base m n rs) (hb : m'.base = m.base)
    (hn : m'.next = m.next) (hc : m'.children.Sublist m.children) :
    Tracks layout base m' n rs := by
  have hhandles : m'.handles.Sublist m.handles := hc.map Child.handle
  refine ⟨hb.trans h.base_eq, h.tokens_nodup, h.handles_nodup.sublist hhandles, ?_, h.injective,
    ?_, h.known, h.aligned.of_children hc⟩
  · intro i hi
    rw [hn]
    exact h.handles_lt i (hhandles.subset hi)
  · intro t i hi
    rw [hn]
    exact h.issued t i hi

theorem nodup_handles_insert (h : Tracks layout base m n rs)
    (hc : m.children = front ++ back) (e : Element) :
    ((front ++ ⟨m.next, e⟩ :: back).map Child.handle).Nodup ∧
      ∀ i ∈ (front ++ ⟨m.next, e⟩ :: back).map Child.handle, i < m.next + 1 := by
  have hhandles : m.handles = (front ++ back).map Child.handle := by rw [Mount.handles, hc]
  constructor
  · rw [List.map_append, List.map_cons, List.nodup_middle, ← List.map_append, ← hhandles]
    refine List.nodup_cons.mpr ⟨fun hm => ?_, h.handles_nodup⟩
    exact Nat.lt_irrefl _ (h.handles_lt m.next hm)
  · intro i hi
    rcases mem_map_append_cons.mp hi with rfl | hi
    · exact Nat.lt_succ_self m.next
    · exact Nat.lt_succ_of_lt (h.handles_lt i (hhandles ▸ hi))

/-- A child of others, even one with a key of the list, is not taken for one of its own. -/
theorem joined (h : Tracks layout base m n rs) (e : Element) :
    Tracks layout base { m with children := m.children ++ [⟨m.next, e⟩], next := m.next + 1 } n
      rs := by
  obtain ⟨hnodup, hlt⟩ := h.nodup_handles_insert (List.append_nil m.children).symm e
  refine ⟨h.base_eq, h.tokens_nodup, hnodup, hlt, h.injective, ?_, h.known, ?_⟩
  · intro t i hi
    exact Nat.lt_succ_of_lt (h.issued t i hi)
  · have hno : n.owns m.next = false := by
      rw [← Bool.not_eq_true, Nodes.owns_iff]
      rintro ⟨t, ht⟩
      exact Nat.lt_irrefl _ (h.issued t m.next ht)
    obtain ⟨shown, hs, hp⟩ := h.aligned
    refine ⟨shown, hs, ?_⟩
    simpa [List.filter_append, hno] using hp

theorem eq_of_get? (h : Tracks layout base m n rs) {i : Handle} (hr : r ∈ rs) (ho : old ∈ rs)
    (hri : n.get? (layout.token r) = some i) (hoi : n.get? (layout.token old) = some i) :
    r = old :=
  List.inj_on_of_nodup_map h.tokens_nodup hr ho (h.injective _ _ i hri hoi)

/-- Around a child of the list, its own children are those of the records around. -/
theorem around (h : Tracks layout base m n (before ++ old :: after))
    (hc : m.children = front ++ c :: back) (ho : n.get? (layout.token old) = some c.handle) :
    n.picture layout base old = some c ∧ n.Aligned layout base before front ∧
      n.Aligned layout base after back := by
  obtain ⟨shown, hs, hp⟩ := h.aligned
  have hown : n.owns c.handle = true := Nodes.owns_iff.mpr ⟨_, ho⟩
  rw [hc, List.filter_append, List.filter_cons_of_pos (by exact hown), List.map_append,
    List.map_cons] at hp
  obtain ⟨shown₁, rest, rfl, h₁, hrest⟩ := List.map_eq_append_iff.mp hp
  obtain ⟨x, shown₂, rfl, hx, h₂⟩ := List.map_eq_cons_iff.mp hrest
  have hmem : x ∈ before ++ old :: after := hs.subset (by simp)
  have hget := (Nodes.picture_eq_some_iff.mp hx).1
  obtain rfl : x = old := h.eq_of_get? hmem (by simp) hget ho
  obtain ⟨hb, ha⟩ := ne_of_nodup_map h.tokens_nodup
  obtain ⟨hs₁, hs₂⟩ := sublists_around hs (fun hm => hb x hm rfl) fun hm => ha x hm rfl
  exact ⟨hx, ⟨shown₁, hs₁, h₁⟩, shown₂, hs₂, h₂⟩

/-- In front of the child of the record behind a place, there are those of the records before it. -/
theorem split (h : Tracks layout base m n (before ++ after)) (hc : m.children = front ++ back)
    (ha : after.head?.map (fun e => n.get? (layout.token e)) =
      back.head?.map fun c => some c.handle) :
    n.Aligned layout base before front ∧ n.Aligned layout base after back := by
  cases after with
  | nil =>
    obtain rfl : back = [] := by
      cases back with
      | nil => rfl
      | cons c back => simp at ha
    have haligned := h.aligned
    rw [hc, List.append_nil, List.append_nil] at haligned
    exact ⟨haligned, .nil n base⟩
  | cons next after =>
    cases back with
    | nil => simp at ha
    | cons c back =>
      have hnext : n.get? (layout.token next) = some c.handle := by simpa using ha
      obtain ⟨hpic, hbefore, hafter⟩ := h.around hc hnext
      exact ⟨hbefore, hafter.cons hpic⟩

theorem forgotten (h : Tracks layout base m n (before ++ old :: after))
    (hgone : ∀ i, n.get? (layout.token old) = some i → i ∉ m.handles) :
    Tracks layout base m (n.erase (layout.token old)) (before ++ after) := by
  have hsub : ((before ++ after).map layout.token).Sublist
      ((before ++ old :: after).map layout.token) :=
    (sublist_append_cons before after old).map layout.token
  refine ⟨h.base_eq, h.tokens_nodup.sublist hsub, h.handles_nodup, h.handles_lt,
    Nodes.injective_erase h.injective _, Nodes.issued_erase h.issued _, ?_, ?_⟩
  · intro t i hi
    simp only [Nodes.get?_erase, Option.ite_none_left_eq_some] at hi
    exact (mem_map_append_cons.mp (h.known t i hi.2)).resolve_left hi.1
  · obtain ⟨shown, hs, hp⟩ := h.aligned
    have hno : old ∉ shown := by
      intro hm
      have hpm : n.picture layout base old ∈ (m.children.filter (n.owns ·.handle)).map some :=
        hp ▸ List.mem_map_of_mem hm
      obtain ⟨c, hc, hco⟩ := List.mem_map.mp hpm
      have hget := (Nodes.picture_eq_some_iff.mp hco.symm).1
      exact hgone c.handle hget (List.mem_map_of_mem (List.mem_filter.mp hc).1)
    have hrest : n.Aligned layout base (before ++ after) m.children :=
      ⟨shown, sublist_of_not_mem hs hno, hp⟩
    refine hrest.congr ?_ ?_
    · intro e he
      have hne : layout.token e ≠ layout.token old := fun heq =>
        not_mem_map_of_nodup h.tokens_nodup (heq ▸ List.mem_map_of_mem he)
      simp [Nodes.get?_erase, hne]
    · intro c hc t
      rw [Nodes.get?_erase, Option.ite_none_left_eq_some]
      constructor
      · exact fun ht => ht.2
      · intro ht
        refine ⟨?_, ht⟩
        rintro rfl
        exact hgone c.handle ht (List.mem_map_of_mem hc)

/-- A record whose token is new may have its child put in front of that of the record behind. -/
theorem placed (h : Tracks layout base m n (before ++ after)) (hc : m.children = front ++ back)
    (ha : after.head?.map (fun e => n.get? (layout.token e)) =
      back.head?.map fun c => some c.handle)
    (hr : layout.token r ∉ (before ++ after).map layout.token) {node : Element}
    (hn : layout.render r = .ok node) :
    Tracks layout base
      { m with
        children := front ++ ⟨m.next, node.withId (base ++ "-" ++ layout.token r)⟩ :: back
        next := m.next + 1 }
      (n.insert (layout.token r) m.next) (before ++ r :: after) := by
  obtain ⟨hnodup, hlt⟩ := h.nodup_handles_insert hc (node.withId (base ++ "-" ++ layout.token r))
  -- handles that were issued before lead to the same tokens as ever
  have hother {t : String} {i : Handle} (hi : i < m.next) :
      (n.insert (layout.token r) m.next).get? t = some i ↔ n.get? t = some i := by
    rw [Nodes.get?_insert]
    by_cases htr : t = layout.token r
    · have hnew : n.get? t ≠ some i := fun ht => hr (htr ▸ h.known t i ht)
      rw [if_pos htr, Option.some_inj]
      exact iff_of_false (Nat.ne_of_gt hi) hnew
    · rw [if_neg htr]
  refine ⟨h.base_eq, ?_, hnodup, hlt, Nodes.injective_insert h.issued h.injective _,
    Nodes.issued_insert h.issued _, ?_, ?_⟩
  · rw [List.map_append, List.map_cons, List.nodup_middle, ← List.map_append]
    exact List.nodup_cons.mpr ⟨hr, h.tokens_nodup⟩
  · intro t i ht
    rw [Nodes.get?_insert] at ht
    apply mem_map_append_cons.mpr
    by_cases htr : t = layout.token r
    · exact Or.inl htr
    · exact Or.inr (h.known t i (by simpa [htr] using ht))
  · obtain ⟨hbefore, hafter⟩ := h.split hc ha
    have hkeep {rs : List R} {cs : List Child} (halign : n.Aligned layout base rs cs)
        (hrs : ∀ e ∈ rs, e ∈ before ++ after) (hcs : ∀ c ∈ cs, c ∈ m.children) :
        (n.insert (layout.token r) m.next).Aligned layout base rs cs := by
      refine halign.congr ?_ ?_
      · intro e he
        have hne : layout.token e ≠ layout.token r := fun heq =>
          hr (heq ▸ List.mem_map_of_mem (hrs e he))
        simp [Nodes.get?_insert, hne]
      · intro c hm t
        exact hother (h.handles_lt c.handle (List.mem_map_of_mem (hcs c hm)))
    have hself : (n.insert (layout.token r) m.next).picture layout base r =
        some ⟨m.next, node.withId (base ++ "-" ++ layout.token r)⟩ := by
      simp [Nodes.picture, Nodes.get?_insert, hn]
    have hbefore' := hkeep hbefore (fun e he => List.mem_append_left after he)
      fun c hm => hc ▸ List.mem_append_left back hm
    have hafter' := hkeep hafter (fun e he => List.mem_append_right before he)
      fun c hm => hc ▸ List.mem_append_right front hm
    exact hbefore'.append (hafter'.cons hself)

/-- A child keeps its place and its key when its record is drawn anew. -/
theorem replaced (h : Tracks layout base m n (before ++ old :: after))
    (ho : layout.token old = layout.token r) (hc : m.children = front ++ c :: back)
    (hr : n.get? (layout.token r) = some c.handle) {node : Element}
    (hn : layout.render r = .ok node) :
    Tracks layout base
      { m with
        children := front ++
          { c with element := node.withId (c.element.tag.id.getD "") } :: back }
      n (before ++ r :: after) := by
  have hget : n.get? (layout.token old) = some c.handle := by rw [ho, hr]
  obtain ⟨hpic, hbefore, hafter⟩ := h.around hc hget
  obtain ⟨-, node', -, helement⟩ := Nodes.picture_eq_some_iff.mp hpic
  have hid : c.element.tag.id.getD "" = base ++ "-" ++ layout.token r := by
    simp [helement, ho]
  have htokens : (before ++ r :: after).map layout.token =
      (before ++ old :: after).map layout.token := by
    simp [ho]
  have hhandles : Mount.handles
      { m with
        children := front ++
          { c with element := node.withId (c.element.tag.id.getD "") } :: back } = m.handles := by
    simp [Mount.handles, hc]
  have hself : n.picture layout base r =
      some { c with element := node.withId (c.element.tag.id.getD "") } := by
    simp [Nodes.picture, hr, hn, hid]
  exact ⟨h.base_eq, htokens ▸ h.tokens_nodup, hhandles ▸ h.handles_nodup,
    hhandles ▸ h.handles_lt, h.injective, h.issued, htokens ▸ h.known,
    hbefore.append (hafter.cons hself)⟩

end Tracks

end LiveFeed
