import Mathlib.Data.List.Nodup
import LiveFeed.Proofs.Mount
import LiveFeed.Proofs.Plans

namespace LiveFeed

variable {R : Type} {layout : Layout R}

/-- The child that shows a record: its handle, and what is drawn of it under its key. -/
def Nodes.picture (n : Nodes) (layout : Layout R) (base : String) (r : R) : Option Child :=
  match n.get? (layout.token r), layout.render r with
  | some handle, .ok node => some ⟨handle, node.withId (base ++ "-" ++ layout.token r)⟩
  | _, _ => none

namespace Nodes

variable {n : Nodes} {base : String} {r : R} {c : Child}

theorem picture_eq_some_iff :
    n.picture layout base r = some c ↔
      n.get? (layout.token r) = some c.handle ∧
        ∃ node, layout.render r = .ok node ∧
          c.element = node.withId (base ++ "-" ++ layout.token r) := by
  obtain ⟨handle, element⟩ := c
  unfold picture
  split
  next h node hh hn => simp [hh, hn, eq_comm]
  next hno =>
    constructor
    · intro h
      simp at h
    · rintro ⟨hh, node, hn, -⟩
      exact absurd hn (hno _ _ hh)

theorem map_picture_congr {n' : Nodes} {rs : List R}
    (h : ∀ r ∈ rs, n'.get? (layout.token r) = n.get? (layout.token r)) :
    rs.map (n'.picture layout base) = rs.map (n.picture layout base) := by
  refine List.map_congr_left fun r hr => ?_
  simp [picture, h r hr]

/-- A handle that is given out anew is that of no other token. -/
theorem injective_insert {next : Handle} (hn : ∀ t h, n.get? t = some h → h < next)
    (hi : ∀ s t h, n.get? s = some h → n.get? t = some h → s = t) (token : String) :
    ∀ s t h, (n.insert token next).get? s = some h → (n.insert token next).get? t = some h →
      s = t := by
  intro s t i hs ht
  rw [get?_insert] at hs ht
  by_cases hst : s = token <;> by_cases htt : t = token
  · exact hst.trans htt.symm
  · simp only [hst, htt, if_true, if_false, Option.some.injEq] at hs ht
    exact absurd (hn t i ht) (hs ▸ Nat.lt_irrefl next)
  · simp only [hst, htt, if_true, if_false, Option.some.injEq] at hs ht
    exact absurd (hn s i hs) (ht ▸ Nat.lt_irrefl next)
  · simp only [hst, htt, if_false] at hs ht
    exact hi s t i hs ht

theorem issued_insert {next : Handle} (hn : ∀ t h, n.get? t = some h → h < next)
    (token : String) : ∀ t h, (n.insert token next).get? t = some h → h < next + 1 := by
  intro t i ht
  rw [get?_insert] at ht
  by_cases htt : t = token
  · simp only [htt, if_true, Option.some.injEq] at ht
    simp [ht]
  · simp only [htt, if_false] at ht
    exact Nat.lt_succ_of_lt (hn t i ht)

theorem injective_erase (hi : ∀ s t h, n.get? s = some h → n.get? t = some h → s = t)
    (token : String) :
    ∀ s t h, (n.erase token).get? s = some h → (n.erase token).get? t = some h → s = t := by
  intro s t i hs ht
  rw [get?_erase, Option.ite_none_left_eq_some] at hs ht
  exact hi s t i hs.2 ht.2

theorem issued_erase {next : Handle} (hn : ∀ t h, n.get? t = some h → h < next)
    (token : String) : ∀ t h, (n.erase token).get? t = some h → h < next := by
  intro t i ht
  rw [get?_erase, Option.ite_none_left_eq_some] at ht
  exact hn t i ht.2

end Nodes

/-- A mount shows records: its children are their pictures, one for one and in order. -/
structure Shows (layout : Layout R) (base : String) (m : Mount) (n : Nodes) (rs : List R) :
    Prop where
  base_eq : m.base = base
  willing : m.refusing = none
  tokens_nodup : (rs.map layout.token).Nodup
  pictures : rs.map (n.picture layout base) = m.children.map some
  injective : ∀ s t h, n.get? s = some h → n.get? t = some h → s = t
  issued : ∀ t h, n.get? t = some h → h < m.next

namespace Shows

variable {base : String} {m : Mount} {n : Nodes} {rs before after : List R} {r old : R}

theorem handles_eq (h : Shows layout base m n rs) :
    (rs.map layout.token).map n.get? = m.handles.map some := by
  have hp := congrArg (List.map (Option.map Child.handle)) h.pictures
  simp only [List.map_map] at hp
  rw [Mount.handles, List.map_map, List.map_map]
  refine Eq.trans (List.map_congr_left fun r hr => ?_) hp
  have hm : n.picture layout base r ∈ m.children.map some := h.pictures ▸ List.mem_map_of_mem hr
  obtain ⟨c, -, hc⟩ := List.mem_map.mp hm
  have hget := (Nodes.picture_eq_some_iff.mp hc.symm).1
  simp [Function.comp, hget, ← hc]

/-- Children of records with different tokens have different handles. -/
theorem handles_nodup (h : Shows layout base m n rs) : m.handles.Nodup := by
  apply List.Nodup.of_map some
  rw [← h.handles_eq]
  refine h.tokens_nodup.map_on fun s hs t _ he => ?_
  have hm : n.get? s ∈ m.handles.map some := h.handles_eq ▸ List.mem_map_of_mem hs
  obtain ⟨handle, -, hh⟩ := List.mem_map.mp hm
  exact h.injective s t handle hh.symm (he ▸ hh.symm)

theorem split (h : Shows layout base m n (before ++ r :: after)) :
    ∃ front c back, m.children = front ++ c :: back ∧
      before.map (n.picture layout base) = front.map some ∧
      n.picture layout base r = some c ∧ after.map (n.picture layout base) = back.map some := by
  have hp := h.pictures
  rw [List.map_append, List.map_cons] at hp
  obtain ⟨front, rest, hc, hfront, hrest⟩ := List.map_eq_append_iff.mp hp.symm
  obtain ⟨c, back, rfl, hcr, hback⟩ := List.map_eq_cons_iff.mp hrest
  exact ⟨front, c, back, hc, hfront.symm, hcr.symm, hback.symm⟩

theorem detached (h : Shows layout base m n (before ++ r :: after)) {handle : Handle}
    (hr : n.get? (layout.token r) = some handle) (key : String) :
    ∃ m', m.perform (.detach ⟨handle, key⟩) = (true, m') ∧ m'.next = m.next ∧
      Shows layout base m' n (before ++ after) := by
  obtain ⟨front, c, back, hc, hfront, hcr, hback⟩ := h.split
  obtain rfl : c.handle = handle :=
    Option.some.inj ((Nodes.picture_eq_some_iff.mp hcr).1.symm.trans hr)
  have hw : m.refusing ≠ some .detach := by simp [h.willing]
  have hd := Mount.detach_eq hc h.handles_nodup hw
  refine ⟨_, Mount.perform_detach hd key, rfl, h.base_eq, h.willing, ?_, ?_, h.injective,
    h.issued⟩
  · exact h.tokens_nodup.sublist ((sublist_append_cons before after r).map layout.token)
  · simp [hfront, hback]

theorem placed (h : Shows layout base m n (before ++ after)) {node : Element}
    (hr : layout.token r ∉ (before ++ after).map layout.token)
    (hn : layout.render r = .ok node) {anchor : Option Anchor}
    (ha : anchor.map (·.handle) = (after.head?.bind (n.picture layout base)).map (·.handle)) :
    ∃ m', m.perform (.place (base ++ "-" ++ layout.token r) node anchor) = (true, m') ∧
      Shows layout base m' (n.insert (layout.token r) m.next) (before ++ r :: after) := by
  obtain ⟨front, back, hc, hfront, hback⟩ :=
    List.map_eq_append_iff.mp (h.pictures.symm.trans List.map_append)
  have hhead : anchor.map (·.handle) = back.head?.map (·.handle) := by
    rw [ha]
    have hh := congrArg List.head? hback
    simp only [List.head?_map] at hh
    cases back with
    | nil => cases after <;> simp_all
    | cons c back => cases after <;> simp_all
  have hw : m.refusing ≠ some .insertBefore := by simp [h.willing]
  refine ⟨_, Mount.perform_place hc h.handles_nodup hw hhead _ node, h.base_eq, h.willing,
    ?_, ?_, Nodes.injective_insert h.issued h.injective _, Nodes.issued_insert h.issued _⟩
  · rw [List.map_append, List.map_cons, List.nodup_middle, ← List.map_append]
    exact List.nodup_cons.mpr ⟨hr, h.tokens_nodup⟩
  · have keep : ∀ e ∈ before ++ after,
        (n.insert (layout.token r) m.next).get? (layout.token e) = n.get? (layout.token e) := by
      intro e he
      have hne : layout.token e ≠ layout.token r := fun heq => hr (heq ▸ List.mem_map_of_mem he)
      simp [Nodes.get?_insert, hne]
    have hself : (n.insert (layout.token r) m.next).picture layout base r =
        some ⟨m.next, node.withId (base ++ "-" ++ layout.token r)⟩ := by
      simp [Nodes.picture, Nodes.get?_insert, hn]
    rw [List.map_append, List.map_cons, hself,
      Nodes.map_picture_congr fun e he => keep e (List.mem_append_left after he),
      Nodes.map_picture_congr fun e he => keep e (List.mem_append_right before he)]
    simp [hfront, hback]

theorem replaced (h : Shows layout base m n (before ++ old :: after))
    (ho : layout.token old = layout.token r) {node : Element} (hn : layout.render r = .ok node)
    {handle : Handle} (hr : n.get? (layout.token r) = some handle) (key : String) :
    ∃ m', m.perform (.replace ⟨handle, key⟩ node) = (true, m') ∧
      Shows layout base m' n (before ++ r :: after) := by
  obtain ⟨front, c, back, hc, hfront, hco, hback⟩ := h.split
  obtain ⟨hget, node', -, helement⟩ := Nodes.picture_eq_some_iff.mp hco
  rw [ho] at hget helement
  obtain rfl : c.handle = handle := Option.some.inj (hget.symm.trans hr)
  have hw : m.refusing ≠ some .replace := by simp [h.willing]
  have he := Mount.replace_eq hc h.handles_nodup hw node
  have hid : c.element.tag.id.getD "" = base ++ "-" ++ layout.token r := by simp [helement]
  rw [hid] at he
  refine ⟨_, Mount.perform_replace he key, h.base_eq, h.willing, ?_, ?_, h.injective, h.issued⟩
  · simpa [ho] using h.tokens_nodup
  · simp [hfront, hback, Nodes.picture, hr, hn]

end Shows

end LiveFeed
