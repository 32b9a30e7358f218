import LiveFeed.OrderedList
import LiveFeed.Proofs.Basic

namespace LiveFeed

/-- The call that attaches a child under a key, in front of another or at the end. -/
def Call.place (key : String) : Option String → Call
  | none => append key
  | some before => insertBefore key before

theorem Edit.call_place (key : String) (node : Element) (before : Option Anchor) :
    (place key node before).call = .place key (before.map (·.key)) := by
  cases before <;> rfl

namespace Mount

theorem contains_iff {m : Mount} {h : Handle} : m.contains h = true ↔ h ∈ m.handles := by
  simp [contains]

theorem handles_ne {m : Mount} {front back : List Child} {c : Child}
    (hc : m.children = front ++ c :: back) (hd : m.handles.Nodup) :
    (∀ x ∈ front, x.handle ≠ c.handle) ∧ ∀ x ∈ back, x.handle ≠ c.handle := by
  rw [handles, hc] at hd
  exact ne_of_nodup_map hd

theorem contains_of_children {m : Mount} {front back : List Child} {c : Child}
    (hc : m.children = front ++ c :: back) : m.contains c.handle = true := by
  simp [contains_iff, handles, hc]

theorem insertBefore_eq {m : Mount} {front back : List Child} {c : Child}
    (hc : m.children = front ++ c :: back) (hd : m.handles.Nodup)
    (hr : m.refusing ≠ some .insertBefore) (key : String) (node : Element) :
    m.insertBefore key node c.handle =
      (.ok m.next,
        { m with
          children := front ++ ⟨m.next, node.withId key⟩ :: c :: back
          next := m.next + 1 }) := by
  have hfront := (handles_ne hc hd).1
  have hmem := contains_of_children hc
  have htake : m.children.takeWhile (·.handle ≠ c.handle) = front := by
    rw [hc, List.takeWhile_append_of_pos (by simpa using hfront)]
    simp
  have hdrop : m.children.dropWhile (·.handle ≠ c.handle) = c :: back := by
    rw [hc, List.dropWhile_append_of_pos (by simpa using hfront)]
    simp
  simp only [insertBefore, unlessRefused, hr, hmem, htake, hdrop, if_false, if_true]

theorem replace_eq {m : Mount} {front back : List Child} {c : Child}
    (hc : m.children = front ++ c :: back) (hd : m.handles.Nodup)
    (hr : m.refusing ≠ some .replace) (node : Element) :
    m.replace c.handle node =
      (.ok (),
        { m with
          children := front ++
            { c with element := node.withId (c.element.tag.id.getD "") } :: back }) := by
  obtain ⟨hfront, hback⟩ := handles_ne hc hd
  have hmem := contains_of_children hc
  have keep {cs : List Child} (h : ∀ x ∈ cs, x.handle ≠ c.handle) :
      (cs.map fun x => if x.handle = c.handle then
        { x with element := node.withId (x.element.tag.id.getD "") } else x) = cs :=
    (List.map_congr_left fun x hx => if_neg (h x hx)).trans (List.map_id' cs)
  simp only [replace, unlessRefused, hr, hmem, if_false, if_true]
  rw [hc, List.map_append, List.map_cons, keep hfront, keep hback, if_pos rfl]

theorem handle_not_mem {m : Mount} {front back : List Child} {c : Child}
    (hc : m.children = front ++ c :: back) (hd : m.handles.Nodup) :
    c.handle ∉ (front ++ back).map Child.handle := by
  rw [handles, hc] at hd
  exact not_mem_map_of_nodup hd

theorem eraseP_handle {m : Mount} {front back : List Child} {c : Child}
    (hc : m.children = front ++ c :: back) (hd : m.handles.Nodup) :
    m.children.eraseP (·.handle = c.handle) = front ++ back := by
  have hfront := (handles_ne hc hd).1
  rw [hc, List.eraseP_append_right _ (by simpa using hfront)]
  simp

theorem detach_eq {m : Mount} {front back : List Child} {c : Child}
    (hc : m.children = front ++ c :: back) (hd : m.handles.Nodup)
    (hr : m.refusing ≠ some .detach) :
    m.detach c.handle = (.ok c.element, { m with children := front ++ back }) := by
  have hfront := (handles_ne hc hd).1
  have hget : m.get? c.handle = some c.element := by
    rw [get?, hc, List.find?_append, List.find?_eq_none.mpr (by simpa using hfront)]
    simp
  simp only [detach, unlessRefused, hr, hget, eraseP_handle hc hd, if_false]

/-- An element is attached in front of the child that the anchor names, or at the end. -/
theorem perform_place {m : Mount} {front back : List Child} (hc : m.children = front ++ back)
    (hd : m.handles.Nodup) (hr : m.refusing ≠ some .insertBefore) {before : Option Anchor}
    (hb : before.map (·.handle) = back.head?.map (·.handle)) (key : String) (node : Element) :
    m.perform (.place key node before) =
      (true,
        { m with
          children := front ++ ⟨m.next, node.withId key⟩ :: back
          next := m.next + 1 }) := by
  cases back with
  | nil =>
    obtain rfl : before = none := by simpa using hb
    simp [Edit.place, perform, append, hc]
  | cons c back =>
    obtain ⟨anchor, rfl, ha⟩ := Option.map_eq_some_iff.mp hb
    simp [Edit.place, perform, ha, insertBefore_eq hc hd hr, Except.isOk, Except.toBool]

theorem perform_replace {m m' : Mount} {h : Handle} {node : Element}
    (hr : m.replace h node = (.ok (), m')) (key : String) :
    m.perform (.replace ⟨h, key⟩ node) = (true, m') := by
  simp [perform, hr, Except.isOk, Except.toBool]

theorem perform_detach {m m' : Mount} {h : Handle} {e : Element}
    (hd : m.detach h = (.ok e, m')) (key : String) :
    m.perform (.detach ⟨h, key⟩) = (true, m') := by
  simp [perform, hd, Except.isOk, Except.toBool]

/-- The mount with nothing left to turn down. -/
def calm (m : Mount) : Mount := { m with refusing := none }

theorem unlessRefused_of_eq {α : Type} {m : Mount} {call : Refusable}
    (h : m.refusing = some call) (run : Except NotAttached α × Mount) :
    m.unlessRefused call run = (.error ⟨m.base⟩, m.calm) := by
  rw [unlessRefused, if_pos h, calm]

theorem exists_child {m : Mount} {h : Handle} (hc : m.contains h = true) :
    ∃ front c back, m.children = front ++ c :: back ∧ c.handle = h := by
  obtain ⟨c, hm, hh⟩ := List.mem_map.mp (contains_iff.mp hc)
  obtain ⟨front, back, hs⟩ := List.append_of_mem hm
  exact ⟨front, c, back, hs, hh⟩

/-- An element is turned down, or attached in front of the anchor or at the end. -/
theorem perform_place_cases {m : Mount} (hd : m.handles.Nodup) {before : Option Anchor}
    (hb : ∀ a ∈ before, m.contains a.handle = true) (key : String) (node : Element) :
    (m.refusing = some .insertBefore ∧ before.isSome = true ∧
      m.perform (.place key node before) = (false, m.calm)) ∨
    ∃ front back, m.children = front ++ back ∧
      before.map (·.handle) = back.head?.map (·.handle) ∧
      m.perform (.place key node before) =
        (true,
          { m with
            children := front ++ ⟨m.next, node.withId key⟩ :: back
            next := m.next + 1 }) := by
  cases before with
  | none =>
    right
    exact ⟨m.children, [], by simp, rfl, by simp [Edit.place, perform, append]⟩
  | some a =>
    by_cases hr : m.refusing = some .insertBefore
    · left
      have hi : m.insertBefore key node a.handle = (.error ⟨m.base⟩, m.calm) :=
        unlessRefused_of_eq hr _
      exact ⟨hr, rfl, by simp [Edit.place, perform, hi, Except.isOk, Except.toBool]⟩
    · right
      obtain ⟨front, c, back, hc, hh⟩ := exists_child (hb a rfl)
      have hhead : (some a).map (·.handle) = (c :: back).head?.map (·.handle) := by simp [hh]
      exact ⟨front, c :: back, hc, hhead, perform_place hc hd hr hhead key node⟩

theorem perform_replace_cases {m : Mount} (hd : m.handles.Nodup) {target : Anchor}
    (ht : m.contains target.handle = true) (node : Element) :
    (m.refusing = some .replace ∧ m.perform (.replace target node) = (false, m.calm)) ∨
    ∃ front c back, m.children = front ++ c :: back ∧ c.handle = target.handle ∧
      m.perform (.replace target node) =
        (true,
          { m with
            children := front ++
              { c with element := node.withId (c.element.tag.id.getD "") } :: back }) := by
  by_cases hr : m.refusing = some .replace
  · left
    have hi : m.replace target.handle node = (.error ⟨m.base⟩, m.calm) :=
      unlessRefused_of_eq hr _
    exact ⟨hr, by simp [perform, hi, Except.isOk, Except.toBool]⟩
  · right
    obtain ⟨front, c, back, hc, hh⟩ := exists_child ht
    refine ⟨front, c, back, hc, hh, perform_replace ?_ target.key⟩
    rw [← hh]
    exact replace_eq hc hd hr node

theorem perform_detach_cases {m : Mount} (hd : m.handles.Nodup) {target : Anchor}
    (ht : m.contains target.handle = true) :
    (m.refusing = some .detach ∧ m.perform (.detach target) = (false, m.calm)) ∨
    ∃ front c back, m.children = front ++ c :: back ∧ c.handle = target.handle ∧
      m.perform (.detach target) = (true, { m with children := front ++ back }) := by
  by_cases hr : m.refusing = some .detach
  · left
    have hi : m.detach target.handle = (.error ⟨m.base⟩, m.calm) := unlessRefused_of_eq hr _
    exact ⟨hr, by simp [perform, hi, Except.isOk, Except.toBool]⟩
  · right
    obtain ⟨front, c, back, hc, hh⟩ := exists_child ht
    refine ⟨front, c, back, hc, hh, perform_detach (e := c.element) ?_ target.key⟩
    rw [← hh]
    exact detach_eq hc hd hr

theorem performAll_agreed {m : Mount} {e : Edit} (h : (m.perform e).1 = true) (es : List Edit) :
    m.performAll (e :: es) =
      { (m.perform e).2.performAll es with
        calls := e.call :: ((m.perform e).2.performAll es).calls } := by
  simp only [performAll, h, if_true]

/-- A change is turned down for the sake of a child that it depends on. -/
theorem exists_dependence {m : Mount} {e : Edit} (h : ¬ (m.perform e).1 = true) :
    ∃ call anchor, e.dependence? = some (call, anchor) := by
  cases e with
  | append key node => exact absurd rfl h
  | insertBefore key node before => exact ⟨_, _, rfl⟩
  | replace target node => exact ⟨_, _, rfl⟩
  | detach target => exact ⟨_, _, rfl⟩

theorem performAll_one {m m' : Mount} {e : Edit} (h : m.perform e = (true, m')) :
    m.performAll [e] = { mount := m', calls := [e.call] } := by
  simp [performAll, h]

theorem performAll_two {m m' m'' : Mount} {e e' : Edit} (h : m.perform e = (true, m'))
    (h' : m'.perform e' = (true, m'')) :
    m.performAll [e, e'] = { mount := m'', calls := [e.call, e'.call] } := by
  simp [performAll, h, h']

/-- The first call that is turned down ends the row. -/
theorem performAll_refused {m m' : Mount} {e : Edit} (h : m.perform e = (false, m'))
    {call : Refusable} {anchor : Anchor} (hd : e.dependence? = some (call, anchor))
    (es : List Edit) :
    m.performAll (e :: es) =
      { mount := m', calls := [.refused call], failed := some anchor } := by
  simp [performAll, h, hd]

/-- Changes of which none is turned down are all made, in their order. -/
theorem performAll_calls {m : Mount} {es : List Edit} (h : (m.performAll es).failed = none) :
    (m.performAll es).calls = es.map Edit.call := by
  induction es generalizing m with
  | nil => rfl
  | cons e es ih =>
    by_cases hp : (m.perform e).1 = true
    · rw [performAll_agreed hp] at h ⊢
      rw [List.map_cons, ih h]
    · obtain ⟨call, anchor, hd⟩ := exists_dependence hp
      have hp' : m.perform e = (false, (m.perform e).2) :=
        Prod.ext (Bool.eq_false_iff.mpr hp) rfl
      rw [performAll_refused hp' hd] at h
      cases h

theorem performAll_second_refused {m m' m'' : Mount} {e e' : Edit}
    (h : m.perform e = (true, m')) (h' : m'.perform e' = (false, m'')) {call : Refusable}
    {anchor : Anchor} (hd : e'.dependence? = some (call, anchor)) :
    m.performAll [e, e'] =
      { mount := m'', calls := [e.call, .refused call], failed := some anchor } := by
  simp [performAll, h, h', hd]

end Mount

end LiveFeed
