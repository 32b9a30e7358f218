import LiveFeed.Proofs.Mirrored
import LiveFeed.Proofs.Requests
import LiveFeed.Proofs.Tracking

namespace LiveFeed

theorem Nodes.insert_erase (n : Nodes) (token : String) (h : Handle) :
    (n.erase token).insert token h = n.insert token h := by
  simp [insert, erase, List.filter_filter]

namespace OrderedList

variable {R : Type} {layout : Layout R} {l : OrderedList layout} {base : String}

/-- The list over a mount that has nothing left to turn down. -/
def calm (l : OrderedList layout) : OrderedList layout := { l with mount := l.mount.calm }

/-- The list after its child with a handle was detached and nothing came in its place. -/
def bereft (l : OrderedList layout) (h : Handle) : OrderedList layout :=
  { l.calm with mount.children := l.mount.children.eraseP (·.handle = h) }

/-- The own children of a list that are left are in line with its records. -/
abbrev Tracked (base : String) (l : OrderedList layout) : Prop :=
  Tracks layout base l.mount l.nodes l.records

theorem carryOut_failed {edits : List Edit} {m : Mount} {calls : List Call} {anchor : Anchor}
    (h : l.mount.performAll edits = { mount := m, calls, failed := some anchor })
    (records : List R) (nodes : Nodes) :
    l.carryOut ⟨edits, records, nodes⟩ () =
      (⟨.error (.missingMountNode anchor.key), calls⟩, { l with mount := m }) := by
  simp [carryOut, h]

/-- What comes of a plan: the list is kept in line, or the mount turned one of the calls down. -/
inductive Carried (base : String) (l : OrderedList layout) (op : Operation R) :
    Answer Unit × OrderedList layout → Prop
  | done {calls : List Call} {l' : OrderedList layout} (tracked : l'.Tracked base)
      (refusing : l'.mount.refusing = l.mount.refusing) : Carried base l op (⟨.ok (), calls⟩, l')
  | refused {call : Refusable} {e : ViewError} (refusing : l.mount.refusing = some call) :
      Carried base l op (⟨.error e, [.refused call]⟩, l.calm)
  | stranded {r : R} {h : Handle} {e : ViewError} (update : op = .update r)
      (refusing : l.mount.refusing = some .insertBefore)
      (known : l.nodes.get? (layout.token r) = some h) (there : h ∈ l.mount.handles) :
      Carried base l op
        (⟨.error e, [.detach (l.key (layout.token r)), .refused .insertBefore]⟩, l.bereft h)

theorem Carried.result_eq {op : Operation R} {outcome : Answer Unit × OrderedList layout}
    (hc : Carried base l op outcome) (hw : l.mount.refusing = none) :
    outcome.1.result = .ok () := by
  cases hc with
  | done => rfl
  | refused refusing => simp [hw] at refusing
  | stranded _ refusing => simp [hw] at refusing

/-- The child that an element is put in front of is the one that the anchor names. -/
theorem head_of_anchor {back : List R} {before : Option Anchor} {cs : List Child} {n : Nodes}
    (ha : back.head?.map (fun e => n.get? (layout.token e)) =
      before.map fun a => some a.handle)
    (hb : before.map (·.handle) = cs.head?.map (·.handle)) :
    back.head?.map (fun e => n.get? (layout.token e)) = cs.head?.map fun c => some c.handle := by
  have hs := congrArg (Option.map some) hb
  simp only [Option.map_map] at hs
  exact ha.trans hs

namespace Tracked

theorem carried_insert (h : l.Tracked base) {r : R} {front back : List R} {node : Element}
    {before : Option Anchor} (hs : l.records = front ++ back) (hr : layout.token r ∉ l.tokens)
    (hn : layout.render r = .ok node) (ha : l.anchor back.head? = .ok before) :
    Carried base l (.insert r)
      (l.carryOut
        { edits := [.place (l.key (layout.token r)) node before]
          records := front ++ r :: back
          nodes := l.nodes.insert (layout.token r) l.mount.next } ()) := by
  obtain ⟨hhead, hthere⟩ := of_anchor ha
  have hsplit : Tracks layout base l.mount l.nodes (front ++ back) := hs ▸ h
  have hfresh : layout.token r ∉ (front ++ back).map layout.token := hs ▸ hr
  rcases Mount.perform_place_cases h.handles_nodup hthere (l.key (layout.token r)) node with
    ⟨hrefusing, hsome, hp⟩ | ⟨cs, cs', hc, hb, hp⟩
  · obtain ⟨a, rfl⟩ := Option.isSome_iff_exists.mp hsome
    rw [carryOut_failed (Mount.performAll_refused hp rfl [])]
    exact .refused hrefusing
  · rw [carryOut_eq (Mount.performAll_one hp)]
    have hplaced := hsplit.placed hc (head_of_anchor hhead hb) hfresh hn
    rw [← key_of_base h.base_eq] at hplaced
    exact .done hplaced rfl

theorem carried_replace (h : l.Tracked base) {r old : R} {front back : List R} {node : Element}
    {child : Anchor} (hs : l.records = front ++ old :: back)
    (ho : layout.token old = layout.token r) (hn : layout.render r = .ok node)
    (hf : l.attached (layout.token r) = .ok child) :
    Carried base l (.update r)
      (l.carryOut
        { edits := [.replace child node]
          records := front ++ r :: back
          nodes := l.nodes } ()) := by
  obtain ⟨hget, hthere, -⟩ := of_attached hf
  have hsplit : Tracks layout base l.mount l.nodes (front ++ old :: back) := hs ▸ h
  rcases Mount.perform_replace_cases h.handles_nodup hthere node with
    ⟨hrefusing, hp⟩ | ⟨cs, c, cs', hc, hh, hp⟩
  · rw [carryOut_failed (Mount.performAll_refused hp rfl [])]
    exact .refused hrefusing
  · rw [carryOut_eq (Mount.performAll_one hp)]
    exact .done (hsplit.replaced ho hc (hh ▸ hget) hn) rfl

theorem forgotten (h : l.Tracked base) {old : R} {front back : List R}
    (hs : l.records = front ++ old :: back) {cs cs' : List Child} {c : Child}
    (hc : l.mount.children = cs ++ c :: cs')
    (hget : l.nodes.get? (layout.token old) = some c.handle) :
    Tracks layout base { l.mount with children := cs ++ cs' } (l.nodes.erase (layout.token old))
      (front ++ back) := by
  have hsplit : Tracks layout base l.mount l.nodes (front ++ old :: back) := hs ▸ h
  have hsub : (cs ++ cs').Sublist l.mount.children := hc ▸ sublist_append_cons cs cs' c
  have hlost : Tracks layout base { l.mount with children := cs ++ cs' } l.nodes
      (front ++ old :: back) := hsplit.of_children rfl rfl hsub
  refine hlost.forgotten fun i hi hm => ?_
  obtain rfl : c.handle = i := Option.some.inj (hget.symm.trans hi)
  exact Mount.handle_not_mem hc h.handles_nodup hm

theorem carried_remove (h : l.Tracked base) {old : R} {front back : List R} {child : Anchor}
    (hs : l.records = front ++ old :: back) (hf : l.attached (layout.token old) = .ok child) :
    Carried base l (.remove (layout.token old))
      (l.carryOut
        { edits := [.detach child]
          records := front ++ back
          nodes := l.nodes.erase (layout.token old) } ()) := by
  obtain ⟨hget, hthere, -⟩ := of_attached hf
  rcases Mount.perform_detach_cases h.handles_nodup hthere with
    ⟨hrefusing, hp⟩ | ⟨cs, c, cs', hc, hh, hp⟩
  · rw [carryOut_failed (Mount.performAll_refused hp rfl [])]
    exact .refused hrefusing
  · rw [carryOut_eq (Mount.performAll_one hp)]
    exact .done (h.forgotten hs hc (hh ▸ hget)) rfl

theorem contains_anchor (h : l.Tracked base) {old : R} {before after back : List R}
    (hs : l.records = before ++ old :: after) (hsub : ∀ e ∈ back, e ∈ before ++ after)
    {next : Option Anchor} (ha : l.anchor back.head? = .ok next) {cs cs' : List Child} {c : Child}
    (hc : l.mount.children = cs ++ c :: cs')
    (hget : l.nodes.get? (layout.token old) = some c.handle) :
    ∀ a ∈ next, Mount.contains { l.mount with children := cs ++ cs' } a.handle = true := by
  obtain ⟨hhead, hthere⟩ := of_anchor ha
  rintro a ⟨⟩
  obtain ⟨e, he, hea⟩ : ∃ e, back.head? = some e ∧
      l.nodes.get? (layout.token e) = some a.handle := by
    simpa using hhead
  have hmem : e ∈ before ++ after := hsub e (List.mem_of_head? he)
  -- different records have different children, so the anchor is not the child that is gone
  have hne : a.handle ≠ c.handle := by
    intro heq
    have htoken := h.injective _ _ _ hea (heq ▸ hget)
    exact token_not_mem h.tokens_nodup hs (htoken ▸ List.mem_map_of_mem hmem)
  have hin := Mount.contains_iff.mp (hthere a rfl)
  rw [Mount.handles, hc] at hin
  exact Mount.contains_iff.mpr ((mem_map_append_cons.mp hin).resolve_left hne)

theorem carried_move (h : l.Tracked base) {r old : R} {before after front back : List R}
    {node : Element} {child : Anchor} {next : Option Anchor}
    (hs : l.records = before ++ old :: after) (ho : layout.token old = layout.token r)
    (hrest : before ++ after = front ++ back) (hn : layout.render r = .ok node)
    (hf : l.attached (layout.token r) = .ok child) (ha : l.anchor back.head? = .ok next) :
    Carried base l (.update r)
      (l.carryOut
        { edits := [.detach child, .place (l.key (layout.token r)) node next]
          records := front ++ r :: back
          nodes := l.nodes.insert (layout.token r) l.mount.next } ()) := by
  obtain ⟨hget, hthere, hkey⟩ := of_attached hf
  rcases Mount.perform_detach_cases h.handles_nodup hthere with
    ⟨hrefusing, hp⟩ | ⟨cs, c, cs', hc, hh, hp⟩
  · rw [carryOut_failed (Mount.performAll_refused hp rfl _)]
    exact .refused hrefusing
  · have hgetc : l.nodes.get? (layout.token r) = some c.handle := hh ▸ hget
    have hgetold : l.nodes.get? (layout.token old) = some c.handle := ho ▸ hgetc
    -- with its child gone the record is as good as removed; it is then placed like a new one
    have hforgot := h.forgotten hs hc hgetold
    rw [hrest, ho] at hforgot
    have hback : ∀ e ∈ back, e ∈ before ++ after := fun e he =>
      hrest ▸ List.mem_append_right front he
    have hanchor := h.contains_anchor hs hback ha hc hgetold
    rcases Mount.perform_place_cases hforgot.handles_nodup hanchor (l.key (layout.token r)) node
      with ⟨hrefusing, hsome, hp'⟩ | ⟨ds, ds', hd, hb, hp'⟩
    · obtain ⟨a, rfl⟩ := Option.isSome_iff_exists.mp hsome
      rw [carryOut_failed (Mount.performAll_second_refused hp hp' rfl)]
      have hleft : ({ l with mount := Mount.calm { l.mount with children := cs ++ cs' } } :
          OrderedList layout) = l.bereft c.handle := by
        simp only [bereft, calm, Mount.calm, Mount.eraseP_handle hc h.handles_nodup]
      rw [hleft, Edit.call, hkey]
      exact .stranded rfl hrefusing hgetc (by simp [Mount.handles, hc])
    · rw [carryOut_eq (Mount.performAll_two hp hp')]
      have hfresh : layout.token r ∉ (front ++ back).map layout.token := by
        rw [← hrest, ← ho]
        exact token_not_mem h.tokens_nodup hs
      have hkeep :
          back.head?.map (fun e => (l.nodes.erase (layout.token r)).get? (layout.token e)) =
            back.head?.map fun e => l.nodes.get? (layout.token e) := by
        refine Option.map_congr fun e he => ?_
        have hne : layout.token e ≠ layout.token r := fun heq =>
          hfresh (heq ▸ List.mem_map_of_mem (List.mem_append_right front (List.mem_of_head? he)))
        simp [Nodes.get?_erase, hne]
      have hhead := hkeep.trans (of_anchor ha).1
      have hplaced := hforgot.placed hd (head_of_anchor hhead hb) hfresh hn
      rw [← key_of_base h.base_eq, Nodes.insert_erase] at hplaced
      exact .done hplaced rfl

theorem carried (h : l.Tracked base) {op : Operation R} {plan : Plan R} (hp : l.Plans op plan) :
    Carried base l op (l.carryOut plan ()) := by
  cases hp with
  | insert records fresh drawn anchored => exact h.carried_insert records fresh drawn anchored
  | replace records token drawn found => exact h.carried_replace records token drawn found
  | move records token rest drawn found anchored =>
    exact h.carried_move records token rest drawn found anchored
  | remove records found => exact h.carried_remove records found

theorem ask_cases (h : l.Tracked base) (op : Operation R) :
    (∃ e, l.ask op = (⟨.error e, []⟩, l)) ∨ Carried base l op (l.ask op) := by
  rcases OrderedList.ask_cases h.tokens_nodup op with rfl | hfailed | ⟨plan, hp, ha⟩
  · exact Or.inr (.done (Tracks.clear h.base_eq) rfl)
  · exact Or.inl hfailed
  · right
    rw [ha]
    exact h.carried hp

theorem apply (h : l.Tracked base) (op : Operation R) : (l.apply op).Tracked base := by
  rw [← snd_ask]
  rcases h.ask_cases op with ⟨e, he⟩ | hc
  · rw [he]
    exact h
  · generalize l.ask op = outcome at hc
    cases hc with
    | done tracked => exact tracked
    | refused => exact h.of_children rfl rfl (List.Sublist.refl _)
    | stranded => exact h.of_children rfl rfl List.eraseP_sublist

theorem meet (h : l.Tracked base) (e : Event R) : (l.meet e).Tracked base := by
  cases e with
  | asked op => exact h.apply op
  | disturbed i =>
    cases i with
    | take key => exact h.of_children rfl rfl List.eraseP_sublist
    | attach key node => exact h.joined (node.withId key)
    | refuse call => exact h.of_children rfl rfl (List.Sublist.refl _)

end Tracked

theorem tracked_live (mount : Mount) (events : List (Event R)) :
    ((new layout mount).live events).Tracked mount.base := by
  have start : (new layout mount).Tracked mount.base := Tracks.clear rfl
  exact live_keeps (fun _ e hl => hl.meet e) start events

theorem Tracked.willing_apply (h : l.Tracked base) (hw : l.mount.refusing = none)
    (op : Operation R) : (l.apply op).mount.refusing = none := by
  rw [← snd_ask]
  rcases h.ask_cases op with ⟨e, he⟩ | hc
  · rw [he]
    exact hw
  · generalize l.ask op = outcome at hc
    cases hc with
    | done _ refusing => exact refusing.trans hw
    | refused => rfl
    | stranded => rfl

end OrderedList

end LiveFeed
