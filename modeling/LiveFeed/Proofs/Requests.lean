import LiveFeed.Proofs.Plans
import LiveFeed.Proofs.Runs

namespace LiveFeed.OrderedList

variable {R : Type} {layout : Layout R} {l : OrderedList layout}

/-- Carries an operation out and tells what came of it. -/
def ask (l : OrderedList layout) : Operation R → Answer Unit × OrderedList layout
  | .insert r => l.insert r
  | .update r => l.update r
  | .remove token =>
    let (answer, l) := l.remove token
    (⟨(fun _ => ()) <$> answer.result, answer.calls⟩, l)
  | .reset => (⟨.ok (), [.clear]⟩, l.reset)

theorem snd_ask (l : OrderedList layout) (op : Operation R) : (l.ask op).2 = l.apply op := by
  cases op <;> rfl

/--
All that an operation can have the mount change and store, said by the records around the place
that it concerns. An element goes in front of the child of the record behind its place.
-/
inductive Plans (l : OrderedList layout) : Operation R → Plan R → Prop
  | insert {r : R} {front back : List R} {node : Element} {before : Option Anchor}
      (records : l.records = front ++ back) (fresh : layout.token r ∉ l.tokens)
      (drawn : layout.render r = .ok node) (anchored : l.anchor back.head? = .ok before) :
      Plans l (.insert r)
        { edits := [.place (l.key (layout.token r)) node before]
          records := front ++ r :: back
          nodes := l.nodes.insert (layout.token r) l.mount.next }
  | replace {r old : R} {front back : List R} {node : Element} {child : Anchor}
      (records : l.records = front ++ old :: back) (token : layout.token old = layout.token r)
      (drawn : layout.render r = .ok node) (found : l.attached (layout.token r) = .ok child) :
      Plans l (.update r)
        { edits := [.replace child node]
          records := front ++ r :: back
          nodes := l.nodes }
  | move {r old : R} {before after front back : List R} {node : Element} {child : Anchor}
      {next : Option Anchor} (records : l.records = before ++ old :: after)
      (token : layout.token old = layout.token r) (rest : before ++ after = front ++ back)
      (drawn : layout.render r = .ok node) (found : l.attached (layout.token r) = .ok child)
      (anchored : l.anchor back.head? = .ok next) :
      Plans l (.update r)
        { edits := [.detach child, .place (l.key (layout.token r)) node next]
          records := front ++ r :: back
          nodes := l.nodes.insert (layout.token r) l.mount.next }
  | remove {old : R} {front back : List R} {child : Anchor}
      (records : l.records = front ++ old :: back)
      (found : l.attached (layout.token old) = .ok child) :
      Plans l (.remove (layout.token old))
        { edits := [.detach child]
          records := front ++ back
          nodes := l.nodes.erase (layout.token old) }

theorem of_attached {token : String} {child : Anchor} (h : l.attached token = .ok child) :
    l.nodes.get? token = some child.handle ∧ l.mount.contains child.handle = true ∧
      child.key = l.key token := by
  unfold attached at h
  split at h
  next handle hh =>
    obtain rfl := Except.ok.inj h
    obtain ⟨hget, hc⟩ := Option.filter_eq_some_iff.mp hh
    exact ⟨hget, hc, rfl⟩
  next => simp at h

theorem of_anchor {next : Option R} {before : Option Anchor} (h : l.anchor next = .ok before) :
    next.map (fun e => l.nodes.get? (layout.token e)) = before.map (fun a => some a.handle) ∧
      ∀ a ∈ before, l.mount.contains a.handle = true := by
  cases next with
  | none =>
    obtain rfl := Except.ok.inj h
    simp
  | some e =>
    cases ha : l.attached (layout.token e) with
    | error err => simp [anchor, ha, Functor.map, Except.map] at h
    | ok a =>
      obtain ⟨hget, hc, -⟩ := of_attached ha
      have hb : some a = before := by
        simpa [anchor, ha, Functor.map, Except.map] using h
      subst hb
      refine ⟨by simp [hget], ?_⟩
      rintro _ ⟨⟩
      exact hc

theorem of_render {r : R} {node : Element} (h : render layout r = .ok node) :
    layout.render r = .ok node := by
  cases hr : layout.render r with
  | error reason => simp [render_of_error hr] at h
  | ok e => simpa [render_of_ok hr] using h

theorem plans_insert {r : R} {plan : Plan R} (h : l.planInsert r = .ok plan) :
    l.Plans (.insert r) plan := by
  by_cases hr : layout.token r ∈ l.tokens
  · rw [planInsert_of_mem hr] at h
    simp at h
  · rw [planInsert_of_not_mem hr] at h
    obtain ⟨anchor, ha, h⟩ := exists_of_bind_eq_ok h
    obtain ⟨node, hn, h⟩ := exists_of_bind_eq_ok h
    obtain ⟨front, back, hs, hp⟩ := layout.place_split r l.records []
    rw [List.append_nil] at hs
    rw [layout.place_nil] at hp
    have hnext : l.records[l.records.findIdx (layout.precedes r)]? = back.head? := by
      rw [hp, hs, getElem?_append_length]
    have hrecords : l.records.insertIdx (l.records.findIdx (layout.precedes r)) r =
        front ++ r :: back := by
      rw [hp, hs, insertIdx_append_length]
    rw [hnext] at ha
    obtain rfl := Except.ok.inj h
    rw [hrecords]
    exact .insert hs hr (of_render hn) ha

theorem plans_update (hd : l.tokens.Nodup) {r : R} {plan : Plan R}
    (h : l.planUpdate r = .ok plan) : l.Plans (.update r) plan := by
  by_cases hr : layout.token r ∈ l.tokens
  · obtain ⟨before, old, after, hs, ho⟩ := exists_split hr
    rw [planUpdate_split hd hs ho] at h
    obtain ⟨child, hc, h⟩ := exists_of_bind_eq_ok h
    by_cases hp : layout.place r before after = before.length
    · rw [if_pos hp] at h
      obtain ⟨node, hn, h⟩ := exists_of_bind_eq_ok h
      obtain rfl := Except.ok.inj h
      exact .replace hs ho (of_render hn) hc
    · rw [if_neg hp] at h
      obtain ⟨anchor, ha, h⟩ := exists_of_bind_eq_ok h
      obtain ⟨node, hn, h⟩ := exists_of_bind_eq_ok h
      obtain ⟨front, back, hsplit, hplace⟩ := layout.place_split r before after
      rw [hplace, hsplit, getElem?_append_length] at ha
      obtain rfl := Except.ok.inj h
      rw [hplace, hsplit, insertIdx_append_length]
      exact .move hs ho hsplit (of_render hn) hc ha
  · rw [planUpdate_of_not_mem hr] at h
    simp at h

theorem plans_remove (hd : l.tokens.Nodup) {token : String} {r : R} {plan : Plan R}
    (h : l.planRemove token = .ok (r, plan)) : l.Plans (.remove token) plan := by
  by_cases ht : token ∈ l.tokens
  · obtain ⟨before, old, after, hs, rfl⟩ := exists_split ht
    rw [planRemove_split hd hs] at h
    obtain ⟨child, hc, h⟩ := exists_of_bind_eq_ok h
    obtain ⟨-, rfl⟩ := Prod.mk.inj (Except.ok.inj h)
    exact .remove hs hc
  · rw [planRemove_of_not_mem ht] at h
    simp at h

theorem carryOut_unit {α : Type} (plan : Plan R) (value : α) :
    (⟨(fun _ => ()) <$> (l.carryOut plan value).1.result, (l.carryOut plan value).1.calls⟩,
      (l.carryOut plan value).2) = l.carryOut plan () := by
  cases h : (l.mount.performAll plan.edits).failed with
  | none => simp [carryOut, h, Functor.map, Except.map]
  | some anchor => simp [carryOut, h, Functor.map, Except.map]

/-- An operation fails before any change, or has a plan carried out. -/
theorem ask_cases (hd : l.tokens.Nodup) (op : Operation R) :
    op = .reset ∨ (∃ e, l.ask op = (⟨.error e, []⟩, l)) ∨
      ∃ plan, l.Plans op plan ∧ l.ask op = l.carryOut plan () := by
  cases op with
  | insert r =>
    right
    cases h : l.planInsert r with
    | error e => exact Or.inl ⟨e, by rw [ask, insert_of_error h]⟩
    | ok plan => exact Or.inr ⟨plan, plans_insert h, by rw [ask, insert_of_ok h]⟩
  | update r =>
    right
    cases h : l.planUpdate r with
    | error e => exact Or.inl ⟨e, by rw [ask, update_of_error h]⟩
    | ok plan => exact Or.inr ⟨plan, plans_update hd h, by rw [ask, update_of_ok h]⟩
  | remove token =>
    right
    cases h : l.planRemove token with
    | error e =>
      left
      refine ⟨e, ?_⟩
      rw [ask, remove_of_error h]
      rfl
    | ok found =>
      obtain ⟨r, plan⟩ := found
      right
      refine ⟨plan, plans_remove hd h, ?_⟩
      rw [ask, remove_of_ok h]
      exact carryOut_unit plan r
  | reset => exact Or.inl rfl

end LiveFeed.OrderedList
