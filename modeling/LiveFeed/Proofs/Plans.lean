import LiveFeed.Proofs.Placement

namespace LiveFeed.OrderedList

variable {R α : Type} {layout : Layout R} {l : OrderedList layout}

theorem render_of_ok {r : R} {node : Element} (h : layout.render r = .ok node) :
    render layout r = .ok node := by
  rw [render, h]
  rfl

theorem render_of_error {r : R} {reason : String} (h : layout.render r = .error reason) :
    render layout r = .error (.render (layout.token r) reason) := by
  rw [render, h]
  rfl

theorem exists_split {token : String} (h : token ∈ l.tokens) :
    ∃ before old after, l.records = before ++ old :: after ∧ layout.token old = token := by
  obtain ⟨old, hm, ho⟩ := List.mem_map.mp h
  obtain ⟨before, after, hs⟩ := List.append_of_mem hm
  exact ⟨before, old, after, hs, ho⟩

theorem token_ne {before after : List R} {old : R} (hd : l.tokens.Nodup)
    (hs : l.records = before ++ old :: after) :
    (∀ e ∈ before, layout.token e ≠ layout.token old) ∧
      ∀ e ∈ after, layout.token e ≠ layout.token old := by
  rw [tokens, hs] at hd
  exact ne_of_nodup_map hd

theorem token_not_mem {before after : List R} {old : R} (hd : l.tokens.Nodup)
    (hs : l.records = before ++ old :: after) :
    layout.token old ∉ (before ++ after).map layout.token := by
  rw [tokens, hs] at hd
  exact not_mem_map_of_nodup hd

theorem mem_of_rest {before after : List R} {old e : R} (hs : l.records = before ++ old :: after)
    (he : e ∈ before ++ after) : e ∈ l.records := by
  rw [hs]
  exact (sublist_append_cons before after old).mem he

theorem get?_eq_none {token : String} : l.get? token = none ↔ token ∉ l.tokens := by
  simp [get?, tokens]

theorem get?_eq_some {before after : List R} {old : R} (hd : l.tokens.Nodup)
    (hs : l.records = before ++ old :: after) : l.get? (layout.token old) = some old := by
  have hb := (token_ne hd hs).1
  rw [get?, hs, List.find?_append, List.find?_eq_none.mpr (by simpa using hb)]
  simp

theorem planInsert_of_mem {r : R} (h : layout.token r ∈ l.tokens) :
    l.planInsert r = .error (.duplicateToken (layout.token r)) := by
  simp [planInsert, h, bind, Except.bind, throw, throwThe, MonadExceptOf.throw]

theorem planInsert_of_not_mem {r : R} (h : layout.token r ∉ l.tokens) :
    l.planInsert r = do
      let before ← l.anchor l.records[l.records.findIdx (layout.precedes r)]?
      let node ← render layout r
      return {
        edits := [.place (l.key (layout.token r)) node before]
        records := l.records.insertIdx (l.records.findIdx (layout.precedes r)) r
        nodes := l.nodes.insert (layout.token r) l.mount.next } := by
  simp [planInsert, h]

theorem planUpdate_of_not_mem {r : R} (h : layout.token r ∉ l.tokens) :
    l.planUpdate r = .error (.unknownToken (layout.token r)) := by
  have ha : ∀ e ∈ l.records, layout.token e ≠ layout.token r := by simpa [tokens] using h
  simp [planUpdate, Scan.current_of_absent ha, throw, throwThe, MonadExceptOf.throw]

/-- The record behind a target is found with the old place still taken. -/
theorem getElem?_behind (before after : List R) (old : R) (target : Nat) :
    (before ++ old :: after)[if target < before.length then target else target + 1]? =
      (before ++ after)[target]? := by
  split
  next h => rw [List.getElem?_append_left h, List.getElem?_append_left h]
  next h =>
    rw [List.getElem?_append_right (by omega), List.getElem?_append_right (by omega),
      show target + 1 - before.length = (target - before.length) + 1 by omega,
      List.getElem?_cons_succ]

/-- What an update needs and leaves, said by the records on both sides of the old one. -/
theorem planUpdate_split {r old : R} {before after : List R} (hd : l.tokens.Nodup)
    (hs : l.records = before ++ old :: after) (ho : layout.token old = layout.token r) :
    l.planUpdate r = do
      let child ← l.attached (layout.token r)
      if layout.place r before after = before.length then
        let node ← render layout r
        return {
          edits := [.replace child node]
          records := before ++ r :: after
          nodes := l.nodes }
      else
        let anchor ← l.anchor (before ++ after)[layout.place r before after]?
        let node ← render layout r
        return {
          edits := [.detach child, .place (l.key (layout.token r)) node anchor]
          records := (before ++ after).insertIdx (layout.place r before after) r
          nodes := l.nodes.insert (layout.token r) l.mount.next } := by
  obtain ⟨hb, ha⟩ := token_ne hd hs
  rw [ho] at hb ha
  obtain ⟨hcurrent, htarget⟩ := Scan.run_split ho hb ha
  have hlen : l.records.length - 1 = (before ++ after).length := by
    rw [hs]
    simp
  have hset : (before ++ old :: after).set before.length r = before ++ r :: after := by
    rw [List.set_append_right _ _ (Nat.le_refl _)]
    simp
  have herase : (before ++ old :: after).eraseIdx before.length = before ++ after := by
    rw [List.eraseIdx_append_of_length_le (Nat.le_refl _)]
    simp
  unfold planUpdate
  rw [hlen]
  simp only [hs, hcurrent, htarget, getElem?_behind, hset, herase]

theorem planRemove_of_not_mem {token : String} (h : token ∉ l.tokens) :
    l.planRemove token = .error (.unknownToken token) := by
  simp [planRemove, get?_eq_none.mpr h]

theorem planRemove_split {old : R} {before after : List R} (hd : l.tokens.Nodup)
    (hs : l.records = before ++ old :: after) :
    l.planRemove (layout.token old) = do
      let child ← l.attached (layout.token old)
      return (old, {
        edits := [.detach child]
        records := before ++ after
        nodes := l.nodes.erase (layout.token old) }) := by
  have hb := (token_ne hd hs).1
  have herase : l.records.eraseP (layout.token · = layout.token old) = before ++ after := by
    rw [hs, List.eraseP_append_right _ (by simpa using hb)]
    simp
  simp only [planRemove, get?_eq_some hd hs, herase]

/-- What is stored is that of the plan if its changes were made, and stays if they were not. -/
theorem carryOut_cases (plan : Plan R) (value : α) :
    (∃ e, (l.carryOut plan value).1.result = .error e ∧
      (l.carryOut plan value).2.records = l.records ∧
      (l.carryOut plan value).2.nodes = l.nodes) ∨
    ((l.carryOut plan value).1.result = .ok value ∧
      (l.carryOut plan value).2.records = plan.records ∧
      (l.carryOut plan value).2.nodes = plan.nodes) := by
  cases h : (l.mount.performAll plan.edits).failed with
  | none => simp [carryOut, h]
  | some anchor => simp [carryOut, h]

theorem carryOut_records (plan : Plan R) (value : α) :
    (∃ e, (l.carryOut plan value).1.result = .error e ∧
      (l.carryOut plan value).2.records = l.records) ∨
    ((l.carryOut plan value).1.result = .ok value ∧
      (l.carryOut plan value).2.records = plan.records) := by
  rcases l.carryOut_cases plan value with ⟨e, he, hrecords, -⟩ | ⟨hok, hrecords, -⟩
  · exact .inl ⟨e, he, hrecords⟩
  · exact .inr ⟨hok, hrecords⟩

theorem planInsert_records {r : R} {plan : Plan R} (h : l.planInsert r = .ok plan) :
    layout.token r ∉ l.tokens ∧
      plan.records = l.records.insertIdx (l.records.findIdx (layout.precedes r)) r := by
  by_cases hr : layout.token r ∈ l.tokens
  · rw [planInsert_of_mem hr] at h
    simp at h
  · rw [planInsert_of_not_mem hr] at h
    obtain ⟨anchor, -, h⟩ := exists_of_bind_eq_ok h
    obtain ⟨node, -, h⟩ := exists_of_bind_eq_ok h
    exact ⟨hr, by rw [← Except.ok.inj h]⟩

theorem planUpdate_records {r old : R} {before after : List R} {plan : Plan R}
    (hd : l.tokens.Nodup) (hs : l.records = before ++ old :: after)
    (ho : layout.token old = layout.token r) (h : l.planUpdate r = .ok plan) :
    plan.records = (before ++ after).insertIdx (layout.place r before after) r := by
  rw [planUpdate_split hd hs ho] at h
  obtain ⟨child, -, h⟩ := exists_of_bind_eq_ok h
  by_cases hp : layout.place r before after = before.length
  · rw [if_pos hp] at h
    obtain ⟨node, -, h⟩ := exists_of_bind_eq_ok h
    rw [← Except.ok.inj h, hp, insertIdx_append_length]
  · rw [if_neg hp] at h
    obtain ⟨anchor, -, h⟩ := exists_of_bind_eq_ok h
    obtain ⟨node, -, h⟩ := exists_of_bind_eq_ok h
    rw [← Except.ok.inj h]

theorem planRemove_records {r old : R} {before after : List R} {plan : Plan R}
    (hd : l.tokens.Nodup) (hs : l.records = before ++ old :: after)
    (h : l.planRemove (layout.token old) = .ok (r, plan)) :
    r = old ∧ plan.records = before ++ after := by
  rw [planRemove_split hd hs] at h
  obtain ⟨child, -, h⟩ := exists_of_bind_eq_ok h
  obtain ⟨hr, hplan⟩ := Prod.mk.inj (Except.ok.inj h)
  exact ⟨hr.symm, by rw [← hplan]⟩

theorem insert_of_error {r : R} {e : ViewError} (h : l.planInsert r = .error e) :
    l.insert r = (⟨.error e, []⟩, l) := by
  simp only [insert, h]

theorem insert_of_ok {r : R} {plan : Plan R} (h : l.planInsert r = .ok plan) :
    l.insert r = l.carryOut plan () := by
  simp only [insert, h]

theorem update_of_error {r : R} {e : ViewError} (h : l.planUpdate r = .error e) :
    l.update r = (⟨.error e, []⟩, l) := by
  simp only [update, h]

theorem update_of_ok {r : R} {plan : Plan R} (h : l.planUpdate r = .ok plan) :
    l.update r = l.carryOut plan () := by
  simp only [update, h]

theorem remove_of_error {token : String} {e : ViewError} (h : l.planRemove token = .error e) :
    l.remove token = (⟨.error e, []⟩, l) := by
  simp only [remove, h]

theorem remove_of_ok {token : String} {r : R} {plan : Plan R}
    (h : l.planRemove token = .ok (r, plan)) : l.remove token = l.carryOut plan r := by
  simp only [remove, h]

theorem insert_of_mem {r : R} (hr : layout.token r ∈ l.tokens) :
    l.insert r = (⟨.error (.duplicateToken (layout.token r)), []⟩, l) :=
  insert_of_error (planInsert_of_mem hr)

theorem update_of_not_mem {r : R} (hr : layout.token r ∉ l.tokens) :
    l.update r = (⟨.error (.unknownToken (layout.token r)), []⟩, l) :=
  update_of_error (planUpdate_of_not_mem hr)

theorem remove_of_not_mem {token : String} (ht : token ∉ l.tokens) :
    l.remove token = (⟨.error (.unknownToken token), []⟩, l) :=
  remove_of_error (planRemove_of_not_mem ht)

/-- An insertion that fails changes no record, and one that succeeds adds a new one. -/
theorem insert_cases (l : OrderedList layout) (r : R) :
    (∃ e, (l.insert r).1.result = .error e ∧ (l.insert r).2.records = l.records) ∨
    ((l.insert r).1.result = .ok () ∧ layout.token r ∉ l.tokens ∧
      (l.insert r).2.records =
        l.records.insertIdx (l.records.findIdx (layout.precedes r)) r) := by
  cases h : l.planInsert r with
  | error e =>
    rw [insert_of_error h]
    exact .inl ⟨e, rfl, rfl⟩
  | ok plan =>
    obtain ⟨hr, hrecords⟩ := planInsert_records h
    rw [insert_of_ok h, ← hrecords]
    exact (carryOut_records plan ()).imp_right fun ⟨hok, hplan⟩ => ⟨hok, hr, hplan⟩

theorem update_cases {r old : R} {before after : List R} (hd : l.tokens.Nodup)
    (hs : l.records = before ++ old :: after) (ho : layout.token old = layout.token r) :
    (∃ e, (l.update r).1.result = .error e ∧ (l.update r).2.records = l.records) ∨
    ((l.update r).1.result = .ok () ∧
      (l.update r).2.records =
        (before ++ after).insertIdx (layout.place r before after) r) := by
  cases h : l.planUpdate r with
  | error e =>
    rw [update_of_error h]
    exact .inl ⟨e, rfl, rfl⟩
  | ok plan =>
    rw [update_of_ok h, ← planUpdate_records hd hs ho h]
    exact carryOut_records plan ()

theorem remove_cases {old : R} {before after : List R} (hd : l.tokens.Nodup)
    (hs : l.records = before ++ old :: after) :
    (∃ e, (l.remove (layout.token old)).1.result = .error e ∧
      (l.remove (layout.token old)).2.records = l.records) ∨
    ((l.remove (layout.token old)).1.result = .ok old ∧
      (l.remove (layout.token old)).2.records = before ++ after) := by
  cases h : l.planRemove (layout.token old) with
  | error e =>
    rw [remove_of_error h]
    exact .inl ⟨e, rfl, rfl⟩
  | ok found =>
    obtain ⟨r, plan⟩ := found
    obtain ⟨rfl, hrecords⟩ := planRemove_records hd hs h
    rw [remove_of_ok h, ← hrecords]
    exact carryOut_records plan r

end LiveFeed.OrderedList
