namespace LiveFeed

theorem insertIdx_append_length {α : Type} (xs ys : List α) (a : α) :
    (xs ++ ys).insertIdx xs.length a = xs ++ a :: ys := by
  induction xs with
  | nil => rfl
  | cons x xs ih => simpa [List.insertIdx_succ_cons] using ih

theorem getElem?_append_length {α : Type} (xs ys : List α) : (xs ++ ys)[xs.length]? = ys.head? := by
  rw [List.getElem?_append_right (Nat.le_refl _), Nat.sub_self, List.head?_eq_getElem?]

theorem sublist_append_cons {α : Type} (front back : List α) (a : α) :
    (front ++ back).Sublist (front ++ a :: back) :=
  (List.sublist_cons_self a back).append_left front

theorem mem_map_append_cons {α β : Type} {f : α → β} {front back : List α} {a : α} {b : β} :
    b ∈ (front ++ a :: back).map f ↔ b = f a ∨ b ∈ (front ++ back).map f := by
  simp only [List.map_append, List.map_cons, List.mem_append, List.mem_cons]
  exact or_left_comm

/-- Where a name is given only once, it is not given to those beside the one that has it. -/
theorem ne_of_nodup_map {α β : Type} {f : α → β} {front back : List α} {a : α}
    (h : ((front ++ a :: back).map f).Nodup) :
    (∀ x ∈ front, f x ≠ f a) ∧ ∀ x ∈ back, f x ≠ f a := by
  rw [List.map_append, List.map_cons, List.nodup_append, List.nodup_cons] at h
  obtain ⟨-, ⟨hback, -⟩, hfront⟩ := h
  refine ⟨fun x hx => ?_, fun x hx he => ?_⟩
  · exact hfront _ (List.mem_map_of_mem hx) _ List.mem_cons_self
  · exact hback (he ▸ List.mem_map_of_mem hx)

theorem not_mem_map_of_nodup {α β : Type} {f : α → β} {front back : List α} {a : α}
    (h : ((front ++ a :: back).map f).Nodup) : f a ∉ (front ++ back).map f := by
  obtain ⟨hfront, hback⟩ := ne_of_nodup_map h
  intro hm
  obtain ⟨x, hx, hxa⟩ := List.mem_map.mp hm
  rcases List.mem_append.mp hx with hx | hx
  · exact hfront x hx hxa
  · exact hback x hx hxa

/-- What lies around a value in a sublist lies around it in the list. -/
theorem sublists_around {α : Type} {front back xs ys : List α} {a : α}
    (h : (xs ++ a :: ys).Sublist (front ++ a :: back)) (hf : a ∉ front) (hb : a ∉ back) :
    xs.Sublist front ∧ ys.Sublist back := by
  obtain ⟨us, vs, he, hus, hvs⟩ := List.sublist_append_iff.mp h
  have ha : a ∉ us := fun hm => hf (hus.subset hm)
  have hx : us = xs ∧ vs = a :: ys := by
    rcases List.append_eq_append_iff.mp he with ⟨ws, hu, hv⟩ | ⟨ws, hx, hv⟩
    · cases ws with
      | nil => exact ⟨by rw [hu, List.append_nil], hv.symm⟩
      | cons w ws =>
        obtain ⟨rfl, -⟩ := List.cons.inj hv
        exact absurd (hu ▸ by simp) ha
    · cases ws with
      | nil => exact ⟨by rw [hx, List.append_nil], hv⟩
      | cons w ws =>
        -- the value would stand behind a first one, and so in the part behind it
        have hm : a ∈ back := by
          rcases List.sublist_cons_iff.mp hvs with hs | ⟨zs, hz, hs⟩
          · exact hs.subset (by simp [hv])
          · rw [hv, List.cons_append] at hz
            exact hs.subset ((List.cons.inj hz).2 ▸ by simp)
        exact absurd hm hb
  obtain ⟨rfl, rfl⟩ := hx
  exact ⟨hus, List.cons_sublist_cons.mp hvs⟩

theorem sublist_of_not_mem {α : Type} {front back xs : List α} {a : α}
    (h : xs.Sublist (front ++ a :: back)) (ha : a ∉ xs) : xs.Sublist (front ++ back) := by
  obtain ⟨us, vs, rfl, hus, hvs⟩ := List.sublist_append_iff.mp h
  rcases List.sublist_cons_iff.mp hvs with hvs | ⟨ws, rfl, -⟩
  · exact hus.append hvs
  · exact absurd (by simp) ha

theorem exists_of_bind_eq_ok {ε α β : Type} {x : Except ε α} {f : α → Except ε β} {b : β}
    (h : (x >>= f) = .ok b) : ∃ a, x = .ok a ∧ f a = .ok b := by
  cases x with
  | error e => simp [bind, Except.bind] at h
  | ok a => exact ⟨a, rfl, h⟩

theorem bind_eq_ok_iff {ε α β : Type} {x : Except ε α} {f : α → Except ε β} {b : β} :
    (x >>= f) = .ok b ↔ ∃ a, x = .ok a ∧ f a = .ok b := by
  constructor
  · exact exists_of_bind_eq_ok
  · rintro ⟨a, rfl, h⟩
    exact h

theorem map_eq_ok_iff {ε α β : Type} {x : Except ε α} {f : α → β} {b : β} :
    f <$> x = .ok b ↔ ∃ a, x = .ok a ∧ f a = b := by
  cases x with
  | error e => simp [Functor.map, Except.map]
  | ok a => simp [Functor.map, Except.map]

theorem map_eq_ok_iff_of_injective {ε α β : Type} {x : Except ε α} {f : α → β}
    (hf : ∀ a b, f a = f b → a = b) {a : α} : f <$> x = .ok (f a) ↔ x = .ok a := by
  rw [map_eq_ok_iff]
  constructor
  · rintro ⟨b, hx, hb⟩
    rw [hx, hf b a hb]
  · intro hx
    exact ⟨a, hx, rfl⟩

end LiveFeed
