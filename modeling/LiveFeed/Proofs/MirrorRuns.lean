import LiveFeed.Proofs.Mirrored
import LiveFeed.Proofs.Runs

namespace LiveFeed.OrderedList

variable {R : Type} {layout : Layout R} {base : String} {l : OrderedList layout}

namespace Mirrored

theorem insert (h : l.Mirrored base) (r : R) : (l.insert r).2.Mirrored base := by
  by_cases hr : layout.token r ∈ l.tokens
  · rw [insert_of_mem hr]
    exact h
  · cases hn : layout.render r with
    | error reason =>
      rw [h.insert_of_render_error hr hn]
      exact h
    | ok node =>
      obtain ⟨l', hl, hm, -⟩ := h.insert_of_render_ok hr hn
      rw [hl]
      exact hm

theorem update (h : l.Mirrored base) (r : R) : (l.update r).2.Mirrored base := by
  by_cases hr : layout.token r ∈ l.tokens
  · cases hn : layout.render r with
    | error reason =>
      rw [h.update_of_render_error hr hn]
      exact h
    | ok node =>
      obtain ⟨before, old, after, hs, ho⟩ := exists_split hr
      obtain ⟨l', calls, hl, hm, -⟩ := h.update_of_render_ok hs ho hn
      rw [hl]
      exact hm
  · rw [update_of_not_mem hr]
    exact h

theorem remove (h : l.Mirrored base) (token : String) : (l.remove token).2.Mirrored base := by
  by_cases ht : token ∈ l.tokens
  · obtain ⟨before, old, after, hs, rfl⟩ := exists_split ht
    obtain ⟨l', hl, hm, -⟩ := h.remove_of_mem hs
    rw [hl]
    exact hm
  · rw [remove_of_not_mem ht]
    exact h

theorem reset (h : l.Mirrored base) : l.reset.Mirrored base :=
  mirrored_clear h.base_eq h.willing

theorem apply (h : l.Mirrored base) (op : Operation R) : (l.apply op).Mirrored base := by
  cases op with
  | insert r => exact h.insert r
  | update r => exact h.update r
  | remove token => exact h.remove token
  | reset => exact h.reset

theorem run (h : l.Mirrored base) (ops : List (Operation R)) : (l.run ops).Mirrored base :=
  run_keeps (fun _ op hl => hl.apply op) h ops

end Mirrored

end LiveFeed.OrderedList
