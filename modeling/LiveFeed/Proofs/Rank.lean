import Mathlib.Order.Defs.Unbundled
import LiveFeed.OrderedList

namespace LiveFeed

variable {R : Type} {layout : Layout R}

namespace Layout

/-- Up to ties the records have a rank, and what goes before what is a matter of it. -/
abbrev IsRanked (layout : Layout R) : Prop := IsStrictWeakOrder R fun a b => layout.precedes a b

/-- The first record may stand before the second. -/
def notAfter (layout : Layout R) (a b : R) : Bool := !layout.precedes b a

/-- The records are of equal rank. -/
def tied (layout : Layout R) (a b : R) : Bool := layout.notAfter a b && layout.notAfter b a

/-- No later record precedes an earlier one. -/
def Sorted (layout : Layout R) (rs : List R) : Prop := rs.Pairwise (layout.notAfter · ·)

/-- The records by rank, those of equal rank in the order in which they came. -/
def stableSort (layout : Layout R) (rs : List R) : List R := rs.mergeSort layout.notAfter

theorem notAfter_refl (ranked : layout.IsRanked) (a : R) : layout.notAfter a a := by
  simpa [notAfter] using ranked.irrefl a

theorem notAfter_of_precedes (ranked : layout.IsRanked) {a b : R}
    (h : layout.precedes a b = true) : layout.notAfter a b := by
  cases hb : layout.precedes b a with
  | false => simp [notAfter, hb]
  | true => exact absurd (ranked.trans a b a h hb) (ranked.irrefl a)

theorem notAfter_total (ranked : layout.IsRanked) (a b : R) :
    (layout.notAfter a b || layout.notAfter b a) = true := by
  cases h : layout.precedes b a with
  | false => simp [notAfter, h]
  | true => simp [notAfter_of_precedes ranked h]

theorem notAfter_trans (ranked : layout.IsRanked) (a b c : R) (hab : layout.notAfter a b)
    (hbc : layout.notAfter b c) : layout.notAfter a c := by
  simp only [notAfter, Bool.not_eq_true', ← Bool.not_eq_true] at *
  intro hca
  by_cases hac : layout.precedes a b = true
  · exact hbc (ranked.trans c a b hca hac)
  by_cases hcb : layout.precedes b c = true
  · exact hab (ranked.trans b c a hcb hca)
  exact (ranked.incomp_trans a b c ⟨hac, hab⟩ ⟨hcb, hbc⟩).2 hca

theorem precedes_of_precedes_of_notAfter (ranked : layout.IsRanked) {a b c : R}
    (hab : layout.precedes a b = true) (hbc : layout.notAfter b c) :
    layout.precedes a c = true := by
  cases hac : layout.precedes a c with
  | true => rfl
  | false =>
    have hba := notAfter_trans ranked b c a hbc (by simp [notAfter, hac])
    simp [notAfter, hab] at hba

theorem tied_refl (ranked : layout.IsRanked) (a : R) : layout.tied a a := by
  simp [tied, notAfter_refl ranked a]

theorem tied_symm {a b : R} (h : layout.tied a b) : layout.tied b a := by
  simpa [tied, and_comm] using h

theorem tied_trans (ranked : layout.IsRanked) {a b c : R} (hab : layout.tied a b)
    (hbc : layout.tied b c) : layout.tied a c := by
  simp only [tied, Bool.and_eq_true] at *
  exact ⟨notAfter_trans ranked a b c hab.1 hbc.1, notAfter_trans ranked c b a hbc.2 hab.2⟩

theorem not_tied_of_precedes {a b : R} (h : layout.precedes a b = true) :
    layout.tied a b = false := by
  simp [tied, notAfter, h]

theorem not_tied_of_precedes_right {a b : R} (h : layout.precedes b a = true) :
    layout.tied a b = false := by
  simp [tied, notAfter, h]

/-- Within one rank nothing is seen of a record that passes others of another rank. -/
theorem filter_tied_pass (ranked : layout.IsRanked) {r : R} {passed : List R}
    (h : ∀ e ∈ passed, layout.tied r e = false) (x : R) :
    (r :: passed).filter (layout.tied x) = (passed ++ [r]).filter (layout.tied x) := by
  by_cases hr : layout.tied x r
  · have empty : passed.filter (layout.tied x) = [] := by
      apply List.filter_eq_nil_iff.mpr
      intro e he hx
      simpa [h e he] using tied_trans ranked (tied_symm hr) hx
    simp [hr, empty]
  · simp [hr]

theorem sorted_stableSort (ranked : layout.IsRanked) (rs : List R) :
    layout.Sorted (layout.stableSort rs) :=
  List.pairwise_mergeSort (notAfter_trans ranked) (notAfter_total ranked) rs

/-- Sorting leaves the records of one rank in their order. -/
theorem filter_tied_stableSort (ranked : layout.IsRanked) (rs : List R) (x : R) :
    (layout.stableSort rs).filter (layout.tied x) = rs.filter (layout.tied x) := by
  have hs : (rs.filter (layout.tied x)).Pairwise (layout.notAfter · ·) := by
    refine List.pairwise_of_forall_mem_list fun a ha b hb => ?_
    have hax := tied_symm (List.mem_filter.mp ha).2
    have hab := tied_trans ranked hax (List.mem_filter.mp hb).2
    simp only [tied, Bool.and_eq_true] at hab
    exact hab.1
  have hsub : (rs.filter (layout.tied x)).Sublist (layout.stableSort rs) :=
    List.sublist_mergeSort (notAfter_trans ranked) (notAfter_total ranked) hs List.filter_sublist
  have hsub' := hsub.filter (layout.tied x)
  simp only [List.filter_filter, Bool.and_self] at hsub'
  have hp := (List.mergeSort_perm rs layout.notAfter).filter (layout.tied x)
  exact (hsub'.eq_of_length hp.length_eq.symm).symm

/-- Records of equal rank come out of sorting in the order in which they went in. -/
theorem sublist_of_sublist_stableSort (ranked : layout.IsRanked) {a b : R} {rs : List R}
    (ht : layout.tied a b) (h : [a, b].Sublist (layout.stableSort rs)) : [a, b].Sublist rs := by
  have hf := h.filter (layout.tied a)
  rw [filter_tied_stableSort ranked, List.filter_cons_of_pos (tied_refl ranked a),
    List.filter_cons_of_pos ht] at hf
  exact hf.trans List.filter_sublist

/-- A sorted list is determined by its records of each rank. -/
theorem eq_of_sorted_of_filter_tied (ranked : layout.IsRanked) {as bs : List R}
    (ha : layout.Sorted as) (hb : layout.Sorted bs)
    (h : ∀ x, as.filter (layout.tied x) = bs.filter (layout.tied x)) : as = bs := by
  induction as generalizing bs with
  | nil =>
    cases bs with
    | nil => rfl
    | cons b bs => simpa [tied_refl ranked b] using h b
  | cons a as ih =>
    cases bs with
    | nil => simpa [tied_refl ranked a] using h a
    | cons b bs =>
      obtain ⟨ha1, ha2⟩ := List.pairwise_cons.mp ha
      obtain ⟨hb1, hb2⟩ := List.pairwise_cons.mp hb
      have head : a = b := by
        have hab := h a
        rw [List.filter_cons_of_pos (tied_refl ranked a)] at hab
        have mema : a ∈ b :: bs := by
          have : a ∈ (b :: bs).filter (layout.tied a) := by simp [← hab]
          exact (List.mem_filter.mp this).1
        have memb : b ∈ a :: as := by
          have : b ∈ (a :: as).filter (layout.tied b) := by
            rw [h b, List.filter_cons_of_pos (tied_refl ranked b)]
            exact List.mem_cons_self
          exact (List.mem_filter.mp this).1
        have hle : layout.notAfter a b := by
          rcases List.mem_cons.mp memb with rfl | hm
          · exact notAfter_refl ranked b
          · exact ha1 b hm
        have hge : layout.notAfter b a := by
          rcases List.mem_cons.mp mema with rfl | hm
          · exact notAfter_refl ranked a
          · exact hb1 a hm
        rw [List.filter_cons_of_pos (by simp [tied, hle, hge])] at hab
        exact (List.cons.inj hab).1
      subst head
      rw [ih ha2 hb2]
      intro x
      have hx := h x
      simp only [List.filter_cons] at hx
      split at hx
      next => exact (List.cons.inj hx).2
      next => exact hx

theorem eq_stableSort (ranked : layout.IsRanked) {as bs : List R} (ha : layout.Sorted as)
    (h : ∀ x, as.filter (layout.tied x) = bs.filter (layout.tied x)) :
    as = layout.stableSort bs :=
  eq_of_sorted_of_filter_tied ranked ha (sorted_stableSort ranked bs) fun x =>
    (h x).trans (filter_tied_stableSort ranked bs x).symm

end Layout

end LiveFeed
