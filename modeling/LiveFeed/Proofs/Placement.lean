import LiveFeed.Proofs.Basic
import LiveFeed.Proofs.Rank

namespace LiveFeed

variable {R : Type} {layout : Layout R}

namespace Layout

/-- The place of a record among others, those in front of its old place and those behind it. -/
def place (layout : Layout R) (r : R) (before after : List R) : Nat :=
  match before.findIdx? (layout.precedes r) with
  | some i => i
  | none => before.length + after.findIdx (!layout.precedes · r)

/-- A record moves forward past some that it precedes, or back past all that precede it. -/
theorem place_cases (layout : Layout R) (r : R) (before after : List R) :
    (∃ front x back, before = front ++ x :: back ∧ layout.place r before after = front.length ∧
      (∀ e ∈ front, layout.precedes r e = false) ∧ layout.precedes r x = true) ∨
    (∃ front back, after = front ++ back ∧
      layout.place r before after = (before ++ front).length ∧
      (∀ e ∈ before, layout.precedes r e = false) ∧ (∀ e ∈ front, layout.precedes e r = true) ∧
      ∀ e, back.head? = some e → layout.precedes e r = false) := by
  cases hb : before.findIdx? (layout.precedes r) with
  | some i =>
    left
    obtain ⟨hi, hx, hfront⟩ := List.findIdx?_eq_some_iff_getElem.mp hb
    refine ⟨before.take i, before[i], before.drop (i + 1), ?_, ?_, ?_, hx⟩
    · rw [List.getElem_cons_drop, List.take_append_drop]
    · simp [place, hb, Nat.le_of_lt hi]
    · intro e he
      obtain ⟨j, hj, rfl⟩ := List.mem_take_iff_getElem.mp he
      simpa using hfront j (by omega)
  | none =>
    right
    have hbefore := List.findIdx?_eq_none_iff.mp hb
    let k := after.findIdx (!layout.precedes · r)
    have hk : k ≤ after.length := List.findIdx_le_length
    refine ⟨after.take k, after.drop k, (List.take_append_drop k after).symm, ?_, hbefore, ?_, ?_⟩
    · simp [place, hb, k, hk]
    · intro e he
      obtain ⟨j, hj, rfl⟩ := List.mem_take_iff_getElem.mp he
      simpa using List.not_of_lt_findIdx (show j < k by omega)
    · intro e he
      rw [List.head?_drop] at he
      simpa using List.findIdx_of_getElem?_eq_some he

theorem place_split (layout : Layout R) (r : R) (before after : List R) :
    ∃ front back, before ++ after = front ++ back ∧
      layout.place r before after = front.length := by
  rcases layout.place_cases r before after with
    ⟨front, x, back, rfl, hp, -⟩ | ⟨front, back, rfl, hp, -⟩
  · exact ⟨front, x :: back ++ after, by simp, hp⟩
  · exact ⟨before ++ front, back, by simp, hp⟩

/-- The place of a new record is in front of the first that it precedes. -/
theorem place_nil (layout : Layout R) (r : R) (rs : List R) :
    layout.place r rs [] = rs.findIdx (layout.precedes r) := by
  rw [List.findIdx_eq_getD_findIdx?]
  unfold place
  split
  next i hi => simp [hi]
  next hn => simp [hn]

theorem sorted_insertIdx_place (ranked : layout.IsRanked) {r : R} {before after : List R}
    (hs : layout.Sorted (before ++ after)) :
    layout.Sorted ((before ++ after).insertIdx (layout.place r before after) r) := by
  rcases layout.place_cases r before after with
    ⟨front, x, back, rfl, hp, hfront, hx⟩ | ⟨front, back, rfl, hp, hbefore, hfront, hback⟩
  · rw [hp, List.append_assoc, insertIdx_append_length]
    rw [List.append_assoc] at hs
    obtain ⟨hs1, hs2, hs3⟩ := List.pairwise_append.mp hs
    refine List.pairwise_append.mpr ⟨hs1, List.pairwise_cons.mpr ⟨?_, hs2⟩, ?_⟩
    · intro e he
      rcases List.mem_cons.mp he with rfl | he
      · exact notAfter_of_precedes ranked hx
      · have hxe := (List.pairwise_cons.mp hs2).1 e he
        exact notAfter_trans ranked r x e (notAfter_of_precedes ranked hx) hxe
    · intro a ha e he
      rcases List.mem_cons.mp he with rfl | he
      · simp [notAfter, hfront a ha]
      · exact hs3 a ha e he
  · rw [hp, ← List.append_assoc, insertIdx_append_length]
    rw [← List.append_assoc] at hs
    obtain ⟨hs1, hs2, hs3⟩ := List.pairwise_append.mp hs
    refine List.pairwise_append.mpr ⟨hs1, List.pairwise_cons.mpr ⟨?_, hs2⟩, ?_⟩
    · intro e he
      cases back with
      | nil => simp at he
      | cons b back =>
        have hrb : layout.notAfter r b := by simp [notAfter, hback b rfl]
        rcases List.mem_cons.mp he with rfl | he
        · exact hrb
        · exact notAfter_trans ranked r b e hrb ((List.pairwise_cons.mp hs2).1 e he)
    · intro a ha e he
      rcases List.mem_cons.mp he with rfl | he
      · rcases List.mem_append.mp ha with ha | ha
        · simp [notAfter, hbefore a ha]
        · exact notAfter_of_precedes ranked (hfront a ha)
      · exact hs3 a ha e he

theorem filter_tied_insertIdx_place (ranked : layout.IsRanked) {r : R} {before after : List R}
    (hs : layout.Sorted (before ++ after)) (x : R) :
    ((before ++ after).insertIdx (layout.place r before after) r).filter (layout.tied x) =
      (before ++ r :: after).filter (layout.tied x) := by
  rcases layout.place_cases r before after with
    ⟨front, first, back, rfl, hp, -, hx⟩ | ⟨front, back, rfl, hp, -, hfront, -⟩
  · have hsx : layout.Sorted (first :: back) := hs.sublist
      ((List.sublist_append_right front _).trans (List.sublist_append_left _ after))
    have passed : ∀ e ∈ first :: back, layout.tied r e = false := by
      intro e he
      rcases List.mem_cons.mp he with rfl | he
      · exact not_tied_of_precedes hx
      · exact not_tied_of_precedes
          (precedes_of_precedes_of_notAfter ranked hx ((List.pairwise_cons.mp hsx).1 e he))
    have pass := filter_tied_pass ranked passed x
    rw [hp, List.append_assoc, insertIdx_append_length, ← List.cons_append, List.append_assoc,
      List.append_cons (first :: back) r after]
    simp only [List.filter_append, pass]
  · have pass := filter_tied_pass ranked
      (fun e he => not_tied_of_precedes_right (hfront e he)) x
    rw [hp, ← List.append_assoc, insertIdx_append_length, ← List.cons_append, List.append_assoc,
      List.append_cons front r back]
    simp only [List.filter_append, pass]

/-- A record put in its place among sorted ones is where stable sorting takes it. -/
theorem insertIdx_place (ranked : layout.IsRanked) {r : R} {before after : List R}
    (hs : layout.Sorted (before ++ after)) :
    (before ++ after).insertIdx (layout.place r before after) r =
      layout.stableSort (before ++ r :: after) :=
  eq_stableSort ranked (sorted_insertIdx_place ranked hs) (filter_tied_insertIdx_place ranked hs)

/-- A record that keeps its rank keeps its place. -/
theorem place_of_tied (ranked : layout.IsRanked) {old r : R} {before after : List R}
    (hs : layout.Sorted (before ++ old :: after)) (h : layout.tied old r) :
    layout.place r before after = before.length := by
  simp only [tied, Bool.and_eq_true] at h
  obtain ⟨-, hs2, hs3⟩ := List.pairwise_append.mp hs
  have hbefore : before.findIdx? (layout.precedes r) = none := by
    apply List.findIdx?_eq_none_iff.mpr
    intro e he
    have her := notAfter_trans ranked e old r (hs3 e he old List.mem_cons_self) h.1
    simpa [notAfter] using her
  have hafter : after.findIdx (!layout.precedes · r) = 0 := by
    cases after with
    | nil => rfl
    | cons e after =>
      have hoe := (List.pairwise_cons.mp hs2).1 e List.mem_cons_self
      have hre := notAfter_trans ranked r old e h.2 hoe
      have hpr : layout.precedes e r = false := by simpa [notAfter] using hre
      simp [List.findIdx_cons, hpr]
  simp [place, hbefore, hafter]

end Layout

namespace Scan

theorem run_cons (r e : R) (s : Scan) (i : Nat) (rs : List R) :
    run layout r s i (e :: rs) =
      if (s.step layout r i e).current.isSome && (s.step layout r i e).target.isSome then
        s.step layout r i e
      else run layout r (s.step layout r i e) (i + 1) rs := rfl

/-- In front of the old place a scan looks for a record that the changed one precedes. -/
theorem run_before {r : R} {before : List R} (h : ∀ e ∈ before, layout.token e ≠ layout.token r)
    (rest : List R) (target : Option Nat) (i : Nat) :
    run layout r { target } i (before ++ rest) =
      run layout r
        { target := target.or ((before.findIdx? (layout.precedes r)).map (i + ·)) }
        (i + before.length) rest := by
  induction before generalizing target i with
  | nil => simp
  | cons e before ih =>
    have he := h e List.mem_cons_self
    have ih := fun target => ih (fun x hx => h x (List.mem_cons_of_mem e hx)) target (i + 1)
    have hstep : Scan.step layout r { target } i e =
        { target := target.or (if layout.precedes r e then some i else none) } := by
      cases target <;> by_cases hp : layout.precedes r e <;> simp [step, he, hp]
    rw [List.cons_append, run_cons, hstep]
    simp only [Option.isSome_none, Bool.false_and, Bool.false_eq_true, if_false]
    rw [ih, List.findIdx?_cons]
    by_cases hp : layout.precedes r e
    · simp [hp, Nat.add_assoc, Nat.add_comm 1]
    · simp [hp, Nat.add_assoc, Nat.add_comm 1, Function.comp_def]

/-- Behind the old place it looks for a record that does not precede the changed one. -/
theorem run_after {r : R} {after : List R} (h : ∀ e ∈ after, layout.token e ≠ layout.token r)
    (current i : Nat) :
    run layout r { current := some current } (i + 1) after =
      { current := some current
        target := (after.findIdx? (!layout.precedes · r)).map (i + ·) } := by
  induction after generalizing i with
  | nil => simp [run]
  | cons e after ih =>
    have he := h e List.mem_cons_self
    have ih := ih (fun x hx => h x (List.mem_cons_of_mem e hx)) (i + 1)
    rw [run_cons, List.findIdx?_cons]
    by_cases hp : layout.precedes e r
    · simp [step, he, hp, ih, Function.comp_def, Nat.add_assoc, Nat.add_comm 1]
    · simp [step, he, hp]

/-- A scan finds a record under the token, and the place for the changed one. -/
theorem run_split {r old : R} {before after : List R} (ho : layout.token old = layout.token r)
    (hb : ∀ e ∈ before, layout.token e ≠ layout.token r)
    (ha : ∀ e ∈ after, layout.token e ≠ layout.token r) :
    (run layout r {} 0 (before ++ old :: after)).current = some before.length ∧
      (run layout r {} 0 (before ++ old :: after)).target.getD (before ++ after).length =
        layout.place r before after := by
  rw [run_before hb, run_cons]
  cases hf : before.findIdx? (layout.precedes r) with
  | some i => simp [step, ho, Layout.place, hf]
  | none =>
    have hr := run_after ha before.length before.length
    cases ha : after.findIdx? (!layout.precedes · r) <;>
      simp [step, ho, Layout.place, hf, hr, ha, List.findIdx_eq_getD_findIdx?]

theorem current_of_absent {r : R} {rs : List R}
    (h : ∀ e ∈ rs, layout.token e ≠ layout.token r) : (run layout r {} 0 rs).current = none := by
  have hr := run_before h [] none 0
  rw [List.append_nil] at hr
  rw [hr]
  rfl

end Scan

end LiveFeed
