import Mathlib.Data.List.Nodup
import LiveFeed.Proofs.MirrorRuns
import LiveFeed.Proofs.StableOrder

namespace LiveFeed

variable {R : Type} {layout : Layout R}

namespace Layout

/-- Of any two records with different tokens one precedes the other. -/
def Untied (layout : Layout R) (rs : List R) : Prop :=
  ∀ a ∈ rs, ∀ b ∈ rs, layout.token a ≠ layout.token b →
    layout.precedes a b = true ∨ layout.precedes b a = true

/-- Without ties, records can be sorted in one way only. -/
theorem eq_of_sorted_of_untied {as bs : List R} (ha : layout.Sorted as) (hb : layout.Sorted bs)
    (htokens : (as.map layout.token).Nodup) (htokens' : (bs.map layout.token).Nodup)
    (hsame : ∀ r, r ∈ as ↔ r ∈ bs) (huntied : layout.Untied as) : as = bs := by
  have hperm : as.Perm bs :=
    (List.perm_ext_iff_of_nodup (.of_map _ htokens) (.of_map _ htokens')).mpr hsame
  refine hperm.eq_of_pairwise (fun a b hma hmb hab hba => ?_) ha hb
  have hmb' : b ∈ as := (hsame b).mpr hmb
  by_cases ht : layout.token a = layout.token b
  · exact List.inj_on_of_nodup_map htokens hma hmb' ht
  · rcases huntied a hma b hmb' ht with h | h
    · simp [notAfter, h] at hba
    · simp [notAfter, h] at hab

/-- What a mount with that base shows of a record. -/
def shown? (layout : Layout R) (base : String) (r : R) : Option Element :=
  (layout.render r).toOption.map (·.withId (base ++ "-" ++ layout.token r))

end Layout

theorem Shows.elements {base : String} {m : Mount} {n : Nodes} {rs : List R}
    (h : Shows layout base m n rs) : rs.map (layout.shown? base) = m.elements.map some := by
  have hp := congrArg (List.map (Option.map Child.element)) h.pictures
  simp only [List.map_map] at hp
  rw [Mount.elements, List.map_map]
  refine Eq.trans (List.map_congr_left fun r hr => ?_) hp
  have hm : n.picture layout base r ∈ m.children.map some := h.pictures ▸ List.mem_map_of_mem hr
  obtain ⟨c, -, hc⟩ := List.mem_map.mp hm
  obtain ⟨-, node, hn, he⟩ := Nodes.picture_eq_some_iff.mp hc.symm
  simp [Layout.shown?, Function.comp, ← hc, hn, he, Except.toOption]

namespace OrderedList

/-- Two lists show the same, whatever the handles of their children. -/
structure Coincide (l l' : OrderedList layout) : Prop where
  records : l.records = l'.records
  keys : l.mount.keys = l'.mount.keys
  html : l.toHtml = l'.toHtml

/-- All that a mount shows follows from the records in their order. -/
theorem Mirrored.coincide {base : String} {l l' : OrderedList layout} (h : l.Mirrored base)
    (h' : l'.Mirrored base) (hrecords : l.records = l'.records) : l.Coincide l' := by
  have helements : l.mount.elements = l'.mount.elements := by
    refine List.map_injective_iff.mpr (fun _ _ => Option.some.inj) ?_
    rw [← h.elements, ← h'.elements, hrecords]
  refine ⟨hrecords, ?_, ?_⟩
  · rw [Mount.keys, Mount.keys, helements]
  · rw [toHtml, toHtml, Mount.toHtml, Mount.toHtml, Mount.toElement, Mount.toElement, h.base_eq,
      h'.base_eq, helements]

/--
Runs that end with the same records, no two of them of equal rank, end with the same view, however
they came there.
-/
theorem coincide_run (ranked : layout.IsRanked) (base : String) (children children' : List Child)
    (next next' : Handle) (ops ops' : List (Operation R))
    (hsame : ∀ r, r ∈ ((new layout { base, children, next }).run ops).records ↔
      r ∈ ((new layout { base, children := children', next := next' }).run ops').records)
    (huntied : layout.Untied ((new layout { base, children, next }).run ops).records) :
    ((new layout { base, children, next }).run ops).Coincide
      ((new layout { base, children := children', next := next' }).run ops') := by
  have start (children : List Child) (next : Handle) :
      (new layout { base, children, next }).Mirrored base ∧
        (new layout { base, children, next }).Ordered :=
    ⟨mirrored_clear rfl rfl, .of_nil rfl⟩
  have h := (start children next).2.run ranked ops
  have h' := (start children' next').2.run ranked ops'
  have hrecords := Layout.eq_of_sorted_of_untied h.sorted h'.sorted h.tokens_nodup h'.tokens_nodup
    hsame huntied
  exact ((start children next).1.run ops).coincide ((start children' next').1.run ops') hrecords

theorem coincide_run_moved :
    (Wallet.layout .ascending).IsRanked ∧
    (∀ r, r ∈ ((new (Wallet.layout .ascending) { base := "wallets" }).run
        [.insert ⟨"a", 1, none⟩, .insert ⟨"b", 2, none⟩, .update ⟨"a", 3, none⟩]).records ↔
      r ∈ ((new (Wallet.layout .ascending) { base := "wallets", next := 7 }).run
        [.insert ⟨"a", 3, none⟩, .insert ⟨"c", 3, none⟩, .insert ⟨"b", 2, none⟩,
          .insert ⟨"b", 9, none⟩, .remove "c"]).records) ∧
    (Wallet.layout .ascending).Untied ((new (Wallet.layout .ascending) { base := "wallets" }).run
      [.insert ⟨"a", 1, none⟩, .insert ⟨"b", 2, none⟩, .update ⟨"a", 3, none⟩]).records ∧
    ((new (Wallet.layout .ascending) { base := "wallets" }).run
      [.insert ⟨"a", 1, none⟩, .insert ⟨"b", 2, none⟩, .update ⟨"a", 3, none⟩]).Coincide
        ((new (Wallet.layout .ascending) { base := "wallets", next := 7 }).run
          [.insert ⟨"a", 3, none⟩, .insert ⟨"c", 3, none⟩, .insert ⟨"b", 2, none⟩,
            .insert ⟨"b", 9, none⟩, .remove "c"]) := by
  have hranked := Wallet.isRanked .ascending
  have hrecords : ((new (Wallet.layout .ascending) { base := "wallets" }).run
      [.insert ⟨"a", 1, none⟩, .insert ⟨"b", 2, none⟩, .update ⟨"a", 3, none⟩]).records =
        [⟨"b", 2, none⟩, ⟨"a", 3, none⟩] := by decide +kernel
  have hrecords' : ((new (Wallet.layout .ascending) { base := "wallets", next := 7 }).run
      [.insert ⟨"a", 3, none⟩, .insert ⟨"c", 3, none⟩, .insert ⟨"b", 2, none⟩,
        .insert ⟨"b", 9, none⟩, .remove "c"]).records =
        [⟨"b", 2, none⟩, ⟨"a", 3, none⟩] := by decide +kernel
  have hsame := fun r : Wallet => iff_of_eq (congrArg (r ∈ ·) (hrecords.trans hrecords'.symm))
  have huntied : (Wallet.layout .ascending).Untied
      [⟨"b", 2, none⟩, ⟨"a", 3, none⟩] := by
    unfold Layout.Untied
    decide +kernel
  rw [← hrecords] at huntied
  exact ⟨hranked, hsame, huntied,
    coincide_run hranked "wallets" [] [] 0 7 _ _ hsame huntied⟩

end OrderedList

end LiveFeed
