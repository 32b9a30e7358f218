import Mathlib.Data.String.Basic
import Mathlib.Order.RelClasses
import LiveFeed.Record.Engagement
import LiveFeed.Record.Stage
import LiveFeed.Record.Wallet
import LiveFeed.Proofs.Rank

namespace LiveFeed

/-- Records that are told apart by a key in a linear order are ranked. -/
theorem Layout.isRanked_of_key {R K : Type} [LinearOrder K] {layout : Layout R} (key : R → K)
    (h : ∀ a b, layout.precedes a b = true ↔ key a < key b) : layout.IsRanked := by
  have hk : IsStrictWeakOrder K (· < ·) := isStrictWeakOrder_of_isOrderConnected
  have hw : IsStrictWeakOrder R (Order.Preimage key (· < ·)) := inferInstance
  have he : (fun a b => layout.precedes a b = true) = Order.Preimage key (· < ·) := by
    funext a b
    exact propext (h a b)
  rw [Layout.IsRanked, he]
  exact hw

theorem Wallet.isRanked (order : SortOrder) : (Wallet.layout order).IsRanked := by
  cases order with
  | ascending =>
    apply Layout.isRanked_of_key fun w : Wallet => w.balance.toNat
    intro a b
    simp [Wallet.layout, Wallet.precedes, UInt64.lt_iff_toNat_lt]
  | descending =>
    apply Layout.isRanked_of_key fun w : Wallet => OrderDual.toDual w.balance.toNat
    intro a b
    simp [Wallet.layout, Wallet.precedes, UInt64.lt_iff_toNat_lt]

theorem Stage.isRanked : Stage.layout.IsRanked :=
  Layout.isRanked_of_key Stage.caption fun a b => by simp [Stage.layout]

theorem Engagement.isRanked : Engagement.layout.IsRanked :=
  Layout.isRanked_of_key Engagement.name fun a b => by simp [Engagement.layout]

end LiveFeed
