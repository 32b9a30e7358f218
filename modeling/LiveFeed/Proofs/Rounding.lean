import Mathlib.Algebra.Group.Nat.Defs
import LiveFeed.Double

namespace LiveFeed.Double

/--
The double that a number is rounded to. About `n` they are the multiples of `2 ^ k`, where `k` is
zero if `n` has no more than 53 binary digits, and else the number of digits it has above that. The
nearest is taken, and of two that are equally near the even multiple.
-/
inductive Rounds (n : Nat) : Nat → Prop where
  | mk {m k : Nat} (hbelow : n < 2 ^ (53 + k)) (habove : k = 0 ∨ 2 ^ (52 + k) ≤ n)
      (hlow : 2 * n ≤ 2 * (m * 2 ^ k) + 2 ^ k) (hhigh : 2 * (m * 2 ^ k) ≤ 2 * n + 2 ^ k)
      (htie : 2 * n = 2 * (m * 2 ^ k) + 2 ^ k ∨ 2 * (m * 2 ^ k) = 2 * n + 2 ^ k → m % 2 = 0) :
      Rounds n (m * 2 ^ k)

/--
Whether `significand * 10 ^ exponent` is a finite double. It is computed as a product of two doubles
that is rounded in turn, unless a negative exponent makes it a quotient, which is never too large.
-/
inductive Finite : (significand : Nat) → (exponent : Int) → Prop where
  | zero {exponent : Int} : Finite 0 exponent
  | quotient {significand : Nat} {exponent : Int} (h : exponent < 0) : Finite significand exponent
  | product {significand exponent x y z : Nat} (hexponent : exponent ≤ 308)
      (hx : Rounds significand x) (hy : Rounds (10 ^ exponent) y) (hz : Rounds (x * y) z)
      (hfinite : z < Nat.pow 2 1024) : Finite significand exponent

section Rounds

variable {n m k u x : Nat}

/-- How far the doubles about a number lie apart is known from its size. -/
theorem spacing_eq (hbelow : n < 2 ^ (53 + k)) (habove : k = 0 ∨ 2 ^ (52 + k) ≤ n) :
    k = n.log2 + 1 - 53 := by
  by_cases hn : n = 0
  · subst hn
    have hpos := Nat.two_pow_pos (52 + k)
    rcases habove with rfl | habove
    · rfl
    · omega
  · have hlog := (Nat.log2_lt hn).mpr hbelow
    rcases habove with rfl | habove
    · omega
    · have hlog' := (Nat.le_log2 hn).mpr habove
      omega

theorem lt_spacing (n : Nat) : n < 2 ^ (53 + (n.log2 + 1 - 53)) :=
  Nat.lt_of_lt_of_le Nat.lt_log2_self (Nat.pow_le_pow_right (by decide) (by omega))

theorem spacing_le (n : Nat) :
    n.log2 + 1 - 53 = 0 ∨ 2 ^ (52 + (n.log2 + 1 - 53)) ≤ n := by
  by_cases hsmall : n.log2 + 1 ≤ 53
  · exact .inl (by omega)
  · have hn : n ≠ 0 := by
      rintro rfl
      exact hsmall (by decide)
    have he : 52 + (n.log2 + 1 - 53) = n.log2 := by omega
    rw [he]
    exact .inr (Nat.log2_self_le hn)

/-- Of the multiples of `u`, one is nearest to `n`, or the even one of two. -/
theorem nearest_iff (hu : 0 < u) :
    (2 * n ≤ 2 * (m * u) + u ∧ 2 * (m * u) ≤ 2 * n + u ∧
        (2 * n = 2 * (m * u) + u ∨ 2 * (m * u) = 2 * n + u → m % 2 = 0)) ↔
      m = if u < 2 * (n % u) ∨ u = 2 * (n % u) ∧ n / u % 2 = 1 then n / u + 1 else n / u := by
  have hrest := Nat.mod_lt n hu
  have hn := Nat.div_add_mod' n u
  have hnext : (n / u + 1) * u = n / u * u + u := Nat.succ_mul _ _
  constructor
  · rintro ⟨hlow, hhigh, htie⟩
    have hmax : m < n / u + 2 := by
      refine Nat.lt_of_mul_lt_mul_right (a := u) ?_
      have he : (n / u + 2) * u = n / u * u + u + u := by rw [Nat.add_mul, Nat.two_mul, Nat.add_assoc]
      omega
    have hmin : n / u < m + 1 := by
      refine Nat.lt_of_mul_lt_mul_right (a := u) ?_
      have he : (m + 1) * u = m * u + u := Nat.succ_mul _ _
      omega
    obtain rfl | rfl : m = n / u ∨ m = n / u + 1 := by omega
    · rw [if_neg (by omega)]
    · rw [if_pos (by omega)]
  · intro hm
    split at hm
    next h =>
      subst hm
      omega
    next h =>
      subst hm
      omega

theorem round_eq (hk : k = n.log2 + 1 - 53) : round n =
    (if 2 ^ k < 2 * (n % 2 ^ k) ∨ 2 ^ k = 2 * (n % 2 ^ k) ∧ n / 2 ^ k % 2 = 1
      then n / 2 ^ k + 1 else n / 2 ^ k) * 2 ^ k := by
  rw [round, ← hk]
  simp only [Nat.pow_eq, Bool.or_eq_true, Bool.and_eq_true, decide_eq_true_eq]
  split
  next => rfl
  next => rfl

/-- The rounding that is computed is to the nearest double. -/
theorem rounds_iff : Rounds n x ↔ round n = x := by
  constructor
  · rintro ⟨hbelow, habove, hlow, hhigh, htie⟩
    rw [round_eq (spacing_eq hbelow habove)]
    rw [(nearest_iff (Nat.two_pow_pos _)).mp ⟨hlow, hhigh, htie⟩]
  · rintro rfl
    obtain ⟨hlow, hhigh, htie⟩ := (nearest_iff (Nat.two_pow_pos _)).mpr (Eq.refl _)
    rw [round_eq rfl]
    exact .mk (lt_spacing n) (spacing_le n) hlow hhigh htie

end Rounds

theorem productFits_iff {significand exponent : Nat} :
    productFits significand exponent = true ↔ exponent ≤ 308 ∧
      round (round significand * round (10 ^ exponent)) < Nat.pow 2 1024 := by
  rw [productFits, Bool.and_eq_true, decide_eq_true_eq, decide_eq_true_eq]
  exact Iff.rfl

theorem finite_iff {significand : Nat} {exponent : Int} : Finite significand exponent ↔
    significand = 0 ∨ exponent < 0 ∨ productFits significand exponent.toNat = true := by
  rw [productFits_iff]
  constructor
  · intro h
    cases h with
    | zero => exact .inl rfl
    | quotient h => exact .inr (.inl h)
    | product hexponent hx hy hz hfinite =>
      rw [rounds_iff] at hx hy hz
      rw [Int.toNat_natCast, hx, hy, hz]
      exact .inr (.inr ⟨hexponent, hfinite⟩)
  · rintro (rfl | h | ⟨hexponent, hfinite⟩)
    · exact .zero
    · exact .quotient h
    · by_cases h : exponent < 0
      · exact .quotient h
      · obtain ⟨e, rfl⟩ := Int.eq_ofNat_of_zero_le (Int.not_lt.mp h)
        rw [Int.toNat_natCast] at hexponent hfinite
        exact .product hexponent (rounds_iff.mpr rfl) (rounds_iff.mpr rfl) (rounds_iff.mpr rfl)
          hfinite

end LiveFeed.Double
