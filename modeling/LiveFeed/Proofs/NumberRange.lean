import LiveFeed.Json.Numeral
import LiveFeed.Proofs.Rounding

namespace LiveFeed.Json.Numeral

/--
The digits that a significand takes, `start` being what it holds before them: as many as leave it
below `2 ^ 64`. The first that would not fit is left, and all behind it.
-/
structure Takes (start : Nat) (ds taken left : List Char) : Prop where
  split : ds = taken ++ left
  fits : Nat.ofDigitChars 10 taken start < 2 ^ 64
  full : ∀ d ∈ left.head?, 2 ^ 64 ≤ Nat.ofDigitChars 10 (taken ++ [d]) start

/-- The power of ten that an exponent asks for. -/
inductive AsksFor : Option (Bool × List Char) → Int → Prop where
  | none : AsksFor none 0
  | plus (ds : List Char) : AsksFor (some (false, ds)) (Nat.ofDigitChars 10 ds 0)
  | minus (ds : List Char) : AsksFor (some (true, ds)) (-(Nat.ofDigitChars 10 ds 0 : Nat))

/--
What a number comes to: the significand takes digits in front of the point, and then behind it.
Each digit left in front of the point raises the power of ten, and each taken behind it lowers it.
-/
inductive ComesTo (n : Numeral) : (significand : Nat) → (exponent : Int) → Prop where
  | mk {whole dropped fraction unused : List Char} {power : Int}
      (hwhole : Takes 0 n.whole whole dropped)
      (hfraction : Takes (Nat.ofDigitChars 10 whole 0) n.fraction fraction unused)
      (hpower : AsksFor n.exponent power) :
      ComesTo n (Nat.ofDigitChars 10 (whole ++ fraction) 0)
        (power + dropped.length - fraction.length)

/-- A number that a double can hold. -/
def InRange (n : Numeral) : Prop :=
  ∃ significand exponent, n.ComesTo significand exponent ∧ Double.Finite significand exponent

section Absorb

variable {start : Nat} {ds taken left : List Char}

theorem value_singleton (start : Nat) (d : Char) :
    10 * start + Decimal.value [d] = Nat.ofDigitChars 10 [d] start := by
  rw [Decimal.value, Nat.ofDigitChars_cons, Nat.ofDigitChars_cons, Nat.ofDigitChars_nil,
    Nat.ofDigitChars_nil, Nat.mul_zero, Nat.zero_add]

/-- Digits make no number smaller. -/
theorem le_ofDigitChars (ds : List Char) (start : Nat) : start ≤ Nat.ofDigitChars 10 ds start := by
  rw [Nat.ofDigitChars_eq_ofDigitChars_zero]
  have hpos := Nat.pow_pos (n := ds.length) (a := 10) (by decide)
  exact Nat.le_trans (Nat.le_mul_of_pos_left start hpos) (Nat.le_add_right _ _)

theorem absorb_of_takes (h : Takes start ds taken left) :
    absorb start ds = (Nat.ofDigitChars 10 taken start, left) := by
  obtain ⟨rfl, hfits, hfull⟩ := h
  induction taken generalizing start with
  | nil =>
    cases left with
    | nil => rfl
    | cons d left =>
      have hd : UInt64.size ≤ Nat.ofDigitChars 10 [d] start := hfull d rfl
      rw [List.nil_append, absorb, value_singleton, if_neg (Nat.not_lt.mpr hd)]
      rfl
  | cons d taken ih =>
    have hfirst : Nat.ofDigitChars 10 [d] start < UInt64.size :=
      Nat.lt_of_le_of_lt (le_ofDigitChars taken _) hfits
    rw [List.cons_append, absorb, value_singleton, if_pos hfirst]
    exact ih hfits hfull

theorem exists_takes (hstart : start < 2 ^ 64) (ds : List Char) :
    ∃ taken left, Takes start ds taken left := by
  induction ds generalizing start with
  | nil => exact ⟨[], [], rfl, hstart, by simp⟩
  | cons d ds ih =>
    by_cases hfirst : Nat.ofDigitChars 10 [d] start < 2 ^ 64
    · obtain ⟨taken, left, rfl, hfits, hfull⟩ := ih hfirst
      exact ⟨d :: taken, left, rfl, hfits, hfull⟩
    · refine ⟨[], d :: ds, rfl, hstart, fun e he => ?_⟩
      cases he
      exact Nat.not_lt.mp hfirst

end Absorb

theorem exists_asksFor (exponent : Option (Bool × List Char)) : ∃ power, AsksFor exponent power := by
  match exponent with
  | none => exact ⟨_, .none⟩
  | some (false, ds) => exact ⟨_, .plus ds⟩
  | some (true, ds) => exact ⟨_, .minus ds⟩

section ComesTo

variable {n : Numeral} {significand : Nat} {exponent : Int}

/-- What a number comes to is what is computed. -/
theorem ComesTo.scaled_eq (h : n.ComesTo significand exponent) :
    n.scaled = (significand, exponent) := by
  obtain ⟨hwhole, hfraction, hpower⟩ := h
  have hlength := congrArg List.length hfraction.split
  rw [List.length_append] at hlength
  rw [scaled, absorb_of_takes hwhole]
  dsimp only
  rw [absorb_of_takes hfraction, Nat.ofDigitChars_append, hlength, Nat.add_sub_cancel]
  generalize n.exponent = exponent at hpower ⊢
  cases hpower with
  | none => rfl
  | plus ds => rfl
  | minus ds => rfl

theorem exists_comesTo (n : Numeral) : ∃ significand exponent, n.ComesTo significand exponent := by
  have hzero : 0 < 2 ^ 64 := by decide
  obtain ⟨whole, dropped, hwhole⟩ := exists_takes hzero n.whole
  obtain ⟨fraction, unused, hfraction⟩ := exists_takes hwhole.fits n.fraction
  obtain ⟨power, hpower⟩ := exists_asksFor n.exponent
  exact ⟨_, _, .mk hwhole hfraction hpower⟩

theorem inRange_of_comesTo (h : n.ComesTo significand exponent) :
    n.inRange = true ↔ Double.Finite significand exponent := by
  rw [inRange, h.scaled_eq, Double.finite_iff]
  simp only [Bool.or_eq_true, decide_eq_true_eq, or_assoc]

/-- The range that is checked is that of the doubles. -/
theorem inRange_iff : n.inRange = true ↔ n.InRange := by
  constructor
  · intro h
    obtain ⟨significand, exponent, hcomes⟩ := exists_comesTo n
    exact ⟨significand, exponent, hcomes, (inRange_of_comesTo hcomes).mp h⟩
  · rintro ⟨significand, exponent, hcomes, hfinite⟩
    exact (inRange_of_comesTo hcomes).mpr hfinite

end ComesTo

end LiveFeed.Json.Numeral
