import Mathlib.Data.List.Induction
import LiveFeed.Balance
import LiveFeed.Proofs.Trimming

namespace LiveFeed

namespace Decimal

/-- A row of digits, the most significant first, and the number that it stands for. -/
inductive Spells : List Char → Nat → Prop where
  | digit {c : Char} (hc : c.isDigit = true) : Spells [c] (c.toNat - '0'.toNat)
  | more {ds : List Char} {n : Nat} {c : Char} (h : Spells ds n) (hc : c.isDigit = true) :
      Spells (ds ++ [c]) (10 * n + (c.toNat - '0'.toNat))

/-- Digits that may stand behind a plus sign. -/
inductive Amount : List Char → Nat → Prop where
  | bare {ds : List Char} {n : Nat} (h : Spells ds n) : Amount ds n
  | plus {ds : List Char} {n : Nat} (h : Spells ds n) : Amount ('+' :: ds) n

theorem value_concat (ds : List Char) (c : Char) :
    value (ds ++ [c]) = 10 * value ds + (c.toNat - '0'.toNat) := by
  rw [value, value, Nat.ofDigitChars_append, Nat.ofDigitChars_cons, Nat.ofDigitChars_nil]

theorem Spells.isNumeral {ds : List Char} {n : Nat} (h : Spells ds n) : isNumeral ds = true := by
  induction h with
  | digit hc => simp [Decimal.isNumeral, hc]
  | more h hc ih =>
    simp only [Decimal.isNumeral, Bool.and_eq_true] at ih
    simp [Decimal.isNumeral, ih.2, hc]

theorem Spells.value_eq {ds : List Char} {n : Nat} (h : Spells ds n) : value ds = n := by
  induction h with
  | digit hc => exact (value_concat [] _).trans (by simp [value, Nat.ofDigitChars_nil])
  | more h hc ih => rw [value_concat, ih]

theorem spells_value {ds : List Char} (h : isNumeral ds = true) : Spells ds (value ds) := by
  induction ds using List.reverseRecOn with
  | nil => cases h
  | append_singleton ds c ih =>
    obtain ⟨hds, hc⟩ : ds.all Char.isDigit = true ∧ c.isDigit = true := by
      simpa [isNumeral] using h
    rw [value_concat]
    cases hempty : ds.isEmpty with
    | true =>
      rw [List.isEmpty_iff] at hempty
      subst hempty
      simpa [value, Nat.ofDigitChars_nil] using Spells.digit hc
    | false => exact .more (ih (by simp [isNumeral, hds, hempty])) hc

/-- A text without the plus sign in front. -/
def unsigned : List Char → List Char
  | '+' :: ds => ds
  | ds => ds

theorem readUInt64?_eq (text : List Char) :
    readUInt64? text =
      if isNumeral (unsigned text) && value (unsigned text) < UInt64.size then
        some (UInt64.ofNat (value (unsigned text)))
      else none :=
  rfl

theorem Spells.unsigned_eq {ds : List Char} {n : Nat} (h : Spells ds n) : unsigned ds = ds := by
  unfold unsigned
  split
  next ds =>
    have hplus := h.isNumeral
    simp [Decimal.isNumeral] at hplus
  next => rfl

theorem amount_iff {text : List Char} {n : Nat} : Amount text n ↔ Spells (unsigned text) n := by
  constructor
  · intro h
    cases h with
    | bare h => rwa [h.unsigned_eq]
    | plus h => exact h
  · unfold unsigned
    split
    next => exact .plus
    next => exact .bare

theorem readUInt64?_of_amount {text : List Char} {n : Nat} (h : Amount text n) :
    readUInt64? text = if n < UInt64.size then some (UInt64.ofNat n) else none := by
  have hspells := amount_iff.mp h
  rw [readUInt64?_eq, hspells.isNumeral, hspells.value_eq, Bool.true_and]
  simp only [decide_eq_true_eq]

theorem amount_of_readUInt64? {text : List Char} {n : UInt64} (h : readUInt64? text = some n) :
    Amount text n.toNat := by
  rw [readUInt64?_eq] at h
  split at h
  next hfits =>
    simp only [Bool.and_eq_true, decide_eq_true_eq] at hfits
    rw [← Option.some.inj h, UInt64.toNat_ofNat_of_lt' hfits.2]
    exact amount_iff.mpr (spells_value hfits.1)
  next => cases h

end Decimal

namespace Balance

/-- What a text stands for, the blanks at its ends and the separators left aside. -/
def Denotes (raw : String) (n : Nat) : Prop :=
  ∃ core, Text.IsCore raw.toList core ∧
    Decimal.Amount (core.filter fun c => c ∉ [',', '_', ' ']) n

theorem denotes_iff {raw : String} {n : Nat} :
    Denotes raw n ↔
      Decimal.Amount ((Text.trim raw.toList).filter (!isSeparator ·)) n := by
  have hfilter (core : List Char) :
      core.filter (fun c => c ∉ [',', '_', ' ']) = core.filter (!isSeparator ·) := by
    refine List.filter_congr fun c _ => ?_
    simp [isSeparator, Bool.and_assoc]
  simp only [Denotes, Text.isCore_iff, hfilter, exists_eq_left']

theorem parse?_of_denotes {raw : String} {n : Nat} (h : Denotes raw n) :
    parse? raw = if n < UInt64.size then some (UInt64.ofNat n) else none :=
  Decimal.readUInt64?_of_amount (denotes_iff.mp h)

theorem parse?_eq_some_iff {raw : String} {n : UInt64} :
    parse? raw = some n ↔ Denotes raw n.toNat := by
  constructor
  · intro h
    exact denotes_iff.mpr (Decimal.amount_of_readUInt64? h)
  · intro h
    rw [parse?_of_denotes h, if_pos n.toNat_lt_size, UInt64.ofNat_toNat]

theorem parse?_eq_none_iff {raw : String} :
    parse? raw = none ↔ (∀ n, ¬ Denotes raw n) ∨ ∃ n, Denotes raw n ∧ UInt64.size ≤ n := by
  constructor
  · intro hnone
    by_cases hdenotes : ∃ n, Denotes raw n
    · obtain ⟨n, hn⟩ := hdenotes
      rw [parse?_of_denotes hn] at hnone
      split at hnone
      next => cases hnone
      next hsize => exact .inr ⟨n, hn, Nat.not_lt.mp hsize⟩
    · exact .inl (not_exists.mp hdenotes)
  · rintro (hno | ⟨n, hn, hsize⟩)
    · exact Option.eq_none_iff_forall_ne_some.mpr fun n hread => hno _ (parse?_eq_some_iff.mp hread)
    · rw [parse?_of_denotes hn, if_neg (Nat.not_lt.mpr hsize)]

/--
A balance is read from the texts that stand for a number below `2 ^ 64`, and from no others; a
number that does not fit is turned down like a text that is none.
-/
theorem parse?_accepts_language (raw : String) :
    (∀ n : UInt64, parse? raw = some n ↔ Denotes raw n.toNat) ∧
      (parse? raw = none ↔ (∀ n, ¬ Denotes raw n) ∨ ∃ n, Denotes raw n ∧ UInt64.size ≤ n) :=
  ⟨fun _ => parse?_eq_some_iff, parse?_eq_none_iff⟩

example : parse? "\t+18_446,744 073709551615\n" = some 18446744073709551615 := by decide +kernel

example : parse? "0018446744073709551616" = none := by decide +kernel

example : parse? "1\t000" = none := by decide +kernel

end Balance

end LiveFeed
