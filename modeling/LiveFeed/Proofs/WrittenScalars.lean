import LiveFeed.Json.Writer
import LiveFeed.Proofs.ScalarGrammar

namespace LiveFeed

namespace Decimal

theorem isDigit_of_mem_digits {n : Nat} {c : Char} (h : c ∈ digits n) : c.isDigit = true :=
  Nat.isDigit_of_mem_toDigits (by decide) (by decide) h

theorem digits_ne_nil (n : Nat) : digits n ≠ [] := Nat.toDigits_ne_nil

theorem value_digits (n : Nat) : value (digits n) = n := Nat.ofDigitChars_ten_toDigits

/-- Only zero is written with a zero in front. -/
theorem head?_digits_ne_zero {n : Nat} (h : n ≠ 0) : (digits n).head? ≠ some '0' := by
  induction n using Nat.strongRecOn with
  | ind n ih =>
    by_cases hn : n < 10
    · rw [digits, Nat.toDigits_of_lt_base hn, List.head?_cons]
      intro hd
      have hv := value_digits n
      rw [digits, Nat.toDigits_of_lt_base hn, Option.some.inj hd] at hv
      exact h hv.symm
    · have hfront := ih (n / 10) (by omega) (by omega)
      rw [digits, Nat.toDigits_of_base_le (by decide) (by omega)]
      obtain ⟨d, ds, hd⟩ := List.exists_cons_of_ne_nil (digits_ne_nil (n / 10))
      rw [digits] at hd hfront
      rw [hd] at hfront ⊢
      exact hfront

end Decimal

namespace Json

theorem apart_nil : Apart [] := by simp [Apart]

theorem apart_comma (rest : Text) : Apart (',' :: rest) := by simp [Apart]

theorem apart_brace (rest : Text) : Apart ('}' :: rest) := by simp [Apart]

/-- The four digits under which a control character is written stand for it. -/
theorem hexUnit_digitChar {n : Nat} (h : n < 0x20) :
    HexUnit '0' '0' (Nat.digitChar (n / 16)) (Nat.digitChar (n % 16)) n := by
  have hall : ∀ n < 0x20,
      hexUnit? '0' '0' (Nat.digitChar (n / 16)) (Nat.digitChar (n % 16)) = some n := by decide
  exact hexUnit?_eq_some_iff.mp (hall n h)

theorem spells_writeChar (c : Char) {t : Text} {cs : List Char} (h : Spells t cs) :
    Spells (writeChar c ++ t) (c :: cs) := by
  unfold writeChar
  split
  case h_8 hquote hslash _ _ _ _ _ =>
    split
    next hcontrol => exact .unit (hexUnit_digitChar hcontrol) h
    next hcontrol => exact .plain hquote hslash hcontrol h
  all_goals exact .short (by constructor) h

theorem spells_write (cs : List Char) : Spells (cs.flatMap writeChar) cs := by
  induction cs with
  | nil => exact .nil
  | cons c cs ih => exact spells_writeChar c ih

theorem string_write (s : String) (rest : Text) :
    string (s.toList.flatMap writeChar ++ '"' :: rest) = .ok (s, rest) := by
  rw [string_of_spells (spells_write s.toList), String.ofList_toList]

theorem scalar_string (s : String) : Scalar (writeString s) (.string s) := by
  have hstring := Scalar.string (spells_write s.toList)
  rw [String.ofList_toList] at hstring
  exact hstring

/-- A written member, with space in front of its value. -/
theorem member_writeMember {α : Type} {part : Text → α → Prop} (name : String) {s t : Text} {a : α}
    (hs : Space s) (h : part t a) : Member part (writeMember name (s ++ t)) (name, a) := by
  have hmember := Member.mk (spells_write name.toList) (List.forall_mem_nil _) hs h
  simpa [writeMember, writeString] using hmember

theorem scalar_bool (b : Bool) : Scalar (writeBool b) (.boolean b) := by
  cases b with
  | true => exact .true
  | false => exact .false

/-- Decimal digits are a number as it is written. -/
theorem writes_digits (n : Nat) : Numeral.Writes ⟨false, Decimal.digits n, [], none⟩
    (Decimal.digits n) := by
  have hzero : (Decimal.digits n).head? = some '0' → (Decimal.digits n).length = 1 := by
    intro hd
    by_cases hn : n = 0
    · rw [hn]
      rfl
    · exact absurd hd (Decimal.head?_digits_ne_zero hn)
  have hdigits : IsDigits (Decimal.digits n) :=
    ⟨Decimal.digits_ne_nil n, fun _ => Decimal.isDigit_of_mem_digits⟩
  have hwrites : Numeral.Writes ⟨false, Decimal.digits n, [], none⟩
    ((if false then ['-'] else []) ++ (Decimal.digits n ++ ([] ++ []))) :=
    .mk hdigits hzero .none .none
  simpa using hwrites

theorem scalar_count (n : UInt64) : Scalar (Decimal.digits n.toNat) (.integer n.toNat) := by
  have hn : n.toNat < 2 ^ 64 := n.toNat_lt_size
  refine .number (writes_digits n.toNat) (.integer ⟨rfl, rfl, ?_⟩)
  have hvalue : Nat.ofDigitChars 10 (Decimal.digits n.toNat) 0 = n.toNat :=
    Decimal.value_digits n.toNat
  rw [if_neg Bool.false_ne_true, hvalue]
  exact ⟨rfl, by omega⟩

end Json

end LiveFeed
