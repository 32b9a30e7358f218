import LiveFeed.Json.Reader

namespace LiveFeed.Json

/-- The letter behind a backslash, and the character that the two stand for. -/
inductive ShortEscape : Char → Char → Prop where
  | quote : ShortEscape '"' '"'
  | backslash : ShortEscape '\\' '\\'
  | slash : ShortEscape '/' '/'
  | backspace : ShortEscape 'b' (Char.ofNat 8)
  | formFeed : ShortEscape 'f' (Char.ofNat 12)
  | lineFeed : ShortEscape 'n' (Char.ofNat 10)
  | carriageReturn : ShortEscape 'r' (Char.ofNat 13)
  | tab : ShortEscape 't' (Char.ofNat 9)

/-- A hexadecimal digit and its number, by its place in the row of digits. -/
def HexDigit (c : Char) (n : Nat) : Prop :=
  ['0', '1', '2', '3', '4', '5', '6', '7', '8', '9', 'a', 'b', 'c', 'd', 'e', 'f'][n]? = some c ∨
    ['0', '1', '2', '3', '4', '5', '6', '7', '8', '9', 'A', 'B', 'C', 'D', 'E', 'F'][n]? = some c

instance (c : Char) (n : Nat) : Decidable (HexDigit c n) := inferInstanceAs (Decidable (_ ∨ _))

/-- Four hexadecimal digits and the number that they stand for. -/
inductive HexUnit : (c₁ c₂ c₃ c₄ : Char) → Nat → Prop where
  | mk {c₁ c₂ c₃ c₄ : Char} {n₁ n₂ n₃ n₄ : Nat} (h₁ : HexDigit c₁ n₁) (h₂ : HexDigit c₂ n₂)
      (h₃ : HexDigit c₃ n₃) (h₄ : HexDigit c₄ n₄) :
      HexUnit c₁ c₂ c₃ c₄ (((n₁ * 16 + n₂) * 16 + n₃) * 16 + n₄)

/-- A high and a low surrogate that stand for one character together. -/
structure SurrogatePair (high low : Nat) (c : Char) : Prop where
  first : 0xD800 ≤ high ∧ high ≤ 0xDBFF
  second : 0xDC00 ≤ low ∧ low ≤ 0xDFFF
  joined : c.toNat = 0x10000 + (high - 0xD800) * 0x400 + (low - 0xDC00)

theorem shortEscape?_eq_some_iff {e c : Char} : shortEscape? e = some c ↔ ShortEscape e c := by
  constructor
  · intro h
    unfold shortEscape? at h
    split at h
    all_goals cases h
    all_goals constructor
  · intro h
    cases h
    all_goals rfl

section Digits

variable {c : Char} {n : Nat}

/-- A row of characters that are digits one after the other. -/
theorem hexDigit_of_row {first last : Char} (count shift : Nat) (hlow : first ≤ c)
    (hhigh : c ≤ last) (hlast : last.toNat < first.toNat + count)
    (hrow : ∀ k < count, HexDigit (Char.ofNat (first.toNat + k)) (k + shift)) :
    HexDigit c (c.toNat - first.toNat + shift) := by
  have hle : first.toNat ≤ c.toNat := hlow
  have hle' : c.toNat ≤ last.toNat := hhigh
  have hdigit := hrow (c.toNat - first.toNat) (by omega)
  rwa [Nat.add_sub_cancel' hle, Char.ofNat_toNat] at hdigit

theorem digit?_of_place {row : List Char} (h : row[n]? = some c)
    (hrow : ∀ k : Fin row.length, Hexadecimal.digit? row[k] = some k.val) :
    Hexadecimal.digit? c = some n := by
  obtain ⟨hn, rfl⟩ := List.getElem?_eq_some_iff.mp h
  exact hrow ⟨n, hn⟩

theorem digit?_eq_some_iff : Hexadecimal.digit? c = some n ↔ HexDigit c n := by
  constructor
  · intro h
    unfold Hexadecimal.digit? at h
    simp only [Bool.and_eq_true, decide_eq_true_eq] at h
    split at h
    next hc =>
      cases h
      exact hexDigit_of_row 10 0 hc.1 hc.2 (by decide) (by decide)
    split at h
    next hc =>
      cases h
      exact hexDigit_of_row 6 10 hc.1 hc.2 (by decide) (by decide)
    split at h
    next hc =>
      cases h
      exact hexDigit_of_row 6 10 hc.1 hc.2 (by decide) (by decide)
    next => cases h
  · rintro (h | h)
    · exact digit?_of_place h (by decide)
    · exact digit?_of_place h (by decide)

theorem HexDigit.lt (h : HexDigit c n) : n < 16 := by
  rcases h with h | h
  · exact (List.getElem?_eq_some_iff.mp h).1
  · exact (List.getElem?_eq_some_iff.mp h).1

end Digits

section Unit

variable {c₁ c₂ c₃ c₄ c : Char} {n high low : Nat}

theorem HexUnit.isDigit (h : HexUnit c₁ c₂ c₃ c₄ n) :
    [c₁, c₂, c₃, c₄].all Hexadecimal.isDigit = true := by
  obtain ⟨h₁, h₂, h₃, h₄⟩ := h
  rw [← digit?_eq_some_iff] at h₁ h₂ h₃ h₄
  simp only [Hexadecimal.isDigit, List.all_cons, List.all_nil, h₁, h₂, h₃, h₄, Option.isSome_some]
  rfl

theorem HexUnit.hexUnit?_eq (h : HexUnit c₁ c₂ c₃ c₄ n) : hexUnit? c₁ c₂ c₃ c₄ = some n := by
  rw [hexUnit?, if_pos h.isDigit]
  obtain ⟨h₁, h₂, h₃, h₄⟩ := h
  rw [← digit?_eq_some_iff] at h₁ h₂ h₃ h₄
  simp only [Hexadecimal.value, List.foldl_cons, List.foldl_nil, h₁, h₂, h₃, h₄, Option.getD_some]
  exact congrArg some (by omega)

/-- The digits that are read as a number are those that stand for it. -/
theorem hexUnit?_eq_some_iff : hexUnit? c₁ c₂ c₃ c₄ = some n ↔ HexUnit c₁ c₂ c₃ c₄ n := by
  constructor
  · intro h
    have hall : [c₁, c₂, c₃, c₄].all Hexadecimal.isDigit = true := by
      unfold hexUnit? at h
      split at h
      next hall => exact hall
      next => cases h
    simp only [List.all_cons, List.all_nil, Bool.and_true, Bool.and_eq_true, Hexadecimal.isDigit,
      Option.isSome_iff_exists, digit?_eq_some_iff] at hall
    obtain ⟨⟨n₁, h₁⟩, ⟨n₂, h₂⟩, ⟨n₃, h₃⟩, ⟨n₄, h₄⟩⟩ := hall
    have hunit := HexUnit.mk h₁ h₂ h₃ h₄
    rw [Option.some.inj (h.symm.trans hunit.hexUnit?_eq)]
    exact hunit
  · exact HexUnit.hexUnit?_eq

theorem HexUnit.lt (h : HexUnit c₁ c₂ c₃ c₄ n) : n < 0x10000 := by
  obtain ⟨h₁, h₂, h₃, h₄⟩ := h
  have := h₁.lt
  have := h₂.lt
  have := h₃.lt
  have := h₄.lt
  omega

theorem isHighSurrogate_iff : isHighSurrogate n = true ↔ 0xD800 ≤ n ∧ n ≤ 0xDBFF := by
  simp [isHighSurrogate]

theorem isLowSurrogate_iff : isLowSurrogate n = true ↔ 0xDC00 ≤ n ∧ n ≤ 0xDFFF := by
  simp [isLowSurrogate]

theorem toNat_ofNat (h : n.isValidChar) : (Char.ofNat n).toNat = n := by
  rw [Char.ofNat, dif_pos h]
  rfl

/-- No character has the number of a surrogate. -/
theorem hexUnit_toNat_iff (h : HexUnit c₁ c₂ c₃ c₄ n) : c.toNat = n ↔
    isLowSurrogate n = false ∧ isHighSurrogate n = false ∧ c = Char.ofNat n := by
  have hsize := h.lt
  rw [← Bool.not_eq_true, ← Bool.not_eq_true, isLowSurrogate_iff, isHighSurrogate_iff]
  constructor
  · rintro rfl
    have hvalid : c.toNat.isValidChar := c.valid
    exact ⟨by omega, by omega, (Char.ofNat_toNat c).symm⟩
  · rintro ⟨hlow, hhigh, rfl⟩
    exact toNat_ofNat (by omega)

theorem surrogatePair_iff : SurrogatePair high low c ↔ isHighSurrogate high = true ∧
    isLowSurrogate low = true ∧ c = joinSurrogates high low := by
  rw [isHighSurrogate_iff, isLowSurrogate_iff, joinSurrogates]
  constructor
  · rintro ⟨hhigh, hlow, hc⟩
    refine ⟨hhigh, hlow, ?_⟩
    rw [← hc, Char.ofNat_toNat]
  · rintro ⟨hhigh, hlow, hc⟩
    refine ⟨hhigh, hlow, ?_⟩
    rw [hc]
    exact toNat_ofNat (by omega)

end Unit

end LiveFeed.Json
