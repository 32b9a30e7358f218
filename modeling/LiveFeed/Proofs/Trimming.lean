import LiveFeed.Text.Blank

namespace LiveFeed.Text

/-- The 25 characters that have the Unicode property White_Space. -/
def WhiteSpace (c : Char) : Prop :=
  c.toNat ∈ [0x9, 0xA, 0xB, 0xC, 0xD, 0x20, 0x85, 0xA0, 0x1680, 0x2000, 0x2001, 0x2002, 0x2003,
    0x2004, 0x2005, 0x2006, 0x2007, 0x2008, 0x2009, 0x200A, 0x2028, 0x2029, 0x202F, 0x205F, 0x3000]

/-- The core of a text has white space on either side, and neither begins nor ends with it. -/
structure IsCore (text core : List Char) : Prop where
  head : ∀ c ∈ core.head?, ¬ WhiteSpace c
  last : ∀ c ∈ core.getLast?, ¬ WhiteSpace c
  around : ∃ front back, (∀ c ∈ front, WhiteSpace c) ∧ (∀ c ∈ back, WhiteSpace c) ∧
    text = front ++ (core ++ back)

theorem isBlank_iff {c : Char} : isBlank c = true ↔ WhiteSpace c := by
  have hspace : c = ' ' ↔ c.toNat = 0x20 := Char.toNat_inj.symm
  simp only [isBlank, WhiteSpace, hspace, Bool.or_eq_true, Bool.and_eq_true, decide_eq_true_eq,
    List.mem_cons, List.not_mem_nil, or_false]
  omega

theorem isBlank_eq_false_iff {c : Char} : isBlank c = false ↔ ¬ WhiteSpace c := by
  rw [← isBlank_iff, Bool.not_eq_true]

theorem IsCore.trim_eq {text core : List Char} (h : IsCore text core) : trim text = core := by
  obtain ⟨front, back, hfront, hback, rfl⟩ := h.around
  have hhead := h.head
  have hlast := h.last
  simp only [← isBlank_iff] at hfront hback
  simp only [← isBlank_eq_false_iff] at hhead hlast
  rw [trim_append_left hfront, trim_append_right hback, trim_of_ends hhead hlast]

theorem head?_dropWhile_isBlank (text : List Char) :
    ∀ c ∈ (text.dropWhile isBlank).head?, isBlank c = false := by
  intro c hc
  have hstop := List.head?_dropWhile_not isBlank text
  rwa [Option.mem_def.mp hc] at hstop

theorem isCore_trim (text : List Char) : IsCore text (trim text) := by
  have hsplit : text.dropWhile isBlank =
      trim text ++ ((text.dropWhile isBlank).reverse.takeWhile isBlank).reverse := by
    rw [trim, ← List.reverse_append, List.takeWhile_append_dropWhile, List.reverse_reverse]
  constructor
  case head =>
    intro c hc
    rw [← isBlank_eq_false_iff]
    refine head?_dropWhile_isBlank text c ?_
    rw [hsplit, List.head?_append, Option.mem_def.mp hc]
    rfl
  case last =>
    intro c hc
    rw [← isBlank_eq_false_iff]
    rw [trim, List.getLast?_reverse] at hc
    exact head?_dropWhile_isBlank _ c hc
  case around =>
    simp only [← isBlank_iff]
    refine ⟨text.takeWhile isBlank, ((text.dropWhile isBlank).reverse.takeWhile isBlank).reverse,
      List.all_eq_true.mp List.all_takeWhile, fun c hc => ?_, ?_⟩
    · exact List.all_eq_true.mp List.all_takeWhile c (List.mem_reverse.mp hc)
    · rw [← hsplit, List.takeWhile_append_dropWhile]

theorem isCore_iff {text core : List Char} : IsCore text core ↔ trim text = core :=
  ⟨IsCore.trim_eq, fun h => h ▸ isCore_trim text⟩

end LiveFeed.Text
