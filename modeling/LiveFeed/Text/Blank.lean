namespace LiveFeed.Text

/-- The characters with the Unicode property White_Space. -/
def isBlank (c : Char) : Bool :=
  (0x9 ≤ c.toNat && c.toNat ≤ 0xD) || c = ' ' || c.toNat = 0x85 || c.toNat = 0xA0
    || c.toNat = 0x1680 || (0x2000 ≤ c.toNat && c.toNat ≤ 0x200A) || c.toNat = 0x2028
    || c.toNat = 0x2029 || c.toNat = 0x202F || c.toNat = 0x205F || c.toNat = 0x3000

/-- A text without the blanks at both its ends. -/
def trim (text : List Char) : List Char :=
  ((text.dropWhile isBlank).reverse.dropWhile isBlank).reverse

theorem dropWhile_of_head? {text : List Char} (h : ∀ c ∈ text.head?, isBlank c = false) :
    text.dropWhile isBlank = text := by
  cases text with
  | nil => rfl
  | cons c cs => exact List.dropWhile_cons_of_neg (Bool.eq_false_iff.mp (h c rfl))

theorem trim_append_left {front : List Char} (h : ∀ c ∈ front, isBlank c = true)
    (text : List Char) : trim (front ++ text) = trim text := by
  rw [trim, List.dropWhile_append_of_pos h, trim]

theorem trim_append_right {back : List Char} (h : ∀ c ∈ back, isBlank c = true)
    (text : List Char) : trim (text ++ back) = trim text := by
  have hback : back.dropWhile isBlank = [] := by
    rw [← List.append_nil back, List.dropWhile_append_of_pos h, List.dropWhile_nil]
  rw [trim, trim, List.dropWhile_append]
  split
  next hempty => rw [hback, List.isEmpty_iff.mp hempty]
  next =>
    rw [List.reverse_append, List.dropWhile_append_of_pos fun c hc => h c (List.mem_reverse.mp hc)]

/-- Nothing is trimmed off a text that neither begins nor ends with a blank. -/
theorem trim_of_ends {text : List Char} (hhead : ∀ c ∈ text.head?, isBlank c = false)
    (hlast : ∀ c ∈ text.getLast?, isBlank c = false) : trim text = text := by
  rw [← List.head?_reverse] at hlast
  rw [trim, dropWhile_of_head? hhead, dropWhile_of_head? hlast, List.reverse_reverse]

end LiveFeed.Text
