import LiveFeed.LineFeed
import Mathlib.Data.List.TakeWhile

namespace LiveFeed.ByteStream

/-- The lines of some bytes, each with the newline that ends it; the last one may have none. -/
def lines : List UInt8 → List (List UInt8)
  | [] => []
  | b :: bytes =>
    if b = newline then [b] :: lines bytes
    else
      match lines bytes with
      | [] => [[b]]
      | line :: rest => (b :: line) :: rest

theorem lines_terminated {line : List UInt8} (h : newline ∉ line) (rest : List UInt8) :
    lines (line ++ newline :: rest) = (line ++ [newline]) :: lines rest := by
  induction line with
  | nil => simp [lines]
  | cons b line ih =>
    rw [List.mem_cons, not_or] at h
    obtain ⟨hb, hline⟩ := h
    have hne : b ≠ newline := fun he => hb he.symm
    simp [lines, ih hline, hne]

theorem lines_unterminated {line : List UInt8} (h : newline ∉ line) (hline : line ≠ []) :
    lines line = [line] := by
  induction line with
  | nil => exact absurd rfl hline
  | cons b line ih =>
    rw [List.mem_cons, not_or] at h
    obtain ⟨hb, hrest⟩ := h
    have hne : b ≠ newline := fun he => hb he.symm
    cases line with
    | nil => simp [lines, hne]
    | cons c line => rw [lines, if_neg hne, ih hrest (by simp)]

theorem lines_ne_nil {bytes : List UInt8} (h : bytes ≠ []) : lines bytes ≠ [] := by
  cases bytes with
  | nil => exact absurd rfl h
  | cons b bytes =>
    rw [lines]
    split
    next => simp
    next => split <;> simp

/-- What follows a newline has no part in the lines before it. -/
theorem lines_append {front : List UInt8} (h : front = [] ∨ front.getLast? = some newline)
    (back : List UInt8) : lines (front ++ back) = lines front ++ lines back := by
  induction front with
  | nil => rfl
  | cons b front ih =>
    by_cases hb : b = newline
    · have hfront : front = [] ∨ front.getLast? = some newline := by
        cases front with
        | nil => exact .inl rfl
        | cons c front => exact .inr (by simpa using h)
      rw [List.cons_append, lines, if_pos hb, lines, if_pos hb, ih hfront, List.cons_append]
    · -- the line goes on, so there is more of the front
      obtain ⟨c, front, rfl⟩ : ∃ c rest, front = c :: rest := by
        cases front with
        | nil => simp [hb] at h
        | cons c front => exact ⟨c, front, rfl⟩
      have hfront : (c :: front).getLast? = some newline := by simpa using h
      obtain ⟨line, rest, hl⟩ :=
        List.exists_cons_of_ne_nil (lines_ne_nil (List.cons_ne_nil c front))
      rw [List.cons_append, lines, if_neg hb, lines, if_neg hb, ih (.inr hfront), hl]
      rfl

theorem keep_take (limit : Nat) (read bytes : List UInt8) :
    keep limit (read.take limit).toArray bytes = ((read ++ bytes).take limit).toArray := by
  have hroom : limit - (read.take limit).length = limit - read.length := by
    rw [List.length_take]
    omega
  rw [List.take_append, keep, List.size_toArray, hroom]
  simp

theorem all_ne_of_notMem {line : List UInt8} (h : newline ∉ line) :
    ∀ b ∈ line, decide (b ≠ newline) = true := by
  intro b hb
  have hne : b ≠ newline := fun he => h (he ▸ hb)
  simpa using hne

theorem takeWhile_line {line : List UInt8} (h : newline ∉ line) (rest : List UInt8) :
    (line ++ newline :: rest).takeWhile (· ≠ newline) = line := by
  rw [List.takeWhile_append_of_pos (all_ne_of_notMem h)]
  simp

theorem dropWhile_line {line : List UInt8} (h : newline ∉ line) (rest : List UInt8) :
    (line ++ newline :: rest).dropWhile (· ≠ newline) = newline :: rest := by
  rw [List.dropWhile_append_of_pos (all_ne_of_notMem h)]
  simp

/-- A chunk without a newline is part of the line that it begins. -/
theorem exists_append_of_notMem {chunk line rest back : List UInt8} (h : newline ∉ chunk)
    (he : chunk ++ back = line ++ newline :: rest) :
    ∃ more, line = chunk ++ more ∧ back = more ++ newline :: rest := by
  obtain ⟨more, hline, hback⟩ | ⟨back', hchunk, hrest⟩ := List.append_eq_append_iff.mp he
  · exact ⟨more, hline, hback⟩
  · cases back' with
    | nil => exact ⟨[], by simp [hchunk], by simpa using hrest.symm⟩
    | cons b back' =>
      obtain ⟨rfl, -⟩ := List.cons.inj hrest
      exact absurd (by simp [hchunk]) h

/-- Without a newline all that is left is read. -/
theorem readLine_unterminated (limit : Nat) (read : List UInt8) (consumed : Nat)
    {chunks : List (List UInt8)} (h : newline ∉ chunks.flatten) :
    readLine limit (read.take limit).toArray consumed chunks =
      { kept := ((read ++ chunks.flatten).take limit).toArray
        consumed := consumed + chunks.flatten.length
        terminated := false
        rest := [] } := by
  induction chunks generalizing read consumed with
  | nil => simp [readLine]
  | cons chunk chunks ih =>
    rw [List.flatten_cons, List.mem_append, not_or] at h
    obtain ⟨hchunk, hchunks⟩ := h
    have hall : chunk.dropWhile (· ≠ newline) = [] :=
      List.dropWhile_eq_nil_iff.mpr (all_ne_of_notMem hchunk)
    rw [readLine, hall]
    dsimp only
    rw [keep_take, ih (read ++ chunk) _ hchunks]
    simp [Nat.add_assoc]

/-- A line is read up to its newline, wherever the reads were cut, and the rest is left. -/
theorem readLine_terminated (limit : Nat) (read : List UInt8) (consumed : Nat)
    {chunks : List (List UInt8)} {line rest : List UInt8} (hline : newline ∉ line)
    (h : chunks.flatten = line ++ newline :: rest) :
    ∃ left, left.flatten = rest ∧
      readLine limit (read.take limit).toArray consumed chunks =
        { kept := ((read ++ (line ++ [newline])).take limit).toArray
          consumed := consumed + (line ++ [newline]).length
          terminated := true
          rest := left } := by
  induction chunks generalizing read consumed line with
  | nil => simp at h
  | cons chunk chunks ih =>
    rw [List.flatten_cons] at h
    by_cases hchunk : newline ∈ chunk
    · obtain ⟨front, back, rfl, hfront⟩ := List.eq_append_cons_of_mem hchunk
      rw [List.append_assoc, List.cons_append] at h
      have hfl : front = line := by
        rw [← takeWhile_line hfront (back ++ chunks.flatten), h, takeWhile_line hline]
      subst hfl
      have hback : back ++ chunks.flatten = rest := by simpa using h
      refine ⟨back :: chunks, hback, ?_⟩
      rw [readLine, dropWhile_line hline, takeWhile_line hline]
      dsimp only
      rw [keep_take]
    · -- the whole chunk belongs to the line
      obtain ⟨more, rfl, hmore⟩ := exists_append_of_notMem hchunk h
      rw [List.mem_append, not_or] at hline
      obtain ⟨left, hleft, hread⟩ := ih (read ++ chunk) (consumed + chunk.length) hline.2 hmore
      refine ⟨left, hleft, ?_⟩
      have hall : chunk.dropWhile (· ≠ newline) = [] :=
        List.dropWhile_eq_nil_iff.mpr (all_ne_of_notMem hchunk)
      rw [readLine, hall]
      dsimp only
      rw [keep_take, hread]
      simp [Nat.add_assoc]

end LiveFeed.ByteStream
