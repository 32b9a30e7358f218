import LiveFeed.Proofs.Framing
import Mathlib.Data.List.DropRight

namespace LiveFeed

theorem Text.trim_newline (cs : List Char) : trim (cs ++ ['\n']) = trim cs :=
  trim_append_right (List.forall_mem_singleton.mpr rfl) cs

theorem eq_newline_of_toNat {n : Nat} (h : UInt8.ofNat n = ByteStream.newline) : n % 256 = 10 := by
  have hn := congrArg UInt8.toNat h
  rwa [UInt8.toNat_ofNat'] at hn

/-- No character but the newline is written with a newline among its bytes. -/
theorem eq_newline_of_mem {c : Char} (h : ByteStream.newline ∈ String.utf8EncodeChar c) :
    c = '\n' := by
  unfold String.utf8EncodeChar at h
  dsimp only at h
  split at h
  next hsmall =>
    have hc := eq_newline_of_toNat (List.mem_singleton.mp h).symm
    rw [Nat.mod_eq_of_lt (by omega)] at hc
    exact Char.toNat_inj.mp hc
  next =>
    -- every byte of a longer code is in the upper half
    have hupper : ∀ k, ByteStream.newline = UInt8.ofNat k → 128 ≤ k % 256 → c = '\n' := by
      intro k hk hle
      have := eq_newline_of_toNat hk.symm
      omega
    split at h
    next =>
      simp only [List.mem_cons, List.not_mem_nil, or_false] at h
      rcases h with h | h <;> exact hupper _ h (by omega)
    next =>
      split at h
      next =>
        simp only [List.mem_cons, List.not_mem_nil, or_false] at h
        rcases h with h | h | h <;> exact hupper _ h (by omega)
      next =>
        simp only [List.mem_cons, List.not_mem_nil, or_false] at h
        rcases h with h | h | h | h <;> exact hupper _ h (by omega)

namespace ByteStream

theorem exists_of_encoded_newline {cs : List Char} {line : List UInt8}
    (h : cs.flatMap String.utf8EncodeChar = line ++ [newline]) :
    ∃ front, cs = front ++ ['\n'] ∧ front.flatMap String.utf8EncodeChar = line := by
  induction cs using List.reverseRecOn with
  | nil => simp at h
  | append_singleton front c =>
    rw [List.flatMap_append, List.flatMap_singleton] at h
    have hlast := congrArg List.getLast? h
    rw [List.getLast?_append_of_ne_nil _ String.utf8EncodeChar_ne_nil,
      List.getLast?_concat] at hlast
    obtain rfl := eq_newline_of_mem (List.mem_of_getLast? hlast)
    exact ⟨front, rfl, List.append_cancel_right h⟩

/-- The newline of a line has no part in its text. -/
theorem text?_newline (line : List UInt8) : text? (line ++ [newline]) = text? line := by
  by_cases h : ∃ cs : List Char, cs.flatMap String.utf8EncodeChar = line
  · obtain ⟨cs, rfl⟩ := h
    have hend : cs.flatMap String.utf8EncodeChar ++ [newline] =
        (cs ++ ['\n']).flatMap String.utf8EncodeChar := by
      rw [List.flatMap_append]
      rfl
    rw [hend, text?_encoded, text?_encoded, Text.trim_newline]
  · have hbroken : ∀ cs : List Char, cs.flatMap String.utf8EncodeChar ≠ line ++ [newline] := by
      intro cs hcs
      obtain ⟨front, -, hfront⟩ := exists_of_encoded_newline hcs
      exact h ⟨front, hfront⟩
    rw [text?_of_broken hbroken, text?_of_broken fun cs hcs => h ⟨cs, hcs⟩]

/-- A newline is one byte too many for a line that has as many as a frame may have. -/
theorem frameText?_newline (max : UInt64) (line : List UInt8) :
    frameText? max (line ++ [newline]) =
      if line.length = max.toNat ∧ max.toNat ≠ UInt64.size - 1 then none
      else frameText? max line := by
  have hmax := max.toNat_lt_size
  by_cases hlong : UInt64.size - 1 ≤ line.length
  · have htold : told (line ++ [newline]) = told line := List.take_append_of_le_length hlong
    rw [if_neg (by omega), frameText?, htold, frameText?]
  · have hlength : (line ++ [newline]).length = line.length + 1 := List.length_append
    have hterminated := frameText?_of_fits (line ++ [newline]) (by omega) max
    have hunterminated := frameText?_of_fits line (by omega) max
    rw [hterminated, hunterminated, text?_newline, hlength]
    by_cases hfull : line.length = max.toNat
    · rw [if_neg (by omega), if_pos (by omega)]
    · rw [if_neg (c := line.length = max.toNat ∧ max.toNat ≠ UInt64.size - 1) (by omega)]
      by_cases hroom : line.length + 1 ≤ max.toNat
      · rw [if_pos hroom, if_pos (by omega)]
      · rw [if_neg hroom, if_neg (by omega)]

/-- The bytes up to the last newline. -/
def finished (bytes : List UInt8) : List UInt8 := bytes.rdropWhile (· ≠ newline)

/-- The bytes of a last line without a newline. -/
def unfinished (bytes : List UInt8) : List UInt8 := bytes.rtakeWhile (· ≠ newline)

theorem finished_append_unfinished (bytes : List UInt8) :
    finished bytes ++ unfinished bytes = bytes :=
  List.rdropWhile_append_rtakeWhile

theorem notMem_unfinished (bytes : List UInt8) : newline ∉ unfinished bytes := by
  intro h
  simpa using List.mem_rtakeWhile_imp h

theorem finished_ends (bytes : List UInt8) :
    finished bytes = [] ∨ (finished bytes).getLast? = some newline := by
  by_cases h : finished bytes = []
  · exact .inl h
  · have hlast := List.rdropWhile_last_not _ _ h
    rw [decide_eq_true_eq, not_not] at hlast
    exact .inr (by rw [List.getLast?_eq_some_getLast h, ← hlast]; rfl)

theorem texts_unfinished (max : UInt64) (bytes : List UInt8) :
    texts max .complete (unfinished bytes) = (frameText? max (unfinished bytes)).toList := by
  by_cases h : unfinished bytes = []
  · rw [h]
    by_cases hmax : (told []).length ≤ max.toNat
    · rw [frameText?, if_pos hmax]
      rfl
    · rw [frameText?, if_neg hmax]
      rfl
  · rw [texts_unterminated (notMem_unfinished bytes) h]
    rfl

theorem texts_eq_append (max : UInt64) (bytes : List UInt8) :
    texts max .complete bytes =
      texts max .complete (finished bytes) ++ (frameText? max (unfinished bytes)).toList := by
  rw [← texts_unfinished, ← texts_append (finished_ends bytes), finished_append_unfinished]

theorem texts_newline (max : UInt64) (bytes : List UInt8) :
    texts max .complete (bytes ++ [newline]) =
      texts max .complete (finished bytes) ++
        (frameText? max (unfinished bytes ++ [newline])).toList := by
  have hbytes : bytes ++ [newline] = finished bytes ++ (unfinished bytes ++ newline :: []) := by
    rw [← List.append_assoc, finished_append_unfinished]
  rw [hbytes, texts_append (finished_ends bytes), texts_terminated (notMem_unfinished bytes)]
  simp [texts, lines]

end ByteStream

open ByteStream

/--
A newline after the last line takes nothing from the frames, but for a last line that has as many
bytes as a frame may have: the newline makes it too long.
-/
theorem LineFeed.frames_newline (max : UInt64) {cut whole : List (List UInt8)}
    (h : whole.flatten = cut.flatten ++ [newline]) :
    let begun := Frame.opened :: (texts max .complete (finished cut.flatten)).map .text
    let last := (frameText? max (unfinished cut.flatten)).toList.map Frame.text
    let full := (unfinished cut.flatten).length = max.toNat ∧ max.toNat ≠ UInt64.size - 1
    (Source.lines { maxFrameBytes := max, stream := { chunks := cut } }).frames =
        begun ++ last ++ [.closed "end of stream"] ∧
      (Source.lines { maxFrameBytes := max, stream := { chunks := whole } }).frames =
        begun ++ (if full then [] else last) ++ [.closed "end of stream"] := by
  intro begun last full
  have hcut := (gives max { chunks := cut }).frames_eq
  have hwhole := (gives max { chunks := whole }).frames_eq
  rw [hcut, hwhole]
  constructor
  · rw [framesOf, bytes, texts_eq_append, List.map_append]
    rfl
  · have hfull : (frameText? max (unfinished cut.flatten ++ [newline])).toList.map Frame.text =
        if full then [] else last := by
      rw [frameText?_newline]
      split <;> rfl
    rw [framesOf, bytes, h, texts_newline, List.map_append, hfull]
    rfl

theorem ByteStream.frameText?_braces {max : UInt64} (h : 2 ≤ max.toNat) :
    frameText? max [123, 125] = some "{}" := by
  have hfits := frameText?_of_fits [123, 125] (by decide) max
  have htext : text? [123, 125] = some "{}" := text?_encoded ['{', '}']
  rw [hfits, htext]
  exact if_pos h

theorem LineFeed.frames_newline_braces :
    [[123, 125], [10]].flatten = [[123], [125]].flatten ++ [newline] ∧
      (Source.lines { maxFrameBytes := 3, stream := { chunks := [[123], [125]] } }).frames =
        [.opened, .text "{}", .closed "end of stream"] ∧
      (Source.lines { maxFrameBytes := 3, stream := { chunks := [[123, 125], [10]] } }).frames =
        [.opened, .text "{}", .closed "end of stream"] := by
  have hframes := @frames_newline 3 [[123], [125]] [[123, 125], [10]] rfl
  have hlast : frameText? 3 (unfinished [[123], [125]].flatten) = some "{}" :=
    frameText?_braces (by decide)
  rw [hlast] at hframes
  exact ⟨rfl, hframes⟩

/-- A line with as many bytes as a frame may have is a text only if it ends with the stream. -/
theorem LineFeed.frames_ne_of_full_line :
    (Source.lines { maxFrameBytes := 2, stream := { chunks := [[123, 125]] } }).frames =
        [.opened, .text "{}", .closed "end of stream"] ∧
      (Source.lines { maxFrameBytes := 2, stream := { chunks := [[123, 125, 10]] } }).frames =
        [.opened, .closed "end of stream"] := by
  have hcut : texts 2 .complete [123, 125] = ["{}"] := by
    rw [texts_unterminated (by decide) (by decide), frameText?_braces (by decide)]
    rfl
  have hwhole : texts 2 .complete [123, 125, 10] = [] := rfl
  have hframes := fun chunks => (gives 2 { chunks := chunks }).frames_eq
  rw [hframes, hframes, framesOf, framesOf]
  simp only [bytes, List.flatten_singleton, hcut, hwhole]
  exact ⟨rfl, rfl⟩

end LiveFeed
