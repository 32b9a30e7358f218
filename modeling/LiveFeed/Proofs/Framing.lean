import LiveFeed.Source
import LiveFeed.Proofs.Lines
import LiveFeed.Proofs.Trimming

namespace LiveFeed

namespace Source

/-- The source after some calls of `next`. -/
def after (s : Source) : Nat → Source
  | 0 => s
  | n + 1 => s.next.2.after n

/-- What the call of `next` after some others gives. -/
def answer (s : Source) (n : Nat) : Option Frame := (s.after n).next.1

/-- The source gives some frames one by one, and then no more. -/
inductive Gives : Source → List Frame → Prop where
  | ended {s : Source} (h : s.next = (none, s)) : Gives s []
  | more {s t : Source} {frame : Frame} {frames : List Frame} (h : s.next = (some frame, t))
      (hrest : Gives t frames) : Gives s (frame :: frames)

theorem after_of_ended {s : Source} (h : s.next = (none, s)) (n : Nat) : s.after n = s := by
  induction n with
  | zero => rfl
  | succ n ih => rw [after, h, ih]

theorem Gives.answer_eq {s : Source} {frames : List Frame} (h : s.Gives frames) (n : Nat) :
    s.answer n = frames[n]? := by
  induction h generalizing n with
  | ended h => rw [answer, after_of_ended h, h, List.getElem?_nil]
  | more h _ ih =>
    cases n with
    | zero => rw [answer, after, h, List.getElem?_cons_zero]
    | succ n => rw [answer, after, h, List.getElem?_cons_succ, ← ih, answer]

theorem Gives.frames_eq {s : Source} {frames : List Frame} (h : s.Gives frames) :
    s.frames = frames := by
  induction h with
  | ended h =>
    rw [Source.frames, drain]
    split
    next => rfl
    next he => simp [h] at he
  | more h _ ih =>
    rw [Source.frames, drain]
    split
    next he => simp [h] at he
    next he =>
      rw [h] at he
      obtain ⟨rfl, rfl⟩ := he
      simpa [Source.frames] using ih

end Source

open ByteStream

/-- The trimmed text of a line, if it is one and not blank. -/
def ByteStream.text? (line : List UInt8) : Option String :=
  match String.fromUTF8? ⟨line.toArray⟩ with
  | none => none
  | some text =>
    match Text.trim text.toList with
    | [] => none
    | cs => some (String.ofList cs)

/-- A line that is written in UTF-8 has a text, the blanks at its ends left off, if any is left. -/
def ByteStream.HasText (line : List UInt8) (text : String) : Prop :=
  ∃ cs : List Char, cs.flatMap String.utf8EncodeChar = line ∧ Text.IsCore cs text.toList ∧
    text.toList ≠ []

/-- As much of a line as a count of 64 bits can tell: all of it, unless no memory could hold it. -/
def ByteStream.told (line : List UInt8) : List UInt8 := line.take (UInt64.size - 1)

/-- The text of a line that is no longer than a frame may be. -/
def ByteStream.frameText? (max : UInt64) (line : List UInt8) : Option String :=
  if (told line).length ≤ max.toNat then text? (told line) else none

namespace Ending

/-- The frame that tells of the end. -/
def frame : Ending → Frame
  | complete => .closed "end of stream"
  | failure error => .failed error

/-- A line that a failing read cut off is lost. -/
def counts : Ending → List UInt8 → Bool
  | complete, _ => true
  | failure _, line => line.contains newline

end Ending

namespace ByteStream

section Text

variable {line : List UInt8} {text : String}

theorem toByteArray_eq (line : List UInt8) : (⟨line.toArray⟩ : ByteArray) = line.toByteArray :=
  ByteArray.ext List.data_toByteArray.symm

theorem text?_encoded (cs : List Char) :
    text? (cs.flatMap String.utf8EncodeChar) =
      match Text.trim cs with
      | [] => none
      | trimmed => some (String.ofList trimmed) := by
  have hvalid : (cs.flatMap String.utf8EncodeChar).toByteArray.IsValidUTF8 := ⟨cs, rfl⟩
  have htext : String.fromUTF8 _ hvalid = String.ofList cs := rfl
  rw [text?, toByteArray_eq, String.fromUTF8?, dif_pos hvalid, htext]
  have htrim : Text.trim (String.ofList cs).toList = Text.trim cs := by
    rw [String.toList_ofList]
  cases hcs : Text.trim cs with
  | nil => simp only [htrim, hcs]
  | cons c more => simp only [htrim, hcs]

theorem text?_of_broken {line : List UInt8}
    (h : ∀ cs : List Char, cs.flatMap String.utf8EncodeChar ≠ line) : text? line = none := by
  have hinvalid : ¬ line.toByteArray.IsValidUTF8 := by
    rintro ⟨cs, hcs⟩
    exact h cs (List.toByteArray_inj.mp hcs).symm
  rw [text?, toByteArray_eq, String.fromUTF8?, dif_neg hinvalid]

theorem text?_eq_some_iff : text? line = some text ↔ HasText line text := by
  constructor
  · intro h
    by_cases hline : ∃ cs : List Char, cs.flatMap String.utf8EncodeChar = line
    · obtain ⟨cs, rfl⟩ := hline
      rw [text?_encoded] at h
      split at h
      next => cases h
      next hne =>
        cases h
        exact ⟨cs, rfl, Text.isCore_iff.mpr (String.toList_ofList).symm, by simpa using hne⟩
    · rw [text?_of_broken (not_exists.mp hline)] at h
      cases h
  · rintro ⟨cs, rfl, hcore, hne⟩
    rw [text?_encoded, Text.isCore_iff.mp hcore]
    split
    next hnil => exact absurd hnil hne
    next => rw [String.ofList_toList]

end Text

/-- The texts that the lines of some bytes have. -/
def texts (max : UInt64) (ending : Ending) (bytes : List UInt8) : List String :=
  ((lines bytes).filter ending.counts).filterMap (frameText? max)

/-- All frames of a stream that has one event on each line. -/
def framesOf (max : UInt64) (s : ByteStream) : List Frame :=
  .opened :: (texts max s.ending s.bytes).map .text ++ [s.ending.frame]

theorem frameText?_of_fits (line : List UInt8) (h : line.length < UInt64.size) (max : UInt64) :
    frameText? max line = if line.length ≤ max.toNat then text? line else none := by
  have htold : told line = line := List.take_of_length_le (by omega)
  rw [frameText?, htold]

theorem texts_append {front : List UInt8} (h : front = [] ∨ front.getLast? = some newline)
    (max : UInt64) (ending : Ending) (back : List UInt8) :
    texts max ending (front ++ back) = texts max ending front ++ texts max ending back := by
  rw [texts, lines_append h, List.filter_append, List.filterMap_append, texts, texts]

theorem texts_terminated {line : List UInt8} (h : newline ∉ line) (max : UInt64) (ending : Ending)
    (rest : List UInt8) :
    texts max ending (line ++ newline :: rest) =
      (frameText? max (line ++ [newline])).toList ++ texts max ending rest := by
  have hcounts : ending.counts (line ++ [newline]) = true := by
    cases ending <;> simp [Ending.counts]
  rw [texts, lines_terminated h, List.filter_cons_of_pos hcounts, List.filterMap_cons, texts]
  cases frameText? max (line ++ [newline]) <;> rfl

theorem texts_unterminated {line : List UInt8} (h : newline ∉ line) (hline : line ≠ [])
    (max : UInt64) (ending : Ending) :
    texts max ending line = if ending.counts line then (frameText? max line).toList else [] := by
  rw [texts, lines_unterminated h hline]
  by_cases hcounts : ending.counts line = true
  · rw [List.filter_cons_of_pos hcounts, if_pos hcounts, List.filterMap_cons]
    cases frameText? max line <;> rfl
  · rw [List.filter_cons_of_neg hcounts, if_neg hcounts]
    rfl

end ByteStream

namespace LineFeed

theorem limit_eq (max : UInt64) :
    limit max = max.toNat + 1 ∨ limit max = max.toNat ∧ max.toNat = UInt64.size - 1 := by
  have hmax := max.toNat_lt_size
  rw [limit]
  omega

/-- What is kept of a line tells its text. -/
theorem lineText?_take (max : UInt64) (line : List UInt8) :
    lineText? max (line.take (limit max)).toArray = frameText? max line := by
  have hmax := max.toNat_lt_size
  have hlimit := limit_eq max
  have htold : (told line).length = min (UInt64.size - 1) line.length := List.length_take
  have hkept : (line.take (limit max)).length = min (limit max) line.length := List.length_take
  by_cases hlong : (told line).length ≤ max.toNat
  · have he : line.take (limit max) = told line := by
      rw [told]
      by_cases hfull : max.toNat = UInt64.size - 1
      · have hsame : limit max = UInt64.size - 1 := by rw [limit]; omega
        rw [hsame]
      · have hfits : line.length ≤ max.toNat := by omega
        rw [List.take_of_length_le (by omega), List.take_of_length_le (by omega)]
    have hsize : ¬ max.toNat < (told line).toArray.size := by simpa using hlong
    rw [frameText?, if_pos hlong, he, lineText?, if_neg hsize]
    rfl
  · have hsize : max.toNat < (line.take (limit max)).toArray.size := by
      rw [List.size_toArray]
      omega
    rw [frameText?, if_neg hlong, lineText?, if_pos hsize]

section Deliver

variable {max : UInt64} {ending : Ending} {chunks : List (List UInt8)} {line : Line}

theorem deliver_of_failure {error : String} (h : readLine (limit max) #[] 0 chunks = line)
    (hcut : line.terminated = false) :
    deliver max (.failure error) chunks = .last (Ending.failure error).frame := by
  subst h
  rw [deliver.eq_1 _ _ _ hcut, Ending.frame]

theorem deliver_of_line (h : readLine (limit max) #[] 0 chunks = line)
    (hwhole : line.terminated = true ∨ ending = .complete) (hsome : line.consumed ≠ 0) :
    deliver max ending chunks =
      match lineText? max line.kept with
      | some text => .text text line.rest
      | none => deliver max ending line.rest := by
  subst h
  have hgoes : ∀ error, (readLine (limit max) #[] 0 chunks).terminated = false →
      ending = .failure error → False := by
    rintro error hcut rfl
    simp [hcut] at hwhole
  exact (deliver.eq_2 _ _ _ hgoes).trans (dif_neg hsome)

theorem deliver_of_end (h : readLine (limit max) #[] 0 chunks = line) (hnone : line.consumed = 0) :
    deliver max .complete chunks = .last Ending.complete.frame := by
  subst h
  rw [deliver.eq_2 _ _ _ (by simp), dif_pos hnone, Ending.frame]

end Deliver

theorem deliver_terminated (max : UInt64) (ending : Ending) {chunks : List (List UInt8)}
    {line rest : List UInt8} (hline : newline ∉ line)
    (h : chunks.flatten = line ++ newline :: rest) :
    ∃ left : List (List UInt8), left.flatten = rest ∧
      deliver max ending chunks =
        match frameText? max (line ++ [newline]) with
        | some text => .text text left
        | none => deliver max ending left := by
  obtain ⟨left, hleft, hread⟩ := readLine_terminated (limit max) [] 0 hline h
  refine ⟨left, hleft, ?_⟩
  rw [List.take_nil, List.nil_append] at hread
  rw [deliver_of_line hread (.inl rfl) (by simp), lineText?_take]

/-- What is left to deliver: the next text, or the last frame. -/
def Delivers (max : UInt64) (ending : Ending) : List String → Delivery → Prop
  | [], delivery => delivery = .last ending.frame
  | text :: more, delivery =>
    ∃ rest, delivery = .text text rest ∧ texts max ending rest.flatten = more

theorem delivers_unterminated (max : UInt64) (ending : Ending) {chunks : List (List UInt8)}
    (h : newline ∉ chunks.flatten) :
    Delivers max ending (texts max ending chunks.flatten) (deliver max ending chunks) := by
  have hread := readLine_unterminated (limit max) [] 0 h
  rw [List.take_nil, List.nil_append] at hread
  by_cases hend : chunks.flatten = []
  · rw [hend] at hread ⊢
    cases ending with
    | complete => exact deliver_of_end hread rfl
    | failure error => exact deliver_of_failure hread rfl
  · rw [texts_unterminated h hend]
    cases ending with
    | failure error =>
      have hlost : (Ending.failure error).counts chunks.flatten = false := by
        simpa [Ending.counts] using h
      rw [hlost]
      exact deliver_of_failure hread rfl
    | complete =>
      have hover : deliver max .complete [] = .last Ending.complete.frame := deliver_of_end rfl rfl
      have hsome : 0 + chunks.flatten.length ≠ 0 := by
        rw [Nat.zero_add]
        exact mt List.length_eq_zero_iff.mp hend
      rw [deliver_of_line hread (.inr rfl) hsome, lineText?_take, hover]
      cases frameText? max chunks.flatten with
      | none => rfl
      | some text => exact ⟨[], rfl, rfl⟩

/-- Deliveries are the texts of the lines, and then the last frame. -/
theorem delivers (max : UInt64) (ending : Ending) (chunks : List (List UInt8)) :
    Delivers max ending (texts max ending chunks.flatten) (deliver max ending chunks) := by
  -- a line that has no text is taken off the stream, so there is less to deliver from
  induction hn : size chunks using Nat.strongRecOn generalizing chunks with
  | ind n ih =>
    by_cases hnew : newline ∈ chunks.flatten
    · obtain ⟨line, rest, hbytes, hline⟩ := List.eq_append_cons_of_mem hnew
      obtain ⟨left, rfl, hdeliver⟩ := deliver_terminated max ending hline hbytes
      rw [hdeliver, hbytes, texts_terminated hline]
      cases frameText? max (line ++ [newline]) with
      | some text => exact ⟨left, rfl, rfl⟩
      | none =>
        have hless : size left < n := by
          rw [← hn, size, size, hbytes, List.length_append, List.length_cons]
          omega
        exact ih (size left) hless left rfl
    · exact delivers_unterminated max ending hnew

theorem next_of_last {f : LineFeed} {frame : Frame} (hout : f.exhausted = false)
    (hbegun : f.announced = true)
    (h : deliver f.maxFrameBytes f.stream.ending f.stream.chunks = .last frame) :
    (Source.lines f).next = (some frame, .lines { f with exhausted := true }) := by
  simp [Source.next, next, hout, hbegun, h]

theorem next_of_text {f : LineFeed} {text : String} {rest : List (List UInt8)}
    (hout : f.exhausted = false) (hbegun : f.announced = true)
    (h : deliver f.maxFrameBytes f.stream.ending f.stream.chunks = .text text rest) :
    (Source.lines f).next =
      (some (.text text), .lines { f with stream := { f.stream with chunks := rest } }) := by
  simp [Source.next, next, hout, hbegun, h]

/-- Once the connection is announced there are the texts and the end. -/
theorem gives_announced {f : LineFeed} (hout : f.exhausted = false) (hbegun : f.announced = true) :
    (Source.lines f).Gives
      ((texts f.maxFrameBytes f.stream.ending f.stream.bytes).map .text
        ++ [f.stream.ending.frame]) := by
  have hdelivers := delivers f.maxFrameBytes f.stream.ending f.stream.chunks
  rw [bytes]
  induction htexts : texts f.maxFrameBytes f.stream.ending f.stream.chunks.flatten
    generalizing f with
  | nil =>
    rw [htexts] at hdelivers
    exact .more (next_of_last hout hbegun hdelivers) (.ended rfl)
  | cons text more ih =>
    rw [htexts] at hdelivers
    obtain ⟨rest, hdeliver, hmore⟩ := hdelivers
    refine .more (next_of_text hout hbegun hdeliver) (ih hout hbegun ?_ hmore)
    exact delivers f.maxFrameBytes f.stream.ending rest

/-- A source of lines gives a frame for each line of the stream that holds a text. -/
theorem gives (max : UInt64) (stream : ByteStream) :
    (Source.lines { maxFrameBytes := max, stream }).Gives (framesOf max stream) :=
  .more rfl (gives_announced rfl rfl)

/--
The frames of a stream do not depend on the portions in which it is read. A text is that of a line
which is no longer than a frame may be, as far as the length of a line is a count.
-/
theorem framed (max : UInt64) (stream : ByteStream) :
    newline = 10 ∧
    (∀ n, (Source.lines { maxFrameBytes := max, stream }).answer n = (framesOf max stream)[n]?) ∧
    (Source.lines { maxFrameBytes := max, stream }).frames = framesOf max stream ∧
    (∀ line : List UInt8, line.length < UInt64.size →
      frameText? max line = if line.length ≤ max.toNat then text? line else none) ∧
    ∀ (line : List UInt8) (text : String), text? line = some text ↔ HasText line text := by
  have hgives := gives max stream
  exact ⟨rfl, hgives.answer_eq, hgives.frames_eq, fun line h => frameText?_of_fits line h max,
    fun _ _ => text?_eq_some_iff⟩

end LineFeed

end LiveFeed
