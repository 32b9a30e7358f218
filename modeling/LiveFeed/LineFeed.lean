import LiveFeed.Frame
import LiveFeed.Text.Blank

namespace LiveFeed

/-- How a stream of bytes comes to its end. -/
inductive Ending where
  | complete
  | failure (error : String)
  deriving DecidableEq, Repr

/-- The bytes of a stream in the portions in which they are read. -/
structure ByteStream where
  chunks : List (List UInt8)
  ending : Ending := .complete
  deriving DecidableEq, Repr

namespace ByteStream

def bytes (s : ByteStream) : List UInt8 := s.chunks.flatten

def size (chunks : List (List UInt8)) : Nat := chunks.flatten.length

def newline : UInt8 := 10

/-- What reading a line takes off a stream. -/
structure Line where
  /-- The first bytes of the line, as many as may be kept. -/
  kept : Array UInt8
  /-- All bytes of the line, the newline included. -/
  consumed : Nat
  /-- Whether a newline ended the line, and not the stream. -/
  terminated : Bool
  rest : List (List UInt8)
  deriving DecidableEq, Repr

/-- As much of some bytes as there is room for under a limit. -/
def keep (limit : Nat) (kept : Array UInt8) (bytes : List UInt8) : Array UInt8 :=
  kept ++ bytes.take (limit - kept.size)

/--
Reads up to and with the next newline and keeps no more than `limit` bytes of it, of which `kept`
are there already.
-/
def readLine (limit : Nat) (kept : Array UInt8) (consumed : Nat) : List (List UInt8) → Line
  | [] => { kept, consumed, terminated := false, rest := [] }
  | chunk :: chunks =>
    match chunk.dropWhile (· ≠ newline) with
    | [] => readLine limit (keep limit kept chunk) (consumed + chunk.length) chunks
    | _ :: rest =>
      let line := chunk.takeWhile (· ≠ newline) ++ [newline]
      { kept := keep limit kept line
        consumed := consumed + line.length
        terminated := true
        rest := rest :: chunks }

/-- Reading a line loses no byte. -/
theorem consumed_add_size_rest (limit : Nat) (kept : Array UInt8) (consumed : Nat)
    (chunks : List (List UInt8)) :
    (readLine limit kept consumed chunks).consumed + size (readLine limit kept consumed chunks).rest
      = consumed + size chunks := by
  induction chunks generalizing kept consumed with
  | nil => rfl
  | cons chunk chunks ih =>
    have hc := congrArg List.length
      (List.takeWhile_append_dropWhile (p := (· ≠ newline)) (l := chunk))
    simp only [readLine]
    split
    next h => rw [ih]; simp [size]; omega
    next _ rest h =>
      rw [h] at hc
      simp only [List.length_append, List.length_cons] at hc
      simp [size]
      simp at hc
      omega

end ByteStream

/-- What comes next on a stream of lines. -/
inductive Delivery where
  | text (text : String) (rest : List (List UInt8))
  /-- The frame with which the stream is over. -/
  | last (frame : Frame)

/-- Frames read from a stream that has one event on each line. -/
structure LineFeed where
  maxFrameBytes : UInt64
  stream : ByteStream
  /-- Whether the connection has been announced. -/
  announced : Bool := false
  /-- Whether the last frame is out. -/
  exhausted : Bool := false
  deriving DecidableEq, Repr

namespace LineFeed

open ByteStream

/-- The most bytes of a line that are kept: one more than a frame may have. -/
def limit (maxFrameBytes : UInt64) : Nat := min (maxFrameBytes.toNat + 1) (UInt64.size - 1)

/-- The text of a line that is neither too long nor broken nor blank. -/
def lineText? (maxFrameBytes : UInt64) (line : Array UInt8) : Option String :=
  if maxFrameBytes.toNat < line.size then none
  else
    match String.fromUTF8? ⟨line⟩ with
    | none => none
    | some text =>
      match Text.trim text.toList with
      | [] => none
      | cs => some (String.ofList cs)

/-- Reads lines until one has a text or the stream is over. -/
def deliver (maxFrameBytes : UInt64) (ending : Ending) (chunks : List (List UInt8)) : Delivery :=
  let line := readLine (limit maxFrameBytes) #[] 0 chunks
  match line.terminated, ending with
  | false, .failure error => .last (.failed error)
  | _, _ =>
    if h : line.consumed = 0 then .last (.closed "end of stream")
    else
      have : size line.rest < size chunks := by
        have := consumed_add_size_rest (limit maxFrameBytes) #[] 0 chunks
        simp only [line] at h ⊢
        omega
      match lineText? maxFrameBytes line.kept with
      | some text => .text text line.rest
      | none => deliver maxFrameBytes ending line.rest
termination_by size chunks

/-- The next frame, or `none` when all are out. -/
def next (f : LineFeed) : Option Frame × LineFeed :=
  if f.exhausted then (none, f)
  else if !f.announced then (some .opened, { f with announced := true })
  else
    match deliver f.maxFrameBytes f.stream.ending f.stream.chunks with
    | .text text rest => (some (.text text), { f with stream := { f.stream with chunks := rest } })
    | .last frame => (some frame, { f with exhausted := true })

/-- A text leaves less of the stream than there was. -/
theorem size_lt_of_deliver {maxFrameBytes : UInt64} {ending : Ending}
    {chunks rest : List (List UInt8)} {text : String}
    (h : deliver maxFrameBytes ending chunks = .text text rest) : size rest < size chunks := by
  fun_induction deliver maxFrameBytes ending chunks with
  | case1 => simp at h
  | case2 => simp at h
  | case3 chunks line _ _ hlt _ =>
    simp only [Delivery.text.injEq] at h
    rwa [← h.2]
  | case4 _ _ _ hlt _ _ ih => exact Nat.lt_trans (ih h) hlt

/-- More than the number of frames that are still to come. -/
def budget (f : LineFeed) : Nat :=
  if f.exhausted then 0 else size f.stream.chunks + 1 + (if f.announced then 0 else 1)

theorem budget_next_lt {f g : LineFeed} {frame : Frame} (h : f.next = (some frame, g)) :
    g.budget < f.budget := by
  unfold next at h
  split at h
  · simp at h
  next ho =>
    split at h
    next ha =>
      cases h
      simp at ha ho
      simp [budget, ha, ho]
    next ha =>
      simp at ha ho
      split at h
      next hd =>
        cases h
        have := size_lt_of_deliver hd
        simp [budget, ha, ho, this]
      next =>
        cases h
        simp only [budget, ho, if_true, Bool.false_eq_true, if_false]
        omega

end LineFeed

end LiveFeed
