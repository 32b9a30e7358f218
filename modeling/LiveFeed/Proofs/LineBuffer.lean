import Mathlib.Algebra.Group.Nat.Defs
import Mathlib.Logic.Relation
import LiveFeed.Proofs.Framing

namespace LiveFeed

namespace Loop

variable {α β : Type}

/-- The states that a loop comes to; a turn of it gives the result or the next state. -/
def Reaches (turn : α → β ⊕ α) : α → α → Prop :=
  Relation.ReflTransGen fun a next => turn a = .inr next

/-- The loop ends, and with that result. -/
def Returns (turn : α → β ⊕ α) (a : α) (b : β) : Prop :=
  ∃ last, Reaches turn a last ∧ turn last = .inl b

variable {turn : α → β ⊕ α} {a next : α} {b : β}

theorem returns_of_inl (h : turn a = .inl b) : Returns turn a b := ⟨a, .refl, h⟩

theorem returns_of_inr (h : turn a = .inr next) (hnext : Returns turn next b) :
    Returns turn a b := by
  obtain ⟨last, hreaches, hlast⟩ := hnext
  exact ⟨last, .head h hreaches, hlast⟩

end Loop

open ByteStream

namespace ByteStream

/-- How far the reading of a line has got. -/
structure Progress where
  kept : Array UInt8 := #[]
  consumed : Nat := 0
  ahead : List (List UInt8)

namespace Progress

/-- Takes a chunk in, as far as the line goes. -/
def turn (limit : Nat) (p : Progress) : Line ⊕ Progress :=
  match p.ahead with
  | [] => .inl { kept := p.kept, consumed := p.consumed, terminated := false, rest := [] }
  | chunk :: chunks =>
    match chunk.dropWhile (· ≠ newline) with
    | [] => .inr ⟨keep limit p.kept chunk, p.consumed + chunk.length, chunks⟩
    | _ :: rest =>
      let line := chunk.takeWhile (· ≠ newline) ++ [newline]
      .inl {
        kept := keep limit p.kept line
        consumed := p.consumed + line.length
        terminated := true
        rest := rest :: chunks }

/-- A line is read turn by turn. -/
theorem returns_readLine (limit : Nat) (p : Progress) :
    Loop.Returns (turn limit) p (readLine limit p.kept p.consumed p.ahead) := by
  obtain ⟨kept, consumed, chunks⟩ := p
  induction chunks generalizing kept consumed with
  | nil => exact Loop.returns_of_inl rfl
  | cons chunk chunks ih =>
    dsimp only
    rw [readLine]
    cases hdrop : chunk.dropWhile (· ≠ newline) with
    | nil =>
      refine Loop.returns_of_inr ?_ (ih (keep limit kept chunk) (consumed + chunk.length))
      simp only [turn, hdrop]
    | cons b rest =>
      refine Loop.returns_of_inl ?_
      simp only [turn, hdrop]

/-- What holds between two turns, when these bytes of a line have been read. -/
structure Holds (limit : Nat) (bytes read : List UInt8) (p : Progress) : Prop where
  notMem : newline ∉ read
  whole : read ++ p.ahead.flatten = bytes
  kept_eq : p.kept = (read.take limit).toArray
  consumed_eq : p.consumed = read.length

theorem holds_start (limit : Nat) (chunks : List (List UInt8)) :
    Holds limit chunks.flatten [] { ahead := chunks } where
  notMem := List.not_mem_nil
  whole := rfl
  kept_eq := by rw [List.take_nil]
  consumed_eq := rfl

theorem Holds.turn {limit : Nat} {bytes read : List UInt8} {p next : Progress}
    (h : Holds limit bytes read p) (hturn : p.turn limit = .inr next) :
    ∃ chunk, Holds limit bytes (read ++ chunk) next := by
  unfold Progress.turn at hturn
  split at hturn
  next => cases hturn
  next chunk chunks hahead =>
    split at hturn
    next hdrop =>
      cases hturn
      refine ⟨chunk, ?_, ?_, ?_, ?_⟩
      · have hchunk : newline ∉ chunk := fun hmem => by
          simpa using List.dropWhile_eq_nil_iff.mp hdrop newline hmem
        simp [h.notMem, hchunk]
      · rw [← h.whole, hahead, List.flatten_cons, List.append_assoc]
      · rw [h.kept_eq, keep_take]
      · rw [h.consumed_eq, List.length_append]
    next => cases hturn

theorem exists_holds {limit : Nat} {chunks : List (List UInt8)} {p : Progress}
    (h : Loop.Reaches (turn limit) { ahead := chunks } p) :
    ∃ read, Holds limit chunks.flatten read p := by
  induction h with
  | refl => exact ⟨[], holds_start limit chunks⟩
  | tail _ hturn ih =>
    obtain ⟨read, hread⟩ := ih
    obtain ⟨chunk, hnext⟩ := hread.turn hturn
    exact ⟨read ++ chunk, hnext⟩

end Progress

/-- The bytes up to and with the first newline, or all of them if there is none. -/
structure FirstLine (bytes line rest : List UInt8) : Prop where
  whole : line ++ rest = bytes
  ends : (∃ front, newline ∉ front ∧ line = front ++ [newline]) ∨ newline ∉ line ∧ rest = []

theorem FirstLine.eq_nil_iff {bytes line rest : List UInt8} (h : FirstLine bytes line rest) :
    line = [] ↔ bytes = [] := by
  rw [← h.whole, List.append_eq_nil_iff]
  constructor
  · intro hline
    refine ⟨hline, ?_⟩
    rcases h.ends with ⟨front, -, hfront⟩ | ⟨-, hrest⟩
    · simp [hfront] at hline
    · exact hrest
  · exact And.left

/-- What has been read without a newline is the beginning of the first line. -/
theorem FirstLine.exists_append {bytes line rest read back : List UInt8}
    (h : FirstLine bytes line rest) (hread : newline ∉ read) (hwhole : read ++ back = bytes) :
    ∃ more, line = read ++ more ∧ back = more ++ rest := by
  have hbytes := hwhole.trans h.whole.symm
  rcases h.ends with ⟨front, hfront, rfl⟩ | ⟨hline, rfl⟩
  · rw [List.append_assoc, List.singleton_append] at hbytes
    obtain ⟨more, rfl, rfl⟩ := exists_append_of_notMem hread hbytes
    exact ⟨more ++ [newline], by simp, by simp⟩
  · rw [List.append_nil] at hbytes
    exact ⟨back, hbytes.symm, by simp⟩

/-- Reading takes the first line off, and keeps no more of it than it may. -/
theorem exists_readLine (limit : Nat) (chunks : List (List UInt8)) :
    ∃ line left, FirstLine chunks.flatten line left.flatten ∧
      readLine limit #[] 0 chunks =
        { kept := (line.take limit).toArray
          consumed := line.length
          terminated := decide (newline ∈ line)
          rest := left } := by
  by_cases h : newline ∈ chunks.flatten
  · obtain ⟨front, rest, hbytes, hfront⟩ := List.eq_append_cons_of_mem h
    obtain ⟨left, rfl, hread⟩ := readLine_terminated limit [] 0 hfront hbytes
    rw [List.take_nil, List.nil_append, Nat.zero_add] at hread
    refine ⟨front ++ [newline], left, ⟨?_, .inl ⟨front, hfront, rfl⟩⟩, ?_⟩
    · rw [hbytes, List.append_assoc, List.singleton_append]
    · rw [hread, decide_eq_true (by simp)]
  · have hread := readLine_unterminated limit [] 0 h
    rw [List.take_nil, List.nil_append, Nat.zero_add] at hread
    refine ⟨chunks.flatten, [], ⟨by simp, .inr ⟨h, rfl⟩⟩, ?_⟩
    rw [hread, decide_eq_false h]

end ByteStream

namespace LineFeed

/-- What reading a line keeps and takes off a stream, while it goes on and when it is done. -/
structure Buffered (limit : Nat) (chunks : List (List UInt8)) (line rest : List UInt8) : Prop where
  first : FirstLine chunks.flatten line rest
  during : ∀ p : Progress, Loop.Reaches (Progress.turn limit) { ahead := chunks } p →
    p.consumed ≤ line.length ∧ p.kept.toList = line.take (min p.consumed limit) ∧
      p.ahead.flatten = line.drop p.consumed ++ rest
  returns : Loop.Returns (Progress.turn limit) { ahead := chunks } (readLine limit #[] 0 chunks)
  kept_eq : (readLine limit #[] 0 chunks).kept.toList = line.take limit
  consumed_eq : (readLine limit #[] 0 chunks).consumed = line.length
  terminated_eq : (readLine limit #[] 0 chunks).terminated = decide (newline ∈ line)
  rest_eq : (readLine limit #[] 0 chunks).rest.flatten = rest
  consumed_eq_zero : (readLine limit #[] 0 chunks).consumed = 0 ↔ chunks.flatten = []

theorem during_of_holds {limit : Nat} {bytes line rest read : List UInt8} {p : Progress}
    (hfirst : FirstLine bytes line rest) (h : p.Holds limit bytes read) :
    p.consumed ≤ line.length ∧ p.kept.toList = line.take (min p.consumed limit) ∧
      p.ahead.flatten = line.drop p.consumed ++ rest := by
  obtain ⟨more, rfl, hahead⟩ := hfirst.exists_append h.notMem h.whole
  rw [h.consumed_eq, h.kept_eq, hahead]
  refine ⟨by simp, ?_, by simp⟩
  rw [Nat.min_comm, ← List.take_take, List.take_left]

theorem exists_buffered (limit : Nat) (chunks : List (List UInt8)) :
    ∃ line rest, Buffered limit chunks line rest := by
  obtain ⟨line, left, hfirst, hread⟩ := exists_readLine limit chunks
  refine ⟨line, left.flatten, ?_⟩
  constructor
  case first => exact hfirst
  case during =>
    intro p hreaches
    obtain ⟨read, hread⟩ := Progress.exists_holds hreaches
    exact during_of_holds hfirst hread
  case returns => exact Progress.returns_readLine limit { ahead := chunks }
  case kept_eq => rw [hread]
  case consumed_eq => rw [hread]
  case terminated_eq => rw [hread]
  case rest_eq => rw [hread]
  case consumed_eq_zero => rw [hread, List.length_eq_zero_iff, hfirst.eq_nil_iff]

/-- One turn of a delivery: a frame is out, or a line has been skipped and the rest is left. -/
def turn (max : UInt64) (ending : Ending) (chunks : List (List UInt8)) :
    Delivery ⊕ List (List UInt8) :=
  let line := readLine (limit max) #[] 0 chunks
  match line.terminated, ending with
  | false, .failure error => .inl (.last (.failed error))
  | _, _ =>
    if line.consumed = 0 then .inl (.last (.closed "end of stream"))
    else
      match lineText? max line.kept with
      | some text => .inl (.text text line.rest)
      | none => .inr line.rest

/-- What is skipped is the first line, and that is not empty. -/
theorem firstLine_of_turn {max : UInt64} {ending : Ending} {chunks left : List (List UInt8)}
    (h : turn max ending chunks = .inr left) :
    ∃ line, line ≠ [] ∧ FirstLine chunks.flatten line left.flatten := by
  obtain ⟨line, rest, hfirst, hread⟩ := exists_readLine (limit max) chunks
  unfold turn at h
  rw [hread] at h
  dsimp only at h
  -- a failed read, the end of the stream and a text end the loop; what is left is the skipped line
  split at h
  next => cases h
  next =>
    split at h
    next => cases h
    next hsome =>
      split at h
      next => cases h
      next =>
        cases h
        exact ⟨line, mt List.length_eq_zero_iff.mpr hsome, hfirst⟩

theorem size_lt_of_turn {max : UInt64} {ending : Ending} {chunks left : List (List UInt8)}
    (h : turn max ending chunks = .inr left) : size left < size chunks := by
  obtain ⟨line, hline, hfirst⟩ := firstLine_of_turn h
  have hpos := List.length_pos_iff.mpr hline
  rw [size, size, ← hfirst.whole, List.length_append]
  omega

theorem wellFounded_turn (max : UInt64) (ending : Ending) :
    WellFounded fun left chunks => turn max ending chunks = .inr left :=
  Subrelation.wf size_lt_of_turn (measure size).wf

theorem returns_deliver (max : UInt64) (ending : Ending) (chunks : List (List UInt8)) :
    Loop.Returns (turn max ending) chunks (deliver max ending chunks) := by
  fun_induction deliver max ending chunks with
  | case1 chunks line error hfailure hcut =>
    subst hfailure
    refine Loop.returns_of_inl ?_
    rw [turn.eq_1 _ _ _ hcut]
  | case2 chunks line hnone hgoes =>
    refine Loop.returns_of_inl ?_
    rw [turn.eq_2 _ _ _ hgoes, if_pos hnone]
  | case3 chunks line hsome _ text htext hgoes =>
    refine Loop.returns_of_inl ?_
    rw [turn.eq_2 _ _ _ hgoes, if_neg hsome, htext]
  | case4 chunks line hsome _ hskip hgoes ih =>
    refine Loop.returns_of_inr ?_ ih
    rw [turn.eq_2 _ _ _ hgoes, if_neg hsome, hskip]

/--
While a line is read, its first bytes are kept: at most one more than a frame may have, and no more
than a count of 64 bits can tell. In the end the line is off the stream and no byte behind it. So a
stream has fewer bytes after each line that is skipped, and lines are skipped only until there is a
frame.
-/
theorem buffered (max : UInt64) (chunks : List (List UInt8)) :
    newline = 10 ∧ limit max = min (max.toNat + 1) (2 ^ 64 - 1) ∧
      (∃ line rest, Buffered (min (max.toNat + 1) (2 ^ 64 - 1)) chunks line rest) ∧
      ∀ ending,
        (WellFounded fun left chunks => turn max ending chunks = .inr left) ∧
        (∀ left, turn max ending chunks = .inr left →
          left.flatten.length < chunks.flatten.length ∧
            ∃ line, FirstLine chunks.flatten line left.flatten) ∧
        Loop.Returns (turn max ending) chunks (deliver max ending chunks) := by
  refine ⟨rfl, rfl, exists_buffered _ chunks, fun ending => ⟨?_, ?_, ?_⟩⟩
  · exact wellFounded_turn max ending
  · intro left h
    obtain ⟨line, -, hfirst⟩ := firstLine_of_turn h
    exact ⟨size_lt_of_turn h, line, hfirst⟩
  · exact returns_deliver max ending chunks

end LineFeed

end LiveFeed
