import LiveFeed.Proofs.WrittenScalars
import Mathlib.Data.List.Forall2

namespace LiveFeed.Json

/-- A text is read as a value wherever a value may end, if so many levels are left to nest. -/
def Reads (height : Nat) (text : List Char) (v : Value) : Prop :=
  ∀ (bound depth : Nat) (rest : Text), text.length ≤ bound → height ≤ depth → Apart rest →
    value bound depth (text ++ rest) = .ok (v, rest)

/-- A scalar is a value at every depth. -/
theorem value_of_scalar {cs rest : Text} {v : Value} (h : glimpse cs = .ok (.scalar v, rest))
    (bound depth : Nat) : value bound depth cs = .ok (v, rest) := by
  cases depth <;>
  · rw [value, h]
    rfl

theorem writeString_append (name : String) (cs : Text) :
    writeString name ++ cs = '"' :: (name.toList.flatMap writeChar ++ '"' :: cs) := by
  simp [writeString]

theorem nextKey_first (name : String) (cs : Text) :
    nextKey true (writeString name ++ cs) = .ok (some (name, cs)) := by
  rw [writeString_append, nextKey, skipSpace_cons (by decide)]
  simp [string_write, Functor.map, Except.map]

theorem nextKey_comma (name : String) (cs : Text) :
    nextKey false (',' :: (writeString name ++ cs)) = .ok (some (name, cs)) := by
  rw [writeString_append, nextKey, skipSpace_cons (by decide)]
  simp [skipSpace_cons (c := '"') (by decide), string_write, Functor.map, Except.map]

/-- The steps of a reader over members whose values are written as some texts. -/
inductive Accepts {σ : Type} (member : σ → String → Reader σ) :
    σ → List (String × List Char) → σ → Prop where
  | nil {s : σ} : Accepts member s [] s
  | cons {s t u : σ} {name : String} {text : List Char} {items : List (String × List Char)}
      (h : ∀ rest, Apart rest → member s name (':' :: (text ++ rest)) = .ok (t, rest))
      (hrest : Accepts member t items u) : Accepts member s ((name, text) :: items) u

/-- What stands behind a member: the other members, each with its comma, and the brace. -/
def memberTail (rest : Text) : List (String × List Char) → Text
  | [] => '}' :: rest
  | (name, text) :: items => ',' :: (writeMember name text ++ memberTail rest items)

theorem apart_memberTail (rest : Text) (items : List (String × List Char)) :
    Apart (memberTail rest items) := by
  cases items with
  | nil => exact apart_brace rest
  | cons item items => exact apart_comma _

/-- The members of an object, each written with its name. -/
def writeItems (items : List (String × List Char)) : List (List Char) :=
  items.map fun item => writeMember item.1 item.2

theorem writeList_memberTail (rest : Text) (name : String) (text : List Char)
    (items : List (String × List Char)) :
    writeList (writeItems ((name, text) :: items)) ++ '}' :: rest =
      writeMember name text ++ memberTail rest items := by
  induction items generalizing name text with
  | nil => rfl
  | cons item items ih =>
    obtain ⟨next, more⟩ := item
    have htail := ih next more
    change writeMember name text ++ ',' :: writeList (writeItems ((next, more) :: items)) ++
      '}' :: rest = _
    rw [List.append_assoc, List.cons_append, htail, memberTail]

section Members

variable {σ : Type} {member : σ → String → Reader σ} {s t : σ} {items : List (String × List Char)}

theorem members_tail (h : Accepts member s items t) {bound : Nat} (hbound : items.length < bound)
    (rest : Text) : members member bound false s (memberTail rest items) = .ok (t, rest) := by
  induction h generalizing bound with
  | nil =>
    obtain ⟨room, rfl⟩ : ∃ n, bound = n + 1 := ⟨bound - 1, by omega⟩
    rfl
  | @cons s t u name text items h hrest ih =>
    obtain ⟨room, rfl⟩ : ∃ n, bound = n + 1 := ⟨bound - 1, by omega⟩
    have hmember := h (memberTail rest items) (apart_memberTail rest items)
    have htail := ih (Nat.lt_of_succ_lt_succ hbound)
    rw [members, memberTail, writeMember, List.append_assoc, nextKey_comma]
    simp only [bind, Except.bind, List.cons_append, hmember, htail]

/-- All members of an object are read as they are written. -/
theorem members_write (h : Accepts member s items t) {bound : Nat} (hbound : items.length < bound)
    (rest : Text) :
    members member bound true s (writeList (writeItems items) ++ '}' :: rest) = .ok (t, rest) := by
  obtain ⟨room, rfl⟩ : ∃ n, bound = n + 1 := ⟨bound - 1, by omega⟩
  cases h with
  | nil => rfl
  | @cons s t u name text items h hrest =>
    have hmember := h (memberTail rest items) (apart_memberTail rest items)
    have htail := members_tail hrest (Nat.lt_of_succ_lt_succ hbound) rest
    rw [writeList_memberTail, members, writeMember, List.append_assoc, nextKey_first]
    simp only [bind, Except.bind, List.cons_append, hmember, htail]

end Members

theorem length_memberTail_le (items : List (String × List Char)) :
    (memberTail [] items).length ≤ (writeObject (writeItems items)).length := by
  cases items with
  | nil => decide
  | cons item items =>
    obtain ⟨name, text⟩ := item
    have htext : (memberTail [] ((name, text) :: items)).length =
        (writeObject (writeItems ((name, text) :: items))).length := by
      rw [writeObject, List.cons_append, writeList_memberTail, memberTail, List.length_cons,
        List.length_cons]
    exact Nat.le_of_eq htext

theorem length_lt_memberTail (items : List (String × List Char)) :
    items.length < (memberTail [] items).length := by
  induction items with
  | nil => decide
  | cons item items ih =>
    rw [memberTail, List.length_cons, List.length_cons, List.length_append]
    omega

theorem length_text_le_memberTail {items : List (String × List Char)}
    {item : String × List Char} (h : item ∈ items) :
    item.2.length ≤ (memberTail [] items).length := by
  induction items with
  | nil => cases h
  | cons first items ih =>
    rw [memberTail, List.length_cons, List.length_append]
    rcases List.mem_cons.mp h with rfl | hrest
    · rw [writeMember, List.length_append, List.length_cons]
      omega
    · have := ih hrest
      omega

/-- The text of an object is longer than the number of its members. -/
theorem length_lt_of_writeObject {items : List (String × List Char)} {bound : Nat}
    (h : (writeObject (writeItems items)).length ≤ bound) : items.length < bound := by
  have htail := length_memberTail_le items
  have hitems := length_lt_memberTail items
  omega

/-- The text of an object is longer than the texts in it. -/
theorem length_text_le_of_writeObject {items : List (String × List Char)} {bound : Nat}
    (h : (writeObject (writeItems items)).length ≤ bound) :
    ∀ item ∈ items, item.2.length ≤ bound := by
  intro item hitem
  have htail := length_memberTail_le items
  have htext := length_text_le_memberTail hitem
  omega

theorem colon_cons (cs : Text) : colon (':' :: cs) = .ok cs := rfl

theorem collect_write {item : Reader Value} {text : List Char} {rest : Text} {v : Value}
    (h : item (text ++ rest) = .ok (v, rest)) (known : List (String × Value)) (name : String) :
    collect item known name (':' :: (text ++ rest)) = .ok ((name, v) :: known, rest) := by
  rw [collect, colon_cons]
  simp only [bind, Except.bind, h]
  rfl

/-- The written members of an object, and the values that their texts are read as. -/
def ReadsAll (height : Nat) : List (String × List Char) → List (String × Value) → Prop :=
  List.Forall₂ fun item v => v.1 = item.1 ∧ Reads height item.2 v.2

theorem accepts_collect {height bound depth : Nat} {items : List (String × List Char)}
    {vs : List (String × Value)} (h : ReadsAll height items vs)
    (hbound : ∀ item ∈ items, item.2.length ≤ bound) (hdepth : height ≤ depth)
    (known : List (String × Value)) :
    Accepts (collect (value bound depth)) known items (vs.reverse ++ known) := by
  unfold ReadsAll at h
  induction h generalizing known with
  | nil => exact .nil
  | @cons item v items vs hitem hrest ih =>
    obtain ⟨hname, hreads⟩ := hitem
    have hmore := ih (fun item hi => hbound item (List.mem_cons_of_mem _ hi)) (v :: known)
    rw [List.reverse_cons, List.append_assoc, List.singleton_append]
    refine .cons (fun rest hrest => ?_) hmore
    have htext := hbound item List.mem_cons_self
    rw [collect_write (hreads bound depth rest htext hdepth hrest), ← hname]

theorem glimpse_object (parts : List (List Char)) (rest : Text) :
    glimpse (writeObject parts ++ rest) = .ok (.map, writeList parts ++ '}' :: rest) := by
  rw [writeObject, List.append_assoc]
  rfl

/-- An object is read as the values of its members. -/
theorem reads_object {height : Nat} {items : List (String × List Char)}
    {vs : List (String × Value)} (h : ReadsAll height items vs) :
    Reads (height + 1) (writeObject (writeItems items)) (.object vs) := by
  intro bound depth rest hbound hdepth _
  obtain ⟨inner, rfl⟩ : ∃ n, depth = n + 1 := ⟨depth - 1, by omega⟩
  have haccepts := accepts_collect h (length_text_le_of_writeObject hbound)
    (Nat.le_of_succ_le_succ hdepth) []
  have hmembers := members_write haccepts (length_lt_of_writeObject hbound) rest
  rw [value, glimpse_object]
  simp only [bind, Except.bind, hmembers, List.append_nil, List.reverse_reverse]
  rfl

end LiveFeed.Json
