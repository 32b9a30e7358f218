import LiveFeed.Proofs.Decoding
import LiveFeed.Proofs.Skipping

namespace LiveFeed

open Json (Value Text Space IsValue Scalar Composed Parts Member Lead Document Apart)

namespace Form

variable {α : Type}

/-- A form takes off a text what it takes out of the value that the text stands for. -/
def Agrees (form : Form α) : Prop :=
  ∀ bound depth s t v rest, Space s → IsValue depth t v → t.length ≤ bound → Apart rest →
    ∀ a rest', form.read bound depth (s ++ (t ++ rest)) = .ok (a, rest') ↔
      form.ofValue v = .ok a ∧ rest' = rest

/-- What is read off a text and then judged is what the judgement finds. -/
theorem checked_bind_eq_ok_iff {result : Except Mismatch α} {a : α} {rest rest' : Text} :
    (do return (← checked result, rest) : Except DecodeError (α × Text)) = .ok (a, rest') ↔
      result = .ok a ∧ rest' = rest := by
  cases result with
  | error e => simp [checked, Except.mapError, bind, Except.bind]
  | ok b => simp [checked, Except.mapError, bind, Except.bind, pure, Except.pure, eq_comm]

theorem readScalar_behind {ofValue : Value → Except Mismatch α} {s : Text} (hs : Space s)
    (cs : Text) : readScalar ofValue (s ++ cs) = readScalar ofValue cs := by
  rw [readScalar, Json.glimpse_behind hs, readScalar]

/-- No container has a form of scalars, and none is looked into. -/
theorem agrees_of_scalar {form : Form α}
    (hread : ∀ bound depth, form.read bound depth = readScalar form.ofValue)
    (harray : ∀ items a, form.ofValue (.array items) ≠ .ok a)
    (hobject : ∀ members a, form.ofValue (.object members) ≠ .ok a) : form.Agrees := by
  intro bound depth s t v rest hs ht _ hrest a rest'
  rw [hread, readScalar_behind hs]
  have hscalar : ∀ {t v}, Scalar t v →
      (readScalar form.ofValue (t ++ rest) = .ok (a, rest') ↔
        form.ofValue v = .ok a ∧ rest' = rest) := by
    intro t v ht
    rw [readScalar, Json.glimpse_scalar ht hrest]
    exact checked_bind_eq_ok_iff
  cases depth with
  | zero => exact hscalar ht
  | succ depth =>
    cases ht with
    | scalar ht => exact hscalar ht
    -- a container is judged at its bracket, as if nothing stood in it
    | @array t items ht =>
      refine iff_of_false (fun h => ?_) fun h => harray items a h.1
      exact harray [] a (checked_bind_eq_ok_iff.mp h).1
    | @object t members ht =>
      refine iff_of_false (fun h => ?_) fun h => hobject members a h.1
      exact hobject [] a (checked_bind_eq_ok_iff.mp h).1

theorem agrees_text : text.Agrees :=
  agrees_of_scalar (fun _ _ => rfl) (by rintro _ _ ⟨⟩) (by rintro _ _ ⟨⟩)

theorem agrees_optionalText : optionalText.Agrees :=
  agrees_of_scalar (fun _ _ => rfl) (by rintro _ _ ⟨⟩) (by rintro _ _ ⟨⟩)

theorem agrees_flag : flag.Agrees :=
  agrees_of_scalar (fun _ _ => rfl) (by rintro _ _ ⟨⟩) (by rintro _ _ ⟨⟩)

theorem agrees_count : count.Agrees :=
  agrees_of_scalar (fun _ _ => rfl) (by rintro _ _ ⟨⟩) (by rintro _ _ ⟨⟩)

/-- A balance is read as any value. -/
theorem agrees_balance : balance.Agrees := by
  intro bound depth s t v rest hs ht hsize hrest a rest'
  unfold balance
  dsimp only
  rw [Json.value_complete bound depth s t v rest hs ht hsize hrest]
  exact checked_bind_eq_ok_iff

end Form

section Array

variable {bound depth : Nat} {f : Field} {fs : List Field} {wanted : String} {position : Nat}
  {rest' : Text}

theorem Row.readElements_absent {s : Text} (hs : Space s) (rest : Text)
    {content : f.Content} {row : Row fs} :
    readElements bound depth wanted position (f :: fs) (s ++ ']' :: rest) =
        .ok ((content, row), rest') ↔
      f.absent (.tooShort position wanted) = .ok content ∧
        readElements bound depth wanted (position + 1) fs (s ++ ']' :: rest) =
          .ok (row, rest') := by
  rw [readElements, Json.nextElement_close hs]
  constructor
  · intro h
    obtain ⟨next?, hnext, h⟩ := exists_of_bind_eq_ok h
    cases hnext
    obtain ⟨c, habsent, h⟩ := exists_of_bind_eq_ok h
    obtain ⟨⟨row', cs⟩, hrow, hout⟩ := exists_of_bind_eq_ok h
    cases hout
    exact ⟨Message.checked_eq_ok_iff.mp habsent, hrow⟩
  · rintro ⟨habsent, hrow⟩
    simp only [bind, Except.bind, Message.checked_eq_ok_iff.mpr habsent, hrow]
    rfl

theorem Row.readElements_behind {u t : Text} {v : Value} (hu : Lead (decide (position = 0)) u)
    (ht : IsValue depth t v) (cs : Text) {content : f.Content} {row : Row fs} :
    readElements bound depth wanted position (f :: fs) (u ++ (t ++ cs)) =
        .ok ((content, row), rest') ↔
      ∃ cs', f.form.read bound depth (t ++ cs) = .ok (content, cs') ∧
        readElements bound depth wanted (position + 1) fs cs' = .ok (row, rest') := by
  obtain ⟨c, more, rfl, hspace, hclose⟩ := Json.begins_isValue depth t v ht
  rw [List.cons_append, readElements, Json.nextElement_behind hu hspace hclose]
  constructor
  · intro h
    obtain ⟨next?, hnext, h⟩ := exists_of_bind_eq_ok h
    cases hnext
    obtain ⟨⟨content', cs'⟩, hread, h⟩ := exists_of_bind_eq_ok h
    obtain ⟨⟨row', rest''⟩, hrow, hout⟩ := exists_of_bind_eq_ok h
    cases hout
    exact ⟨cs', hread, hrow⟩
  · rintro ⟨cs', hread, hrow⟩
    simp only [bind, Except.bind, hread, hrow]
    rfl

/-- The elements of an array give all fields exactly if none is left over when it has to close. -/
theorem Row.readElements_eq_ok_iff (hfields : ∀ f ∈ fs, f.form.Agrees) (wanted : String)
    (position : Nat) {t : Text} {items : List Value}
    (h : Parts (IsValue depth) (decide (position = 0)) t items) (hsize : t.length ≤ bound)
    (rest : Text) (row : Row fs) (rest' : Text) :
    (∃ cs, readElements bound depth wanted position fs (t ++ ']' :: rest) = .ok (row, cs) ∧
        Json.closeArray cs = .ok rest') ↔
      ofElements wanted position fs items = .ok (row, []) ∧ rest' = rest := by
  induction fs generalizing position t items with
  | nil =>
    simp only [readElements, ofElements, Except.ok.injEq, Prod.mk.injEq]
    cases h with
    | nil hs =>
      simp [Json.closeArray_eq, Json.expect_behind ']' rfl hs, eq_comm]
    | @cons _ u t more v items hu ht hmore =>
      obtain ⟨c, cs, rfl, hspace, hclose⟩ := Json.begins_isValue depth t v ht
      simp [Json.closeArray_lead hu hspace hclose]
  | cons f fs ih =>
    obtain ⟨content, row⟩ := row
    obtain ⟨hform, hfields⟩ := List.forall_mem_cons.mp hfields
    cases h with
    | nil hs =>
      -- nothing is taken off the text, and the next field finds the same bracket
      have hmore := ih hfields (position + 1) (.nil hs) hsize row
      rw [ofElements, bind_eq_ok_iff]
      constructor
      · rintro ⟨cs, hread, hclose⟩
        obtain ⟨habsent, hread⟩ := (readElements_absent hs rest).mp hread
        obtain ⟨hrow, hrest⟩ := hmore.mp ⟨cs, hread, hclose⟩
        refine ⟨⟨content, habsent, ?_⟩, hrest⟩
        rw [hrow]
        rfl
      · rintro ⟨⟨c, habsent, h⟩, hrest⟩
        obtain ⟨⟨row', unused⟩, hrow, hout⟩ := exists_of_bind_eq_ok h
        cases hout
        obtain ⟨cs, hread, hclose⟩ := hmore.mpr ⟨hrow, hrest⟩
        exact ⟨cs, (readElements_absent hs rest).mpr ⟨habsent, hread⟩, hclose⟩
    | @cons _ u t more v items hu ht hmoreparts =>
      simp only [List.length_append] at hsize
      have hmore := ih hfields (position + 1) hmoreparts (by omega) row
      have hrest : Apart (more ++ ']' :: rest) := hmoreparts.apart (by simp [Apart])
      have htext : u ++ (t ++ more) ++ ']' :: rest = u ++ (t ++ (more ++ ']' :: rest)) := by simp
      have hagrees := hform bound depth [] t v _ (List.forall_mem_nil _) ht (by omega) hrest
      rw [ofElements, bind_eq_ok_iff, htext]
      constructor
      · rintro ⟨cs, hread, hclose⟩
        obtain ⟨cs', hcontent, hread⟩ := (readElements_behind hu ht _).mp hread
        obtain ⟨hvalue, rfl⟩ := (hagrees content cs').mp hcontent
        obtain ⟨hrow, hrest⟩ := hmore.mp ⟨cs, hread, hclose⟩
        refine ⟨⟨content, hvalue, ?_⟩, hrest⟩
        rw [hrow]
        rfl
      · rintro ⟨⟨c, hvalue, h⟩, hrest⟩
        obtain ⟨⟨row', unused⟩, hrow, hout⟩ := exists_of_bind_eq_ok h
        cases hout
        obtain ⟨cs, hread, hclose⟩ := hmore.mpr ⟨hrow, hrest⟩
        have hcontent := (hagrees content _).mpr ⟨hvalue, rfl⟩
        exact ⟨cs, (readElements_behind hu ht _).mpr ⟨_, hcontent, hread⟩, hclose⟩

end Array

section Object

variable {bound depth : Nat} {f : Field} {fs : List Field} {rest' : Text}

/-- A draft takes a member the same way wherever its content comes from, and whatever an error. -/
theorem Draft.accept_eq_ok_iff {ε ε' ρ : Type} {name : String}
    {take : (f : Field) → Except ε (f.Content × ρ)} {skip : Except ε ρ} {duplicate : String → ε}
    {take' : (f : Field) → Except ε' (f.Content × Unit)} {skip' : Except ε' Unit}
    {duplicate' : String → ε'} {rest : ρ}
    (htake : ∀ f ∈ fs, ∀ c r, take f = .ok (c, r) ↔ take' f = .ok (c, ()) ∧ r = rest)
    (hskip : skip = .ok rest) (hskip' : skip' = .ok ()) {draft next : Draft fs} {r : ρ} :
    accept name take skip duplicate fs draft = .ok (next, r) ↔
      accept name take' skip' duplicate' fs draft = .ok (next, ()) ∧ r = rest := by
  induction fs generalizing r with
  | nil =>
    rw [accept.eq_def, accept.eq_def, hskip, hskip']
    simp [bind, Except.bind, pure, Except.pure, eq_comm]
  | cons f fs ih =>
    obtain ⟨content, draft⟩ := draft
    obtain ⟨content', next⟩ := next
    obtain ⟨hfirst, htake⟩ := List.forall_mem_cons.mp htake
    rw [accept.eq_def, accept.eq_def]
    dsimp only
    split
    next hname =>
      cases content with
      | some c => simp
      | none =>
        simp only [bind_eq_ok_iff, Prod.exists, hfirst]
        constructor
        · rintro ⟨c, r', ⟨hc, rfl⟩, hout⟩
          cases hout
          exact ⟨⟨c, (), hc, rfl⟩, rfl⟩
        · rintro ⟨⟨c, ⟨⟩, hc, hout⟩, rfl⟩
          cases hout
          exact ⟨c, r, ⟨hc, rfl⟩, rfl⟩
    next hname =>
      simp only [bind_eq_ok_iff, Prod.exists, ih htake]
      constructor
      · rintro ⟨more, r', ⟨hmore, rfl⟩, hout⟩
        cases hout
        exact ⟨⟨next, (), hmore, rfl⟩, rfl⟩
      · rintro ⟨⟨more, ⟨⟩, hmore, hout⟩, rfl⟩
        cases hout
        exact ⟨next, r, ⟨hmore, rfl⟩, rfl⟩

/-- A member is read as it is taken over; one of another name is a value as well. -/
theorem Schema.readMember_eq_ok_iff (hfields : ∀ f ∈ fs, f.form.Agrees) {draft next : Draft fs}
    {name : String} {s s' t rest : Text} {v : Value} (hs : Space s) (hs' : Space s')
    (ht : IsValue depth t v) (hsize : t.length ≤ bound) (hrest : Apart rest) :
    readMember bound depth fs draft name (s ++ ':' :: (s' ++ (t ++ rest))) = .ok (next, rest') ↔
      Draft.acceptMember fs draft (name, v) = .ok (next, ()) ∧ rest' = rest := by
  have hcolon : Json.colon (s ++ ':' :: (s' ++ (t ++ rest))) = .ok (s' ++ (t ++ rest)) := by
    rw [Json.colon_eq, Json.expect_behind ':' rfl hs]
  rw [readMember, hcolon]
  refine Draft.accept_eq_ok_iff (fun f hf c r => ?_) ?_ rfl
  · refine (hfields f hf bound depth s' t v rest hs' ht hsize hrest c r).trans ?_
    cases f.form.ofValue v with
    | error e => simp [bind, Except.bind]
    | ok c' => simp [bind, Except.bind, pure, Except.pure]
  · exact Json.skipValue_of_isValue hs' ht hsize hrest

theorem Schema.readMembers_eq_ok_iff (hfields : ∀ f ∈ fs, f.form.Agrees) {first : Bool}
    {t : Text} {members : List (String × Value)}
    (h : Parts (Member (IsValue depth)) first t members) (hsize : t.length ≤ bound) {room : Nat}
    (hroom : members.length < room) (draft : Draft fs) {last : Draft fs} (rest : Text) :
    Json.members (readMember bound depth fs) room first draft (t ++ '}' :: rest) =
        .ok (last, rest') ↔
      acceptAll fs draft members = .ok last ∧ rest' = rest := by
  induction h generalizing room draft with
  | @nil first s hs =>
    obtain ⟨left, rfl⟩ : ∃ n, room = n + 1 := ⟨room - 1, by omega⟩
    rw [Json.members, Json.nextKey_close hs]
    simp [bind, Except.bind, pure, Except.pure, Json.closeObject_eq, Json.expect_behind '}' rfl hs,
      acceptAll, eq_comm]
  | @cons first u t more m members hu ht hmore ih =>
    obtain ⟨left, rfl⟩ : ∃ n, room = n + 1 := ⟨room - 1, by omega⟩
    have hrest : Apart (more ++ '}' :: rest) := hmore.apart (by simp [Apart])
    cases ht with
    | @mk key s s' t chars v hkey hs hs' ht =>
      simp only [List.length_append, List.length_cons] at hsize hroom
      have htext : u ++ ('"' :: (key ++ '"' :: (s ++ ':' :: (s' ++ t))) ++ more) ++ '}' :: rest =
          u ++ '"' :: (key ++ '"' ::
            (s ++ ':' :: (s' ++ (t ++ (more ++ '}' :: rest))))) := by simp
      have hvalue : t.length ≤ bound := by omega
      have hbehind : more.length ≤ bound := by omega
      have hleft := Nat.lt_of_succ_lt_succ hroom
      rw [Json.members, htext, Json.nextKey_behind hu hkey, acceptAll_cons_iff]
      constructor
      · intro h
        obtain ⟨key?, hnext, h⟩ := exists_of_bind_eq_ok h
        cases hnext
        obtain ⟨⟨next, cs⟩, hmember, hlast⟩ := exists_of_bind_eq_ok h
        obtain ⟨haccept, rfl⟩ :=
          (readMember_eq_ok_iff hfields hs hs' ht hvalue hrest).mp hmember
        obtain ⟨hall, hrest⟩ := (ih hbehind hleft next).mp hlast
        exact ⟨⟨next, haccept, hall⟩, hrest⟩
      · rintro ⟨⟨next, haccept, hall⟩, hrest'⟩
        have hmember :=
          (readMember_eq_ok_iff hfields hs hs' ht hvalue hrest).mpr ⟨haccept, rfl⟩
        have hlast := (ih hbehind hleft next).mpr ⟨hall, hrest'⟩
        simp only [bind, Except.bind, hmember, hlast]

end Object

namespace Schema

variable {α : Type} {s : Schema α}

theorem ofValue_ne_of_scalar {t : Text} {v : Value} (ht : Scalar t v) (a : α) :
    s.ofValue v ≠ .ok a := by
  intro h
  cases ht with
  | null => cases h
  | true => cases h
  | false => cases h
  | string _ => cases h
  | number _ hv =>
    cases hv with
    | integer _ => cases h
    | fraction _ _ => cases h

theorem read_ne_of_scalar {bound depth : Nat} {t rest : Text} {v : Value} (ht : Scalar t v)
    (hrest : Apart rest) (a : α × Text) : s.read bound depth (t ++ rest) ≠ .ok a := by
  intro h
  rw [read, Json.glimpse_scalar ht hrest] at h
  cases depth with
  | zero => cases h
  | succ depth => cases h

section Container

variable {bound depth : Nat} {t rest rest' : Text} {a : α}

theorem read_array_eq_ok_iff (hfields : ∀ f ∈ s.fields, f.form.Agrees) {items : List Value}
    (h : Parts (IsValue depth) true t items) (hsize : t.length ≤ bound) :
    s.read bound (depth + 1) ('[' :: (t ++ ']' :: rest)) = .ok (a, rest') ↔
      s.ofElements items = .ok a ∧ rest' = rest := by
  have hrow := Row.readElements_eq_ok_iff hfields s.wanted 0 h hsize rest
  rw [read, Json.glimpse_sequence, ofElements]
  constructor
  · intro h
    obtain ⟨⟨g, cs⟩, hglimpse, h⟩ := exists_of_bind_eq_ok h
    cases hglimpse
    obtain ⟨⟨row, cs⟩, helements, h⟩ := exists_of_bind_eq_ok h
    obtain ⟨cs', hclose, hout⟩ := exists_of_bind_eq_ok h
    cases hout
    obtain ⟨hvalues, rfl⟩ := (hrow row rest').mp ⟨cs, helements, hclose⟩
    rw [hvalues]
    exact ⟨rfl, rfl⟩
  · rintro ⟨h, hrest⟩
    obtain ⟨⟨row, unused⟩, hvalues, h⟩ := exists_of_bind_eq_ok h
    cases unused with
    | cons v unused => cases h
    | nil =>
      cases h
      obtain ⟨cs, helements, hclose⟩ := (hrow row rest').mpr ⟨hvalues, hrest⟩
      simp only [bind, Except.bind, helements, hclose]
      rfl

theorem read_object_eq_ok_iff (hfields : ∀ f ∈ s.fields, f.form.Agrees)
    {members : List (String × Value)} (h : Parts (Member (IsValue depth)) true t members)
    (hsize : t.length ≤ bound) (hroom : members.length < bound) :
    s.read bound (depth + 1) ('{' :: (t ++ '}' :: rest)) = .ok (a, rest') ↔
      s.ofMembers members = .ok a ∧ rest' = rest := by
  rw [read, Json.glimpse_map, ofMembers]
  constructor
  · intro hread
    obtain ⟨⟨g, cs⟩, hglimpse, hread⟩ := exists_of_bind_eq_ok hread
    cases hglimpse
    obtain ⟨⟨draft, cs⟩, hdraft, hread⟩ := exists_of_bind_eq_ok hread
    obtain ⟨row, hcomplete, hout⟩ := exists_of_bind_eq_ok hread
    cases hout
    obtain ⟨haccept, rfl⟩ := (readMembers_eq_ok_iff hfields h hsize hroom _ rest).mp hdraft
    refine ⟨?_, rfl⟩
    simp only [bind, Except.bind, haccept, Message.checked_eq_ok_iff.mp hcomplete]
    rfl
  · rintro ⟨hvalue, rfl⟩
    obtain ⟨draft, haccept, hvalue⟩ := exists_of_bind_eq_ok hvalue
    obtain ⟨row, hcomplete, hout⟩ := exists_of_bind_eq_ok hvalue
    cases hout
    have hdraft := (readMembers_eq_ok_iff hfields h hsize hroom _ rest').mpr ⟨haccept, rfl⟩
    simp only [bind, Except.bind, hdraft, Message.checked_eq_ok_iff.mpr hcomplete]
    rfl

end Container

/-- A record is read off a text as it is taken out of the value that is there. -/
theorem agrees (hfields : ∀ f ∈ s.fields, f.form.Agrees) : s.form.Agrees := by
  intro bound depth s' t v rest hs ht hsize hrest a rest'
  have hread : s.form.read bound depth (s' ++ (t ++ rest)) = s.read bound depth (t ++ rest) := by
    change s.read bound depth (s' ++ (t ++ rest)) = _
    rw [read, Json.glimpse_behind hs, read]
  have hscalar : ∀ {t v}, Scalar t v → (s.read bound depth (t ++ rest) = .ok (a, rest') ↔
      s.ofValue v = .ok a ∧ rest' = rest) := fun ht =>
    iff_of_false (read_ne_of_scalar ht hrest _) fun h => ofValue_ne_of_scalar ht a h.1
  rw [hread]
  cases depth with
  | zero => exact hscalar ht
  | succ depth =>
    cases ht with
    | scalar ht => exact hscalar ht
    | @array t items ht =>
      simp only [List.length_cons, List.length_append, List.length_nil] at hsize
      have htext : '[' :: (t ++ [']']) ++ rest = '[' :: (t ++ ']' :: rest) := by simp
      rw [htext]
      exact read_array_eq_ok_iff hfields ht (by omega)
    | @object t members ht =>
      simp only [List.length_cons, List.length_append, List.length_nil] at hsize
      have htext : '{' :: (t ++ ['}']) ++ rest = '{' :: (t ++ '}' :: rest) := by simp
      rw [htext]
      have hcount := ht.length_le
      rw [Bool.toNat_true] at hcount
      exact read_object_eq_ok_iff hfields ht (by omega) (by omega)

/-- A text of a value decodes to a record exactly if the value does. -/
theorem decode_text_eq_ok_iff (hfields : ∀ f ∈ s.fields, f.form.Agrees) {text : String} {v : Value}
    (h : Document maxDepth text.toList v) (a : α) :
    s.decode text = .ok a ↔ s.ofValue v = .ok a := by
  obtain ⟨s', t, s'', hs, ht, hs', htext⟩ := h
  have hsize := Json.length_le_of_toList htext
  have hread := agrees hfields text.length maxDepth s' t v s'' hs ht hsize (Json.apart_of_space hs')
  rw [decode, htext, bind_eq_ok_iff]
  constructor
  · rintro ⟨⟨a', rest⟩, hvalue, h⟩
    obtain ⟨⟨⟩, -, hout⟩ := exists_of_bind_eq_ok h
    cases hout
    exact ((hread a rest).mp hvalue).1
  · intro hvalue
    refine ⟨(a, s''), (hread a s'').mpr ⟨hvalue, rfl⟩, ?_⟩
    simp only [bind, Except.bind, Json.finish_eq_ok_iff.mpr hs']
    rfl

end Schema

theorem Wallet.agrees_fields : ∀ f ∈ Wallet.schema.fields, f.form.Agrees := by
  simp only [schema, fields, List.forall_mem_cons]
  exact ⟨Form.agrees_text, Form.agrees_balance, Form.agrees_optionalText, by simp⟩

theorem Stage.agrees_fields : ∀ f ∈ Stage.schema.fields, f.form.Agrees := by
  simp only [schema, fields, List.forall_mem_cons]
  exact ⟨Form.agrees_text, Form.agrees_text, Form.agrees_text, Form.agrees_flag, Form.agrees_count,
    by simp⟩

theorem Engagement.agrees_fields : ∀ f ∈ Engagement.schema.fields, f.form.Agrees := by
  simp only [schema, fields, List.forall_mem_cons]
  exact ⟨Form.agrees_text, Form.agrees_text, Form.agrees_count, by simp⟩

theorem Post.agrees_fields : ∀ f ∈ Post.schema.fields, f.form.Agrees := by
  simp only [schema, fields, List.forall_mem_cons]
  exact ⟨Form.agrees_text, Form.agrees_text, Form.agrees_text, Form.agrees_text,
    Form.agrees_optionalText, Form.agrees_flag, by simp⟩

end LiveFeed
