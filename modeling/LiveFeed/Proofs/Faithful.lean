import LiveFeed.Wire.Schema
import LiveFeed.Proofs.WrittenObjects

namespace LiveFeed

open Json (Apart Reads ReadsAll Accepts)

/-- Whatever a form writes it reads again, off the text and out of the value that the text is. -/
structure Form.Faithful {α : Type} (f : Form α) (height : Nat) : Prop where
  reads : ∀ (a : α) (bound depth : Nat) (rest : Json.Text), (f.write a).length ≤ bound →
    height ≤ depth → Apart rest → f.read bound depth (f.write a ++ rest) = .ok (a, rest)
  value : ∀ a, ∃ v, Reads height (f.write a) v ∧ f.ofValue v = .ok a

namespace Form

variable {height : Nat}

theorem readScalar_of_scalar {α : Type} {ofValue : Json.Value → Except Mismatch α}
    {text rest : Json.Text} {v : Json.Value} {a : α} (h : Json.Scalar text v) (hrest : Apart rest)
    (hv : ofValue v = .ok a) : readScalar ofValue (text ++ rest) = .ok (a, rest) := by
  rw [readScalar, Json.glimpse_scalar h hrest]
  simp only [bind, Except.bind, Json.Glimpse.value, hv]
  rfl

theorem reads_of_scalar {text : List Char} {v : Json.Value} (h : Json.Scalar text v) :
    Reads height text v := by
  intro bound depth rest _ _ hrest
  exact Json.value_of_scalar (Json.glimpse_scalar h hrest) bound depth

/-- A form of scalars is faithful if it takes each value back that it writes. -/
theorem faithful_of_scalar {α : Type} {f : Form α}
    (hread : ∀ bound depth, f.read bound depth = readScalar f.ofValue)
    (h : ∀ a, ∃ v, f.ofValue v = .ok a ∧ Json.Scalar (f.write a) v) :
    f.Faithful height where
  reads a bound depth rest _ _ hrest := by
    obtain ⟨v, hv, hscalar⟩ := h a
    rw [hread]
    exact readScalar_of_scalar hscalar hrest hv
  value a := by
    obtain ⟨v, hv, hscalar⟩ := h a
    exact ⟨v, reads_of_scalar hscalar, hv⟩

theorem faithful_text : text.Faithful height :=
  faithful_of_scalar (fun _ _ => rfl) fun s => ⟨.string s, rfl, Json.scalar_string s⟩

theorem faithful_optionalText : optionalText.Faithful height :=
  faithful_of_scalar (fun _ _ => rfl) fun
    | none => ⟨.null, rfl, .null⟩
    | some s => ⟨.string s, rfl, Json.scalar_string s⟩

theorem faithful_flag : flag.Faithful height :=
  faithful_of_scalar (fun _ _ => rfl) fun b => ⟨.boolean b, rfl, Json.scalar_bool b⟩

theorem countOf_toNat (n : UInt64) : countOf (.integer n.toNat) = .ok n := by
  have hn : ¬ (n.toNat : Int) < 0 := by omega
  rw [countOf, if_neg hn, Int.toNat_natCast, UInt64.ofNat_toNat]

theorem faithful_count : count.Faithful height :=
  faithful_of_scalar (fun _ _ => rfl) fun n =>
    ⟨.integer n.toNat, countOf_toNat n, Json.scalar_count n⟩

theorem balanceOf_toNat (n : UInt64) : balanceOf (.integer n.toNat) = .ok n := by
  have hn : ¬ (n.toNat : Int) < 0 := by omega
  rw [balanceOf, if_neg hn, Int.toNat_natCast, UInt64.ofNat_toNat]

/-- A balance is written as a number, so that its text is not looked at twice. -/
theorem faithful_balance : balance.Faithful height := by
  have hreads : ∀ n : UInt64, Reads height (Decimal.digits n.toNat) (.integer n.toNat) :=
    fun n => reads_of_scalar (Json.scalar_count n)
  constructor
  case reads =>
    intro n bound depth rest hbound hdepth hrest
    have hvalue := hreads n bound depth rest hbound hdepth hrest
    simp only [balance] at hvalue ⊢
    simp only [hvalue, bind, Except.bind, balanceOf_toNat]
    rfl
  case value =>
    intro n
    exact ⟨.integer n.toNat, hreads n, balanceOf_toNat n⟩

end Form

/-- A field is faithful if its form is and what it leaves out is what a missing field has. -/
structure Field.Faithful (f : Field) (height : Nat) : Prop where
  form : f.form.Faithful height
  omitted : ∀ c : f.Content, f.omits c = true → f.default? = some c

theorem Field.faithful_of_form {name : String} {α : Type} {form : Form α} {default? : Option α}
    {height : Nat} (h : form.Faithful height) :
    (⟨name, α, form, default?, fun _ => false⟩ : Field).Faithful height :=
  ⟨h, fun _ homits => nomatch homits⟩

theorem Field.faithful_optionalText {name : String} {height : Nat} :
    (⟨name, Option String, Form.optionalText, some none, Option.isNone⟩ : Field).Faithful height
where
  form := Form.faithful_optionalText
  omitted c h := by rw [Option.isNone_iff_eq_none.mp h]

namespace Row

/-- The members under which contents are written, each with its name. -/
def items : (fs : List Field) → Row fs → List (String × List Char)
  | [], () => []
  | f :: fs, (content, row) =>
    if f.omits content then items fs row else (f.name, f.form.write content) :: items fs row

theorem members_eq_items (fs : List Field) (row : Row fs) :
    members fs row = Json.writeItems (items fs row) := by
  induction fs with
  | nil => rfl
  | cons f fs ih =>
    obtain ⟨content, row⟩ := row
    rw [members, items, ih]
    split <;> rfl

theorem name_of_mem_items {fs : List Field} {row : Row fs} {item : String × List Char}
    (h : item ∈ items fs row) : item.1 ∈ fs.map Field.name := by
  induction fs with
  | nil => cases h
  | cons f fs ih =>
    obtain ⟨content, row⟩ := row
    rw [items] at h
    rw [List.map_cons, List.mem_cons]
    split at h
    next => exact .inr (ih h)
    next =>
      rcases List.mem_cons.mp h with rfl | hrest
      · exact .inl rfl
      · exact .inr (ih hrest)

end Row

namespace Draft

/-- The draft that the written contents give. -/
def written : (fs : List Field) → Row fs → Draft fs
  | [], () => ()
  | f :: fs, (content, row) => (if f.omits content then none else some content, written fs row)

/-- Contents that are not written are those that a missing field has. -/
theorem complete_written {fs : List Field} {height : Nat} (h : ∀ f ∈ fs, f.Faithful height)
    (row : Row fs) :
    complete fs (written fs row) = .ok row := by
  induction fs with
  | nil => rfl
  | cons f fs ih =>
    obtain ⟨content, row⟩ := row
    have hrest := ih (fun g hg => h g (List.mem_cons_of_mem f hg)) row
    rw [complete.eq_def, written]
    by_cases homits : f.omits content = true
    · have hdefault : f.absent (.missingField f.name) = .ok content := by
        rw [Field.absent, (h f List.mem_cons_self).omitted content homits]
      simp only [homits, if_true, bind, Except.bind, hdefault, hrest]
      rfl
    · simp only [homits, bind, Except.bind, hrest]
      rfl

section Accept

variable {ε ρ : Type} {take : (f : Field) → Except ε (f.Content × ρ)} {skip : Except ε ρ}
  {duplicate : String → ε} {f : Field} {fs : List Field}

theorem accept_head (draft : Draft fs) {content : f.Content} {rest : ρ}
    (h : take f = .ok (content, rest)) :
    accept f.name take skip duplicate (f :: fs) (none, draft) = .ok ((some content, draft), rest) :=
  by
  rw [accept.eq_def]
  simp only [if_true, bind, Except.bind, h]
  rfl

theorem accept_tail {name : String} (hname : f.name ≠ name) (content : Option f.Content)
    {draft next : Draft fs} {rest : ρ}
    (h : accept name take skip duplicate fs draft = .ok (next, rest)) :
    accept name take skip duplicate (f :: fs) (content, draft) = .ok ((content, next), rest) := by
  rw [accept.eq_def]
  simp only [if_neg hname, bind, Except.bind, h]
  rfl

end Accept

end Draft

namespace Schema

/-- What makes a schema read again what it writes. -/
structure Faithful {α : Type} (s : Schema α) (height : Nat) : Prop where
  fields : ∀ f ∈ s.fields, f.Faithful height
  names : (s.fields.map Field.name).Nodup
  rows : ∀ a, s.ofRow (s.toRow a) = a

/-- Members of other names leave the content of the first field as it is. -/
theorem accepts_tail {f : Field} {fs : List Field} {bound depth : Nat} {draft next : Draft fs}
    {items : List (String × List Char)}
    (h : Accepts (readMember bound depth fs) draft items next)
    (hnames : ∀ item ∈ items, f.name ≠ item.1) (content : Option f.Content) :
    Accepts (readMember bound depth (f :: fs)) (content, draft) items (content, next) := by
  induction h with
  | nil => exact .nil
  | cons hmember _ ih =>
    have hrest := ih fun item hi => hnames item (List.mem_cons_of_mem _ hi)
    refine .cons (fun rest hapart => ?_) hrest
    exact Draft.accept_tail (hnames _ List.mem_cons_self) content (hmember rest hapart)

theorem accepts_row {fs : List Field} {height bound depth : Nat}
    (hfields : ∀ f ∈ fs, f.Faithful height) (hnames : (fs.map Field.name).Nodup)
    (hdepth : height ≤ depth) (row : Row fs)
    (hbound : ∀ item ∈ Row.items fs row, item.2.length ≤ bound) :
    Accepts (readMember bound depth fs) (Draft.empty fs) (Row.items fs row)
      (Draft.written fs row) := by
  induction fs with
  | nil => exact .nil
  | cons f fs ih =>
    -- the member of the first field is its own, and the later ones pass it by
    obtain ⟨content, row⟩ := row
    rw [List.map_cons, List.nodup_cons] at hnames
    obtain ⟨hname, hnames⟩ := hnames
    have hother : ∀ item ∈ Row.items fs row, f.name ≠ item.1 := by
      intro item hitem he
      exact hname (he ▸ Row.name_of_mem_items hitem)
    have hmore : ∀ g ∈ fs, g.Faithful height :=
      fun g hg => hfields g (List.mem_cons_of_mem f hg)
    rw [Row.items] at hbound ⊢
    rw [Draft.written, Draft.empty]
    split at hbound
    next homits =>
      rw [if_pos homits, if_pos homits]
      exact accepts_tail (ih hmore hnames row hbound) hother none
    next homits =>
      rw [if_neg homits, if_neg homits]
      have hrest := ih hmore hnames row fun item hi => hbound item (List.mem_cons_of_mem _ hi)
      refine .cons (fun rest hapart => Draft.accept_head (Draft.empty fs) ?_)
        (accepts_tail hrest hother (some content))
      have hread := (hfields f List.mem_cons_self).form.reads content bound depth rest
        (hbound _ List.mem_cons_self) hdepth hapart
      rw [Json.colon_cons]
      exact hread

theorem acceptAll_cons {fs : List Field} {draft next : Draft fs} {name : String} {v : Json.Value}
    (h : Draft.accept name (fun f => do return (← f.form.ofValue v, ())) (.ok ())
      .duplicateField fs draft = .ok (next, ())) (vs : List (String × Json.Value)) :
    acceptAll fs draft ((name, v) :: vs) = acceptAll fs next vs := by
  rw [acceptAll]
  simp only [bind, Except.bind] at h ⊢
  rw [h]

theorem acceptAll_tail {f : Field} {fs : List Field} {draft next : Draft fs}
    {vs : List (String × Json.Value)} (h : acceptAll fs draft vs = .ok next)
    (hnames : ∀ v ∈ vs, f.name ≠ v.1) (content : Option f.Content) :
    acceptAll (f :: fs) (content, draft) vs = .ok (content, next) := by
  induction vs generalizing draft with
  | nil =>
    cases h
    rfl
  | cons member vs ih =>
    obtain ⟨name, v⟩ := member
    cases hmember : Draft.accept name (fun f => do return (← f.form.ofValue v, ())) (.ok ())
        .duplicateField fs draft with
    | error e =>
      rw [acceptAll] at h
      simp only [bind, Except.bind] at h hmember
      rw [hmember] at h
      cases h
    | ok result =>
      obtain ⟨draft', ⟨⟩⟩ := result
      rw [acceptAll_cons hmember] at h
      rw [acceptAll_cons (Draft.accept_tail (hnames _ List.mem_cons_self) content hmember)]
      exact ih h fun v hv => hnames v (List.mem_cons_of_mem _ hv)

theorem name_of_readsAll {height : Nat} {items : List (String × List Char)}
    {vs : List (String × Json.Value)} (h : ReadsAll height items vs) :
    vs.map Prod.fst = items.map Prod.fst := by
  unfold ReadsAll at h
  induction h with
  | nil => rfl
  | cons hmember _ ih => rw [List.map_cons, List.map_cons, hmember.1, ih]

/-- The members that are written are read as values that give the contents again. -/
theorem exists_values_row {fs : List Field} {height : Nat}
    (hfields : ∀ f ∈ fs, f.Faithful height) (hnames : (fs.map Field.name).Nodup)
    (row : Row fs) :
    ∃ vs, ReadsAll height (Row.items fs row) vs ∧
      acceptAll fs (Draft.empty fs) vs = .ok (Draft.written fs row) := by
  induction fs with
  | nil => exact ⟨[], .nil, rfl⟩
  | cons f fs ih =>
    obtain ⟨content, row⟩ := row
    rw [List.map_cons, List.nodup_cons] at hnames
    obtain ⟨hname, hnames⟩ := hnames
    obtain ⟨vs, hreads, haccept⟩ :=
      ih (fun g hg => hfields g (List.mem_cons_of_mem f hg)) hnames row
    have hother : ∀ v ∈ vs, f.name ≠ v.1 := by
      intro v hv he
      have hmem : f.name ∈ (Row.items fs row).map Prod.fst := by
        rw [← name_of_readsAll hreads, he]
        exact List.mem_map_of_mem hv
      obtain ⟨item, hitem, heq⟩ := List.mem_map.mp hmem
      exact hname (heq ▸ Row.name_of_mem_items hitem)
    rw [Row.items, Draft.written, Draft.empty]
    split
    next => exact ⟨vs, hreads, acceptAll_tail haccept hother none⟩
    next =>
      obtain ⟨v, hread, hvalue⟩ := (hfields f List.mem_cons_self).form.value content
      refine ⟨(f.name, v) :: vs, .cons ⟨rfl, hread⟩ hreads, ?_⟩
      have htake : (do return (← f.form.ofValue v, ()) : Except Mismatch (f.Content × Unit)) =
          .ok (content, ()) := by
        simp only [hvalue, bind, Except.bind]
        rfl
      have hhead : Draft.accept f.name (fun f => do return (← f.form.ofValue v, ())) (.ok ())
          Mismatch.duplicateField (f :: fs) (none, Draft.empty fs) =
          .ok ((some content, Draft.empty fs), ()) := Draft.accept_head (Draft.empty fs) htake
      rw [acceptAll_cons hhead]
      exact acceptAll_tail haccept hother (some content)

variable {α : Type} {s : Schema α} {height : Nat}

/-- The members under which a record is written, each with its name. -/
def items (s : Schema α) (a : α) : List (String × List Char) := Row.items s.fields (s.toRow a)

theorem write_eq_items (s : Schema α) (a : α) :
    s.write a = Json.writeObject (Json.writeItems (s.items a)) := by
  rw [write, members, Row.members_eq_items, items]

theorem Faithful.complete (h : s.Faithful height) (a : α) :
    Draft.complete s.fields (Draft.written s.fields (s.toRow a)) = .ok (s.toRow a) :=
  Draft.complete_written h.fields (s.toRow a)

/-- The members of a record are read as values that stand for the record. -/
theorem Faithful.exists_members (h : s.Faithful height) (a : α) :
    ∃ vs, ReadsAll height (s.items a) vs ∧ s.ofMembers vs = .ok a := by
  obtain ⟨vs, hreads, haccept⟩ := exists_values_row h.fields h.names (s.toRow a)
  refine ⟨vs, hreads, ?_⟩
  rw [ofMembers, haccept]
  simp only [bind, Except.bind, h.complete]
  rw [h.rows]
  rfl

theorem Faithful.form (h : s.Faithful height) : s.form.Faithful (height + 1) where
  reads a bound depth rest hbound hdepth _ := by
    obtain ⟨inner, rfl⟩ : ∃ n, depth = n + 1 := ⟨depth - 1, by omega⟩
    change (s.write a).length ≤ bound at hbound
    change s.read bound (inner + 1) (s.write a ++ rest) = _
    rw [write_eq_items] at hbound ⊢
    have haccepts := accepts_row h.fields h.names (Nat.le_of_succ_le_succ hdepth) (s.toRow a)
      (Json.length_text_le_of_writeObject hbound)
    have hmembers := Json.members_write haccepts (Json.length_lt_of_writeObject hbound) rest
    rw [read, Json.glimpse_object, items]
    simp only [bind, Except.bind, hmembers, h.complete, Form.checked, Except.mapError]
    rw [h.rows]
    rfl
  value a := by
    obtain ⟨vs, hreads, hmembers⟩ := h.exists_members a
    refine ⟨.object vs, ?_, hmembers⟩
    change Reads (height + 1) (s.write a) _
    rw [write_eq_items]
    exact Json.reads_object hreads

/-- The text of a record decodes to the record. -/
theorem Faithful.decode_wire (h : s.Faithful height) (hheight : height < maxDepth) (a : α) :
    s.decode (s.wire a) = .ok a := by
  have hread := h.form.reads a (s.write a).length maxDepth [] (Nat.le_refl _) hheight Json.apart_nil
  change s.read (s.write a).length maxDepth (s.write a ++ []) = .ok (a, []) at hread
  rw [List.append_nil] at hread
  rw [decode, wire, String.toList_ofList, String.length_ofList, hread]
  rfl

end Schema

end LiveFeed
