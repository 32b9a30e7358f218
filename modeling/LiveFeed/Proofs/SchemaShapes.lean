import LiveFeed.Proofs.Basic
import LiveFeed.Proofs.Shapes

namespace LiveFeed

open Json (Value)

/-- A slot gives the content of a field. -/
def Field.Holds (f : Field) : Option Value → f.Content → Prop :=
  LiveFeed.Holds (fun v c => f.form.ofValue v = .ok c) f.default?

/-- Slots, one for each field, give the contents. -/
def Row.Holds : (fs : List Field) → List (Option Value) → Row fs → Prop
  | [], slots, () => slots = []
  | f :: fs, slots, (content, row) =>
    ∃ slot more, slots = slot :: more ∧ f.Holds slot content ∧ Holds fs more row

theorem Field.absent_eq_ok_iff {f : Field} {e : Mismatch} {c : f.Content} :
    f.absent e = .ok c ↔ f.Holds none c := by
  unfold absent Field.Holds LiveFeed.Holds
  cases f.default? with
  | none => simp
  | some d => simp

section Array

variable {f : Field} {fs : List Field}

/-- The slots of an array: its items, and none for the fields that are cut off. -/
def itemSlots (fs : List Field) (items : List Value) : List (Option Value) :=
  items.map some ++ List.replicate (fs.length - items.length) none

theorem itemSlots_nil (f : Field) (fs : List Field) :
    itemSlots (f :: fs) [] = none :: itemSlots fs [] := rfl

theorem itemSlots_cons (f : Field) (fs : List Field) (v : Value) (items : List Value) :
    itemSlots (f :: fs) (v :: items) = some v :: itemSlots fs items := by
  simp [itemSlots]

theorem Row.holds_cons {content : f.Content} {row : Row fs} {slot : Option Value}
    {slots : List (Option Value)} :
    Row.Holds (f :: fs) (slot :: slots) (content, row) ↔
      f.Holds slot content ∧ Row.Holds fs slots row := by
  rw [Row.Holds]
  constructor
  · rintro ⟨slot', more, he, hslot, hmore⟩
    cases he
    exact ⟨hslot, hmore⟩
  · rintro ⟨hslot, hmore⟩
    exact ⟨slot, slots, rfl, hslot, hmore⟩

theorem Row.ofElements_eq_ok_iff {wanted : String} {position : Nat} {items : List Value}
    {row : Row fs} :
    ofElements wanted position fs items = .ok (row, []) ↔
      items.length ≤ fs.length ∧ Row.Holds fs (itemSlots fs items) row := by
  induction fs generalizing position items with
  | nil =>
    cases items with
    | nil => simp [ofElements, Row.Holds, itemSlots]
    | cons v items => simp [ofElements]
  | cons f fs ih =>
    obtain ⟨content, row⟩ := row
    cases items with
    | nil =>
      rw [itemSlots_nil, Row.holds_cons, ofElements, bind_eq_ok_iff]
      constructor
      · rintro ⟨c, habsent, h⟩
        obtain ⟨⟨row', unused⟩, hrow, hout⟩ := exists_of_bind_eq_ok h
        cases hout
        exact ⟨Nat.zero_le _, Field.absent_eq_ok_iff.mp habsent, (ih.mp hrow).2⟩
      · rintro ⟨-, hslot, hmore⟩
        refine ⟨content, Field.absent_eq_ok_iff.mpr hslot, ?_⟩
        rw [ih.mpr ⟨Nat.zero_le _, hmore⟩]
        rfl
    | cons v items =>
      rw [itemSlots_cons, Row.holds_cons, ofElements, bind_eq_ok_iff]
      constructor
      · rintro ⟨c, hvalue, h⟩
        obtain ⟨⟨row', unused⟩, hrow, hout⟩ := exists_of_bind_eq_ok h
        cases hout
        obtain ⟨hlength, hmore⟩ := ih.mp hrow
        exact ⟨Nat.succ_le_succ hlength, hvalue, hmore⟩
      · rintro ⟨hlength, hslot, hmore⟩
        refine ⟨content, hslot, ?_⟩
        rw [ih.mpr ⟨Nat.le_of_succ_le_succ hlength, hmore⟩]
        rfl

end Array

section Object

variable {f : Field} {fs : List Field} {members : List (String × Value)}

/-- How often a member of that name occurs. -/
def occurrences (members : List (String × Value)) (name : String) : Nat :=
  (members.map Prod.fst).count name

theorem occurrences_cons (name other : String) (v : Value) (members : List (String × Value)) :
    occurrences ((other, v) :: members) name =
      occurrences members name + if other = name then 1 else 0 := by
  simp [occurrences, List.count_cons]

theorem lookup_cons (name other : String) (v : Value) (members : List (String × Value)) :
    ((other, v) :: members).lookup name = if other = name then some v else members.lookup name := by
  rw [List.lookup_cons]
  by_cases h : other = name
  · simp [h]
  · simp [h, beq_false_of_ne (Ne.symm h)]

/-- What the members of an object make of the content of a field. -/
def Field.Takes (f : Field) : Option f.Content → List (String × Value) → Option f.Content → Prop
  | content, [], last => last = content
  | content, (name, v) :: members, last =>
    if f.name = name then
      content = none ∧ ∃ c, f.form.ofValue v = .ok c ∧ f.Takes (some c) members last
    else f.Takes content members last

theorem Field.takes_some {c : f.Content} {last : Option f.Content} :
    f.Takes (some c) members last ↔ occurrences members f.name = 0 ∧ last = some c := by
  induction members with
  | nil => simp [Takes, occurrences]
  | cons m members ih =>
    obtain ⟨name, v⟩ := m
    rw [Takes, occurrences_cons]
    split
    next h => simp [h]
    next h => rw [ih, if_neg (Ne.symm h), Nat.add_zero]

/-- A content settles for itself, or without one for the default. -/
def Field.Settles (f : Field) (content? : Option f.Content) (c : f.Content) : Prop :=
  match content? with
  | some d => d = c
  | none => f.default? = some c

theorem Field.takes_settles (f : Field) (members : List (String × Value)) (c : f.Content) :
    (∃ last, f.Takes none members last ∧ f.Settles last c) ↔
      occurrences members f.name ≤ 1 ∧ f.Holds (members.lookup f.name) c := by
  induction members with
  | nil => simp [Takes, occurrences, Settles, Holds, LiveFeed.Holds]
  | cons m members ih =>
    obtain ⟨name, v⟩ := m
    simp only [Takes]
    rw [occurrences_cons, lookup_cons]
    split
    next h =>
      rw [if_pos h.symm, if_pos h.symm]
      constructor
      · rintro ⟨last, ⟨-, d, hd, hlast⟩, hsettles⟩
        obtain ⟨hnone, rfl⟩ := Field.takes_some.mp hlast
        obtain rfl : d = c := hsettles
        exact ⟨by omega, hd⟩
      · rintro ⟨honce, hc⟩
        exact ⟨some c, ⟨trivial, c, hc, Field.takes_some.mpr ⟨by omega, rfl⟩⟩, rfl⟩
    next h =>
      rw [ih, if_neg (Ne.symm h), if_neg (Ne.symm h), Nat.add_zero]

theorem Draft.accept_other {ε ρ : Type} {name : String}
    {take : (f : Field) → Except ε (f.Content × ρ)} {skip : Except ε ρ} {duplicate : String → ε}
    {rest : ρ} (h : name ∉ fs.map Field.name) (hskip : skip = .ok rest) (draft : Draft fs) :
    accept name take skip duplicate fs draft = .ok (draft, rest) := by
  induction fs with
  | nil =>
    rw [accept.eq_def, hskip]
    rfl
  | cons f fs ih =>
    obtain ⟨content, draft⟩ := draft
    rw [List.map_cons, List.mem_cons, not_or] at h
    rw [accept.eq_def]
    simp only [if_neg (Ne.symm h.1), ih h.2, bind, Except.bind]
    rfl

/-- A member of an object is put into the draft. -/
def Draft.acceptMember (fs : List Field) (draft : Draft fs) (m : String × Value) :
    Except Mismatch (Draft fs × Unit) :=
  accept m.1 (fun f => do return (← f.form.ofValue m.2, ())) (.ok ()) .duplicateField fs draft

theorem Schema.acceptAll_cons_iff {draft last : Draft fs} {m : String × Value} :
    acceptAll fs draft (m :: members) = .ok last ↔
      ∃ next, Draft.acceptMember fs draft m = .ok (next, ()) ∧
        acceptAll fs next members = .ok last := by
  obtain ⟨name, v⟩ := m
  rw [acceptAll, bind_eq_ok_iff]
  constructor
  · rintro ⟨⟨next, ⟨⟩⟩, hnext, hlast⟩
    exact ⟨next, hnext, hlast⟩
  · rintro ⟨next, hnext, hlast⟩
    exact ⟨(next, ()), hnext, hlast⟩

theorem Draft.acceptMember_cons {content : Option f.Content} {draft : Draft fs}
    {next : Draft (f :: fs)} {name : String} {v : Value} :
    acceptMember (f :: fs) (content, draft) (name, v) = .ok (next, ()) ↔
      if f.name = name then content = none ∧ ∃ c, f.form.ofValue v = .ok c ∧
        next = (some c, draft)
      else ∃ more, acceptMember fs draft (name, v) = .ok (more, ()) ∧ next = (content, more) := by
  rw [acceptMember, accept.eq_def]
  dsimp only
  split
  next h =>
    cases content with
    | some c => simp
    | none =>
      constructor
      · intro h
        obtain ⟨⟨c, ⟨⟩⟩, hc, hout⟩ := exists_of_bind_eq_ok h
        obtain ⟨d, hd, hc⟩ := exists_of_bind_eq_ok hc
        cases hc
        cases hout
        exact ⟨rfl, c, hd, rfl⟩
      · rintro ⟨-, c, hc, rfl⟩
        rw [hc]
        rfl
  next h =>
    constructor
    · intro h
      obtain ⟨⟨more, ⟨⟩⟩, hmore, hout⟩ := exists_of_bind_eq_ok h
      cases hout
      exact ⟨more, hmore, rfl⟩
    · rintro ⟨more, hmore, rfl⟩
      rw [acceptMember] at hmore
      rw [hmore]
      rfl

theorem Schema.acceptAll_row {content last : Option f.Content} {draft lasts : Draft fs}
    (hname : f.name ∉ fs.map Field.name) :
    acceptAll (f :: fs) (content, draft) members = .ok (last, lasts) ↔
      f.Takes content members last ∧ acceptAll fs draft members = .ok lasts := by
  induction members generalizing content draft with
  | nil =>
    simp only [acceptAll, Field.Takes, Except.ok.injEq, Prod.mk.injEq]
    exact and_congr_left' eq_comm
  | cons m members ih =>
    obtain ⟨name, v⟩ := m
    rw [acceptAll_cons_iff, acceptAll_cons_iff, Field.Takes]
    by_cases h : f.name = name
    · subst h
      -- the other fields pass the member by
      have hskip : Draft.acceptMember fs draft (f.name, v) = .ok (draft, ()) :=
        Draft.accept_other hname rfl draft
      rw [if_pos rfl]
      constructor
      · rintro ⟨next, hnext, hlast⟩
        rw [Draft.acceptMember_cons, if_pos rfl] at hnext
        obtain ⟨rfl, c, hc, rfl⟩ := hnext
        obtain ⟨htakes, hmore⟩ := ih.mp hlast
        exact ⟨⟨rfl, c, hc, htakes⟩, draft, hskip, hmore⟩
      · rintro ⟨⟨rfl, c, hc, htakes⟩, next, hnext, hmore⟩
        cases hskip.symm.trans hnext
        refine ⟨(some c, draft), ?_, ih.mpr ⟨htakes, hmore⟩⟩
        rw [Draft.acceptMember_cons, if_pos rfl]
        exact ⟨rfl, c, hc, rfl⟩
    · rw [if_neg h]
      constructor
      · rintro ⟨next, hnext, hlast⟩
        rw [Draft.acceptMember_cons, if_neg h] at hnext
        obtain ⟨more, hmore, rfl⟩ := hnext
        obtain ⟨htakes, hrest⟩ := ih.mp hlast
        exact ⟨htakes, more, hmore, hrest⟩
      · rintro ⟨htakes, more, hmore, hrest⟩
        refine ⟨(content, more), ?_, ih.mpr ⟨htakes, hrest⟩⟩
        rw [Draft.acceptMember_cons, if_neg h]
        exact ⟨more, hmore, rfl⟩

theorem Draft.complete_cons {content? : Option f.Content} {draft : Draft fs} {content : f.Content}
    {row : Row fs} :
    complete (f :: fs) (content?, draft) = .ok (content, row) ↔
      f.Settles content? content ∧ complete fs draft = .ok row := by
  have hrest : ∀ c, (do return (c, ← complete fs draft) : Except Mismatch (Row (f :: fs))) =
      .ok (content, row) ↔ c = content ∧ complete fs draft = .ok row := by
    intro c
    cases complete fs draft with
    | error e => simp [bind, Except.bind]
    | ok row' => simp [bind, Except.bind, pure, Except.pure]
  cases content? with
  | some c => exact hrest c
  | none =>
    have hcomplete : complete (f :: fs) (none, draft) = (do
        let c ← f.absent (.missingField f.name)
        return (c, ← complete fs draft)) := rfl
    rw [hcomplete, bind_eq_ok_iff]
    constructor
    · rintro ⟨c, habsent, hout⟩
      obtain ⟨rfl, hrow⟩ := (hrest c).mp hout
      exact ⟨Field.absent_eq_ok_iff.mp habsent, hrow⟩
    · rintro ⟨hsettles, hrow⟩
      exact ⟨content, Field.absent_eq_ok_iff.mpr hsettles, (hrest content).mpr ⟨rfl, hrow⟩⟩

theorem Schema.acceptAll_nil (members : List (String × Value)) :
    acceptAll [] () members = .ok () := by
  induction members with
  | nil => rfl
  | cons m members ih => exact acceptAll_cons_iff.mpr ⟨(), rfl, ih⟩

/-- The members of an object fill the fields exactly with what they give for their names. -/
theorem Draft.exists_filled_iff (hnames : (fs.map Field.name).Nodup) {row : Row fs} :
    (∃ draft, Schema.acceptAll fs (empty fs) members = .ok draft ∧
        complete fs draft = .ok row) ↔
      (∀ name ∈ fs.map Field.name, occurrences members name ≤ 1) ∧
        Row.Holds fs ((fs.map Field.name).map (members.lookup ·)) row := by
  induction fs with
  | nil =>
    constructor
    · rintro -
      exact ⟨by simp, rfl⟩
    · rintro -
      exact ⟨(), Schema.acceptAll_nil members, rfl⟩
  | cons f fs ih =>
    obtain ⟨content, row⟩ := row
    rw [List.map_cons, List.nodup_cons] at hnames
    rw [List.map_cons, List.map_cons, Row.holds_cons, List.forall_mem_cons]
    have hhead := Field.takes_settles f members content
    constructor
    · rintro ⟨⟨last, lasts⟩, haccept, hcomplete⟩
      obtain ⟨htakes, haccept⟩ := (Schema.acceptAll_row hnames.1).mp haccept
      obtain ⟨hsettles, hcomplete⟩ := Draft.complete_cons.mp hcomplete
      obtain ⟨hfirst, hholds⟩ := hhead.mp ⟨last, htakes, hsettles⟩
      obtain ⟨hothers, hrow⟩ := (ih hnames.2).mp ⟨lasts, haccept, hcomplete⟩
      exact ⟨⟨hfirst, hothers⟩, hholds, hrow⟩
    · rintro ⟨⟨hfirst, hothers⟩, hholds, hrow⟩
      obtain ⟨last, htakes, hsettles⟩ := hhead.mpr ⟨hfirst, hholds⟩
      obtain ⟨lasts, haccept, hcomplete⟩ := (ih hnames.2).mpr ⟨hothers, hrow⟩
      exact ⟨(last, lasts), (Schema.acceptAll_row hnames.1).mpr ⟨htakes, haccept⟩,
        Draft.complete_cons.mpr ⟨hsettles, hcomplete⟩⟩

end Object

theorem gives_array_iff {names : List String} {items : List Value} {slots : List (Option Value)} :
    Gives names (.array items) slots ↔ items.length ≤ names.length ∧
      slots = items.map some ++ List.replicate (names.length - items.length) none := by
  constructor
  · intro h
    cases h with
    | array h => exact ⟨h, rfl⟩
  · rintro ⟨h, rfl⟩
    exact .array h

theorem gives_object_iff {names : List String} {members : List (String × Value)}
    {slots : List (Option Value)} :
    Gives names (.object members) slots ↔ (∀ name ∈ names, occurrences members name ≤ 1) ∧
      slots = names.map (members.lookup ·) := by
  constructor
  · intro h
    cases h with
    | object h => exact ⟨h, rfl⟩
  · rintro ⟨h, rfl⟩
    exact .object h

namespace Schema

variable {α : Type} {s : Schema α} {a : α}

theorem ofElements_eq_ok_iff {items : List Value} :
    s.ofElements items = .ok a ↔ items.length ≤ s.fields.length ∧
      ∃ row, Row.Holds s.fields (itemSlots s.fields items) row ∧ s.ofRow row = a := by
  rw [ofElements, bind_eq_ok_iff]
  constructor
  · rintro ⟨⟨row, unused⟩, hrow, hout⟩
    dsimp only at hout
    split at hout
    next hempty =>
      cases hout
      rw [List.isEmpty_iff.mp hempty, Row.ofElements_eq_ok_iff] at hrow
      exact ⟨hrow.1, row, hrow.2, rfl⟩
    next => cases hout
  · rintro ⟨hlength, row, hrow, rfl⟩
    exact ⟨(row, []), Row.ofElements_eq_ok_iff.mpr ⟨hlength, hrow⟩, rfl⟩

theorem ofMembers_eq_ok_iff (hnames : (s.fields.map Field.name).Nodup)
    {members : List (String × Value)} :
    s.ofMembers members = .ok a ↔
      (∀ name ∈ s.fields.map Field.name, occurrences members name ≤ 1) ∧
        ∃ row, Row.Holds s.fields ((s.fields.map Field.name).map (members.lookup ·)) row ∧
          s.ofRow row = a := by
  rw [ofMembers, bind_eq_ok_iff]
  constructor
  · rintro ⟨draft, haccept, h⟩
    obtain ⟨row, hcomplete, hout⟩ := exists_of_bind_eq_ok h
    cases hout
    obtain ⟨honce, hrow⟩ := (Draft.exists_filled_iff hnames).mp ⟨draft, haccept, hcomplete⟩
    exact ⟨honce, row, hrow, rfl⟩
  · rintro ⟨honce, row, hrow, rfl⟩
    obtain ⟨draft, haccept, hcomplete⟩ := (Draft.exists_filled_iff hnames).mpr ⟨honce, hrow⟩
    refine ⟨draft, haccept, ?_⟩
    rw [hcomplete]
    rfl

/-- A value is a record exactly if it gives each field a content of its form. -/
theorem ofValue_eq_ok_iff (hnames : (s.fields.map Field.name).Nodup) {v : Value} :
    s.ofValue v = .ok a ↔
      ∃ slots row, Gives (s.fields.map Field.name) v slots ∧ Row.Holds s.fields slots row ∧
        s.ofRow row = a := by
  cases v with
  | array items =>
    rw [ofValue, ofElements_eq_ok_iff]
    simp only [gives_array_iff, List.length_map, and_assoc, exists_and_left, exists_eq_left]
    rfl
  | object members =>
    rw [ofValue, ofMembers_eq_ok_iff hnames]
    simp only [gives_object_iff, and_assoc, exists_and_left, exists_eq_left]
  | _ =>
    refine iff_of_false (by simp [ofValue]) ?_
    rintro ⟨slots, row, hgives, -⟩
    cases hgives

end Schema

end LiveFeed
