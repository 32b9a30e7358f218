import LiveFeed.Proofs.RecordShapes
import LiveFeed.Proofs.RoundTrip
import LiveFeed.Proofs.ValueGrammar

namespace LiveFeed

open Json (Value Text Space IsValue Scalar Composed Parts Document)

namespace Json

section Sized

variable {α : Type} {part : Text → α → Prop} {P : α → Prop} {t : Text} {as : List α}

theorem Parts.forall {first : Bool} (hpart : ∀ t a, part t a → P a) (h : Parts part first t as) :
    ∀ a ∈ as, P a := by
  induction h with
  | nil => simp
  | cons _ ht _ ih => exact List.forall_mem_cons.mpr ⟨hpart _ _ ht, ih⟩

theorem sized_of_scalar {t : Text} {v : Value} (h : Scalar t v) : v.Sized := by
  cases h with
  | null => exact .null
  | true => exact .boolean
  | false => exact .boolean
  | string _ => exact .string
  | @number n t v _ hv =>
    cases hv with
    | fraction _ _ => exact .fraction
    | @integer i h =>
      obtain ⟨-, -, hi⟩ := h
      split at hi
      next => exact .integer (by omega)
      next => exact .integer hi.2

/-- Whatever a text is, its integers fit 64 bits. -/
theorem sized_of_isValue {depth : Nat} {t : Text} {v : Value} (h : IsValue depth t v) :
    v.Sized := by
  induction depth generalizing t v with
  | zero => exact sized_of_scalar h
  | succ depth ih =>
    cases h with
    | scalar h => exact sized_of_scalar h
    | array h => exact .array (h.forall fun _ _ => ih)
    | object h =>
      refine .object (h.forall ?_)
      rintro t m ⟨-, -, -, ht⟩
      exact ih ht

end Sized

theorem finish_eq_ok_iff {cs : Text} : finish cs = .ok () ↔ Space cs := by
  constructor
  · intro h
    obtain ⟨s, hs, hcs⟩ := exists_space cs
    unfold finish at h
    split at h
    next hskip =>
      rw [hskip, List.append_nil] at hcs
      rwa [hcs]
    next => cases h
  · intro h
    have hskip := skipSpace_append h []
    rw [List.append_nil] at hskip
    rw [finish, hskip]
    rfl

/-- More than space at the end is no JSON. -/
theorem finish_of_not_space {cs : Text} (h : ¬ Space cs) : finish cs = .error .malformed := by
  unfold finish
  split
  next hskip => exact absurd (finish_eq_ok_iff.mp (by rw [finish, hskip])) h
  next => rfl

theorem length_le_of_toList {text : String} {s t s' : Text} (h : text.toList = s ++ (t ++ s')) :
    t.length ≤ text.length := by
  have hlength := congrArg List.length h
  rw [String.length_toList, List.length_append, List.length_append] at hlength
  omega

/-- Only the text of a scalar is a value that holds no others. -/
theorem scalar_of_string {depth : Nat} {t : Text} {s : String} (h : IsValue depth t (.string s)) :
    Scalar t (.string s) := by
  cases depth with
  | zero => exact h
  | succ depth =>
    cases h with
    | scalar h => exact h

end Json

theorem Action.ofValue_eq_ok_iff {v : Value} {a : Action} :
    ofValue v = .ok a ↔ v = .string a.name := by
  constructor
  · intro h
    cases v with
    | string s =>
      rw [ofValue] at h
      split at h
      next b hname =>
        cases h
        have hfound := List.find?_some hname
        rw [of_decide_eq_true hfound]
      next => cases h
    | _ => cases h
  · rintro rfl
    exact Message.ofValue_name a

namespace Message

/-- The members that do not name the action. -/
def others (members : List (String × Value)) : List (String × Value) :=
  members.filter (·.1 ≠ "action")

section Others

variable {members : List (String × Value)} {name : String}

theorem others_cons (other : String) (v : Value) (members : List (String × Value)) :
    others ((other, v) :: members) =
      if other = "action" then others members else (other, v) :: others members := by
  by_cases h : other = "action"
  · simp [others, h]
  · simp [others, h]

theorem occurrences_others (h : name ≠ "action") :
    occurrences (others members) name = occurrences members name := by
  induction members with
  | nil => rfl
  | cons m members ih =>
    obtain ⟨other, v⟩ := m
    rw [others_cons, occurrences_cons]
    split
    next ho => rw [ih, ho, if_neg (Ne.symm h), Nat.add_zero]
    next => rw [occurrences_cons, ih]

theorem lookup_others (h : name ≠ "action") :
    (others members).lookup name = members.lookup name := by
  induction members with
  | nil => rfl
  | cons m members ih =>
    obtain ⟨other, v⟩ := m
    rw [others_cons, lookup_cons]
    split
    next ho => rw [ih, ho, if_neg (Ne.symm h)]
    next => rw [lookup_cons, ih]

/-- Where the action is not asked for, nothing depends on it. -/
theorem gives_others {names : List String} (h : "action" ∉ names) {slots : List (Option Value)} :
    Gives names (.object (others members)) slots ↔ Gives names (.object members) slots := by
  have hne : ∀ name ∈ names, name ≠ "action" := fun name hname he => h (he ▸ hname)
  have hlookup : names.map ((others members).lookup ·) = names.map (members.lookup ·) :=
    List.map_congr_left fun name hname => lookup_others (hne name hname)
  rw [gives_object_iff, gives_object_iff, hlookup]
  refine and_congr_left' (forall₂_congr fun name hname => ?_)
  rw [occurrences_others (hne name hname)]

theorem hasPayload_others (m : Message) :
    m.HasPayload (.object (others members)) ↔ m.HasPayload (.object members) := by
  cases m with
  | newWalletBalance _ => simp (disch := decide) only [HasPayload, Value.IsWallet, gives_others]
  | newStage _ => simp (disch := decide) only [HasPayload, Value.IsStage, gives_others]
  | stageEngaged _ =>
    simp (disch := decide) only [HasPayload, Value.IsEngagement, gives_others]
  | newStagePost _ _ =>
    simp (disch := decide) only [HasPayload, Value.IsStagePost, gives_others]
  | walletRemoved _ => simp (disch := decide) only [HasPayload, Value.IsToken, gives_others]
  | stageClosed _ => simp (disch := decide) only [HasPayload, Value.IsToken, gives_others]
  | openStage _ => simp (disch := decide) only [HasPayload, Value.IsToken, gives_others]

theorem sized_others (h : (Value.object members).Sized) :
    (Value.object (others members)).Sized := by
  cases h with
  | object h => exact .object fun m hm => h m (List.mem_of_mem_filter hm)

end Others

section Tag

variable {bound depth : Nat} {members : List (String × Value)}

/-- What a reader of events makes of one more member. -/
def tagged (known : Partial) (m : String × Value) : Option Partial :=
  if m.1 = "action" then
    match known.action?, Action.ofValue m.2 with
    | none, .ok a => some { known with action? := some a }
    | _, _ => none
  else some { known with members := m :: known.members }

theorem checked_eq_ok_iff {α : Type} {result : Except Mismatch α} {a : α} :
    Form.checked result = .ok a ↔ result = .ok a := by
  cases result with
  | error e => simp [Form.checked, Except.mapError]
  | ok b => simp [Form.checked, Except.mapError]

theorem scalar_of_readAction {cs rest : Text} {a : Action} (h : readAction cs = .ok (a, rest)) :
    ∃ s t, Space s ∧ Scalar t (.string a.name) ∧ cs = s ++ (t ++ rest) := by
  rw [readAction, Form.readScalar] at h
  obtain ⟨⟨g, cs₁⟩, hglimpse, hrest⟩ := exists_of_bind_eq_ok h
  obtain ⟨b, hchecked, hout⟩ := exists_of_bind_eq_ok hrest
  cases hout
  have hvalue := Action.ofValue_eq_ok_iff.mp (checked_eq_ok_iff.mp hchecked)
  obtain ⟨s, t, hs, hopens, rfl⟩ := Json.opens_of_glimpse hglimpse
  cases hopens with
  | @scalar t v ht =>
    obtain rfl : v = .string a.name := hvalue
    exact ⟨s, t, hs, ht, rfl⟩
  | sequence => cases hvalue
  | map => cases hvalue

theorem readAction_append {s t rest : Text} {a : Action} (hs : Space s)
    (ht : Scalar t (.string a.name)) (hrest : Json.Apart rest) :
    readAction (s ++ (t ++ rest)) = .ok (a, rest) := by
  have hread := Form.readScalar_of_scalar ht hrest (ofValue_name a)
  rw [Form.readScalar] at hread
  rw [readAction, Form.readScalar, Json.glimpse_behind hs]
  exact hread

theorem tagged_action_eq_some_iff {known known' : Partial} {v : Value} :
    tagged known ("action", v) = some known' ↔ known.action? = none ∧
      ∃ a : Action, v = .string a.name ∧ known' = { known with action? := some a } := by
  simp only [tagged, if_true, ← Action.ofValue_eq_ok_iff]
  cases known.action? with
  | some b => simp
  | none =>
    cases Action.ofValue v with
    | error e => simp
    | ok a => simp [eq_comm]

theorem memberSound_readMember :
    Json.MemberSound (readMember bound depth) (IsValue depth) tagged := by
  intro known key cs known' rest h
  rw [readMember] at h
  split at h
  next hkey =>
    split at h
    next => cases h
    next hnone =>
      obtain ⟨cs₁, hcolon, hrest⟩ := exists_of_bind_eq_ok h
      obtain ⟨⟨a, cs₂⟩, hread, hout⟩ := exists_of_bind_eq_ok hrest
      cases hout
      obtain ⟨s, hs, rfl⟩ := Json.space_of_expect hcolon
      obtain ⟨s', t, hs', ht, rfl⟩ := scalar_of_readAction hread
      refine ⟨s, s', t, _, hs, hs', Json.isValue_of_scalar ht depth, ?_, rfl⟩
      rw [hkey, tagged_action_eq_some_iff]
      exact ⟨hnone, a, rfl, rfl⟩
  next hkey =>
    obtain ⟨⟨members, cs₁⟩, hcollect, hout⟩ := exists_of_bind_eq_ok h
    cases hout
    obtain ⟨s, s', t, v, hs, hs', ht, hstep, rfl⟩ :=
      Json.memberSound_collect (Json.value_sound bound depth) _ _ _ _ _ hcollect
    cases hstep
    exact ⟨s, s', t, v, hs, hs', ht, if_neg hkey, rfl⟩

theorem memberComplete_readMember :
    Json.MemberComplete (readMember bound depth) (IsValue depth) tagged bound := by
  intro known key v known' s s' t rest hs hs' ht hstep hsize hrest
  by_cases hkey : key = "action"
  · subst hkey
    obtain ⟨hnone, a, rfl, rfl⟩ := tagged_action_eq_some_iff.mp hstep
    rw [readMember, if_pos rfl, hnone, Json.colon_eq, Json.expect_behind ':' rfl hs]
    simp only [bind, Except.bind, readAction_append hs' (Json.scalar_of_string ht) hrest]
    rfl
  · rw [tagged, if_neg hkey] at hstep
    cases hstep
    have hcollect := Json.memberComplete_collect (Json.value_complete bound depth) known.members
      key v _ s s' t rest hs hs' ht rfl hsize hrest
    rw [readMember, if_neg hkey]
    simp only [bind, Except.bind, hcollect]
    rfl

/-- The members that name the action. -/
def actions (members : List (String × Value)) : List (String × Value) :=
  members.filter (·.1 = "action")

theorem actions_cons (name : String) (v : Value) (members : List (String × Value)) :
    actions ((name, v) :: members) =
      if name = "action" then (name, v) :: actions members else actions members := by
  by_cases h : name = "action"
  · simp [actions, h]
  · simp [actions, h]

/-- Behind an action, no other may come. -/
theorem foldlM_tagged_of_some {a : Action} {known : List (String × Value)} {last : Partial} :
    members.foldlM tagged ⟨some a, known⟩ = some last ↔
      actions members = [] ∧ last = ⟨some a, (others members).reverse ++ known⟩ := by
  induction members generalizing known with
  | nil => simp [actions, others, eq_comm]
  | cons m members ih =>
    obtain ⟨name, v⟩ := m
    rw [List.foldlM_cons, actions_cons, others_cons]
    by_cases h : name = "action"
    · subst h
      have hnone : tagged ⟨some a, known⟩ ("action", v) = none := rfl
      simp [hnone]
    · have hnext : tagged ⟨some a, known⟩ (name, v) = some ⟨some a, (name, v) :: known⟩ :=
        if_neg h
      rw [hnext, if_neg h, if_neg h, List.reverse_cons, List.append_assoc]
      exact ih

theorem foldlM_tagged {a : Action} {known last : List (String × Value)} :
    members.foldlM tagged ⟨none, known⟩ = some ⟨some a, last⟩ ↔
      actions members = [("action", .string a.name)] ∧
        last = (others members).reverse ++ known := by
  induction members generalizing known with
  | nil => simp [actions]
  | cons m members ih =>
    obtain ⟨name, v⟩ := m
    rw [List.foldlM_cons, actions_cons, others_cons]
    by_cases h : name = "action"
    · subst h
      rw [if_pos rfl, if_pos rfl]
      constructor
      · intro hlast
        obtain ⟨known', hstep, hlast⟩ := Option.bind_eq_some_iff.mp hlast
        obtain ⟨-, b, rfl, rfl⟩ := tagged_action_eq_some_iff.mp hstep
        obtain ⟨hnone, he⟩ := foldlM_tagged_of_some.mp hlast
        cases he
        rw [hnone]
        exact ⟨rfl, rfl⟩
      · rintro ⟨hactions, rfl⟩
        obtain ⟨hv, hnone⟩ := List.cons.inj hactions
        cases hv
        have hnext : tagged ⟨none, known⟩ ("action", .string a.name) = some ⟨some a, known⟩ :=
          tagged_action_eq_some_iff.mpr ⟨rfl, a, rfl, rfl⟩
        rw [hnext]
        exact foldlM_tagged_of_some.mpr ⟨hnone, rfl⟩
    · have hnext : tagged ⟨none, known⟩ (name, v) = some ⟨none, (name, v) :: known⟩ := if_neg h
      rw [hnext, if_neg h, if_neg h, List.reverse_cons, List.append_assoc]
      exact ih

theorem announcedAs_eq (m : Message) : m.announcedAs = m.action.name := by
  cases m
  all_goals rfl

/-- A value has been read as an action and a payload, from which the events of the value follow. -/
def Splits (v : Value) (a : Action) (payload : Value) : Prop :=
  ∀ m, ofPayload a payload = .ok m ↔ m.action = a ∧ m.IsGivenBy v

theorem splits_array {a : Action} {items : List Value} (h : (Value.array items).Sized) :
    Splits (.array (.string a.name :: items)) a (.array items) := by
  intro m
  rw [ofPayload_eq_ok_iff h, IsGivenBy, announcedAs_eq]
  constructor
  · rintro ⟨rfl, hp⟩
    exact ⟨rfl, _, .array, hp⟩
  · rintro ⟨rfl, _, ⟨⟩, hp⟩
    exact ⟨rfl, hp⟩

theorem splits_object {a : Action} (h : (Value.object members).Sized)
    (hactions : actions members = [("action", .string a.name)]) :
    Splits (.object members) a (.object (others members)) := by
  intro m
  rw [ofPayload_eq_ok_iff (sized_others h), hasPayload_others, IsGivenBy, announcedAs_eq]
  constructor
  · rintro ⟨rfl, hp⟩
    exact ⟨rfl, _, .object hactions, hp⟩
  · rintro ⟨rfl, _, ⟨⟩, hp⟩
    exact ⟨rfl, hp⟩

theorem sized_of_array {depth : Nat} {t : Text} {v : Value} {items : List Value}
    (h : Parts (IsValue depth) true t (v :: items)) : (Value.array items).Sized :=
  .array fun w hw => h.forall (fun _ _ hv => Json.sized_of_isValue hv) w (List.mem_cons_of_mem v hw)

/-- What is read as an action and a payload is the text of a value that splits so. -/
theorem isValue_of_readTagged {cs rest : Text} {a : Action} {payload : Value}
    (h : readTagged bound cs = .ok ((a, payload), rest)) :
    ∃ s t v, Space s ∧ IsValue Schema.maxDepth t v ∧ Splits v a payload ∧
      cs = s ++ (t ++ rest) := by
  have hdepth : IsValue Schema.maxDepth = Composed (IsValue (Schema.maxDepth - 1)) := rfl
  rw [hdepth]
  obtain ⟨⟨g, cs₁⟩, hglimpse, hkind⟩ := exists_of_bind_eq_ok h
  obtain ⟨s, t, hs, hopens, rfl⟩ := Json.opens_of_glimpse hglimpse
  cases hopens with
  | scalar _ => cases hkind
  | sequence =>
    obtain ⟨next?, hnext, hrest⟩ := exists_of_bind_eq_ok hkind
    cases next? with
    | none => cases hrest
    | some cs₂ =>
      obtain ⟨⟨b, cs₃⟩, hread, hrest⟩ := exists_of_bind_eq_ok hrest
      obtain ⟨⟨items, cs₄⟩, hitems, hout⟩ := exists_of_bind_eq_ok hrest
      cases hout
      obtain ⟨u, hu, rfl⟩ := Json.lead_of_nextElement hnext
      obtain ⟨u', first, hu', hfirst, rfl⟩ := scalar_of_readAction hread
      obtain ⟨more, others, hmore, rfl, hothers⟩ :=
        Json.parts_of_elements (Json.value_sound bound _) hitems
      have hparts : Parts (IsValue (Schema.maxDepth - 1)) true (u ++ u' ++ (first ++ more))
          (.string a.name :: items) :=
        .cons (hu.append hu') (Json.isValue_of_scalar hfirst _) (hothers ▸ hmore)
      exact ⟨s, _, _, hs, .array hparts, splits_array (sized_of_array hparts), by simp⟩
  | map =>
    obtain ⟨⟨known, cs₂⟩, hmembers, hrest⟩ := exists_of_bind_eq_ok hkind
    obtain ⟨action?, collected⟩ := known
    cases action? with
    | none => cases hrest
    | some b =>
      cases hrest
      obtain ⟨inner, members, hparts, rfl, hfold⟩ :=
        Json.parts_of_members memberSound_readMember hmembers
      obtain ⟨hactions, rfl⟩ := foldlM_tagged.mp hfold
      have hvalue : IsValue (Schema.maxDepth - 1 + 1) ('{' :: (inner ++ ['}']))
          (.object members) := .object hparts
      have hsplits := splits_object (Json.sized_of_isValue hvalue) hactions
      rw [List.append_nil, List.reverse_reverse]
      exact ⟨s, _, _, hs, hvalue, hsplits, by simp⟩

theorem readTagged_object {t rest : Text} {a : Action}
    (ht : Composed (IsValue (Schema.maxDepth - 1)) t (.object members))
    (hactions : actions members = [("action", .string a.name)]) (hsize : t.length ≤ bound) :
    readTagged bound (t ++ rest) = .ok ((a, .object (others members)), rest) := by
  obtain ⟨inner, rfl, hparts⟩ := Json.parts_of_object ht
  simp only [List.length_cons, List.length_append, List.length_nil] at hsize
  have hcount := hparts.length_le
  rw [Bool.toNat_true] at hcount
  have hbound : members.length < bound := by omega
  have hcomplete : Json.MemberComplete (readMember bound (Schema.maxDepth - 1))
      (IsValue (Schema.maxDepth - 1)) tagged bound := memberComplete_readMember
  have hfold : members.foldlM tagged {} = some ⟨some a, (others members).reverse ++ []⟩ :=
    foldlM_tagged.mpr ⟨hactions, rfl⟩
  have hmembers := Json.members_of_parts hcomplete hparts (by omega) hbound hfold rest
  have htext : '{' :: (inner ++ ['}']) ++ rest = '{' :: (inner ++ '}' :: rest) := by simp
  rw [htext, readTagged, Json.glimpse_map]
  simp only [bind, Except.bind, hmembers, List.append_nil, List.reverse_reverse]
  rfl

theorem readTagged_array {t rest : Text} {a : Action} {items : List Value}
    (ht : Composed (IsValue (Schema.maxDepth - 1)) t (.array (.string a.name :: items)))
    (hsize : t.length ≤ bound) :
    readTagged bound (t ++ rest) = .ok ((a, .array items), rest) := by
  obtain ⟨inner, rfl, hparts⟩ := Json.parts_of_array ht
  simp only [List.length_cons, List.length_append, List.length_nil] at hsize
  cases hparts with
  | @cons _ u first more _ _ hu hfirst hmore =>
    simp only [List.length_append] at hsize
    have hcount := hmore.length_le
    rw [Bool.toNat_false] at hcount
    have hbound : items.length < bound := by omega
    have hrest : Json.Apart (more ++ ']' :: rest) := hmore.apart (by simp [Json.Apart])
    have hread := readAction_append (s := []) (by simp [Space]) (Json.scalar_of_string hfirst) hrest
    obtain ⟨c, cs, rfl, hspace, hclose⟩ := Json.begins_isValue _ _ _ hfirst
    have hitems := Json.elements_of_parts (Json.value_complete bound (Schema.maxDepth - 1))
      (Json.begins_isValue _) hmore (by omega) hbound [] rest
    have htext : '[' :: (u ++ (c :: cs ++ more) ++ [']']) ++ rest =
        '[' :: (u ++ c :: (cs ++ (more ++ ']' :: rest))) := by simp
    rw [htext, readTagged, Json.glimpse_sequence]
    simp only [List.nil_append, List.cons_append] at hread
    simp only [bind, Except.bind, Json.nextElement_behind hu hspace hclose, hread, hitems]
    rfl

theorem readTagged_behind {s : Text} (hs : Space s) (cs : Text) :
    readTagged bound (s ++ cs) = readTagged bound cs := by
  rw [readTagged, Json.glimpse_behind hs, readTagged]

/-- A value that gives an event is read as an action and a payload. -/
theorem readTagged_append {s t rest : Text} {v : Value} {m : Message} (hs : Space s)
    (ht : IsValue Schema.maxDepth t v) (hm : m.IsGivenBy v) (hsize : t.length ≤ bound) :
    ∃ payload, readTagged bound (s ++ (t ++ rest)) = .ok ((m.action, payload), rest) ∧
      Splits v m.action payload := by
  have hsized := Json.sized_of_isValue ht
  rw [readTagged_behind hs]
  obtain ⟨payload, htagged, -⟩ := hm
  rw [announcedAs_eq] at htagged
  cases htagged with
  | object hactions =>
    exact ⟨_, readTagged_object ht hactions hsize, splits_object hsized hactions⟩
  | array =>
    cases hsized with
    | array h =>
      have hitems := fun w hw => h w (List.mem_cons_of_mem _ hw)
      exact ⟨_, readTagged_array ht hsize, splits_array (.array hitems)⟩

end Tag

/-- A text decodes to an event exactly if it is a JSON text of a value that gives the event. -/
theorem decode_eq_ok_iff (text : String) (m : Message) :
    decode text = .ok m ↔
      ∃ v, Document 127 text.toList v ∧ m.IsGivenBy v := by
  constructor
  · intro h
    obtain ⟨⟨⟨a, payload⟩, rest⟩, htagged, hrest⟩ := exists_of_bind_eq_ok h
    obtain ⟨m', hpayload, hrest⟩ := exists_of_bind_eq_ok hrest
    obtain ⟨⟨⟩, hfinish, hout⟩ := exists_of_bind_eq_ok hrest
    cases hout
    obtain ⟨s, t, v, hs, ht, hsplits, htext⟩ := isValue_of_readTagged htagged
    obtain ⟨-, hm⟩ := (hsplits m).mp (checked_eq_ok_iff.mp hpayload)
    exact ⟨v, ⟨s, t, rest, hs, ht, Json.finish_eq_ok_iff.mp hfinish, htext⟩, hm⟩
  · rintro ⟨v, ⟨s, t, s', hs, ht, hs', htext⟩, hm⟩
    have hsize : t.length ≤ text.length := by
      have hlength := congrArg List.length htext
      rw [String.length_toList, List.length_append, List.length_append] at hlength
      omega
    obtain ⟨payload, htagged, hsplits⟩ := readTagged_append hs ht hm hsize
    have hpayload := (hsplits m).mpr ⟨rfl, hm⟩
    rw [decode, htext, htagged]
    simp only [bind, Except.bind, checked_eq_ok_iff.mpr hpayload, Json.finish_eq_ok_iff.mpr hs']
    rfl

end Message

end LiveFeed
