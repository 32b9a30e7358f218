import LiveFeed.Proofs.PlainDecoding

namespace LiveFeed

open Json (Value Text Space IsValue Scalar Lead Parts Member Document)

namespace Json

/-- Space around a part. -/
def Spaced {α : Type} (part : Text → α → Prop) (text : Text) (a : α) : Prop :=
  ∃ s t s', Space s ∧ part t a ∧ Space s' ∧ text = s ++ (t ++ s')

section Spaced

variable {α : Type} {part : Text → α → Prop} {t : Text} {a : α}

theorem spaced_of_part (h : part t a) : Spaced part t a :=
  ⟨[], t, [], List.forall_mem_nil _, h, List.forall_mem_nil _, (List.append_nil t).symm⟩

theorem Spaced.imp {part' : Text → α → Prop} (hpart : ∀ t a, part t a → part' t a)
    (h : Spaced part t a) : Spaced part' t a := by
  obtain ⟨s, t, s', hs, ht, hs', rfl⟩ := h
  exact ⟨s, t, s', hs, hpart _ _ ht, hs', rfl⟩

end Spaced

/-- The parts between two brackets and one more, that has the text `added` and stands between
`front` and `back`. -/
inductive Adds {α : Type} (part : Text → α → Prop) (added : Text) :
    (front back : List α) → (t t' : Text) → Prop where
  | alone {s : Text} (hs : Space s) : Adds part added [] [] s (added ++ s)
  | ahead {t : Text} {a : α} {as : List α} (h : Parts part true t (a :: as)) :
      Adds part added [] (a :: as) t (added ++ ',' :: t)
  | behind {before after : Text} {a : α} {as bs : List α}
      (hbefore : Parts part true before (a :: as)) (hafter : Parts part false after bs) :
      Adds part added (a :: as) bs (before ++ after) (before ++ ',' :: (added ++ after))

section Parts

variable {α : Type} {part : Text → α → Prop} {first : Bool} {t t' : Text} {as bs : List α}

/-- Space behind the last part counts to what follows. -/
theorem Parts.pad {s : Text} (hs : Space s) (h : Parts part false t as) :
    Parts part false (s ++ t) as := by
  cases h with
  | nil hs' => exact .nil (hs.append hs')
  | cons hu ht hmore =>
    cases hu with
    | @comma u u' hu hu' =>
      have hlead : Lead false (s ++ u ++ ',' :: u') := .comma (hs.append hu) hu'
      simpa using Parts.cons hlead ht hmore

theorem Parts.append (h : Parts part first t as) (h' : Parts part false t' bs)
    (hne : as ≠ []) : Parts part first (t ++ t') (as ++ bs) := by
  induction h with
  | nil hs => exact absurd rfl hne
  | @cons first u t more a as hu ht hmore ih =>
    rw [List.append_assoc, List.append_assoc, List.cons_append]
    refine .cons hu ht ?_
    cases hmore with
    | nil hs => exact h'.pad hs
    | cons hu ht hmore => exact ih (List.cons_ne_nil _ _)

theorem Parts.split (h : Parts part false t (as ++ bs)) :
    ∃ before after, t = before ++ after ∧ Parts part false before as ∧
      Parts part false after bs := by
  induction as generalizing t with
  | nil => exact ⟨[], t, rfl, .nil (List.forall_mem_nil _), h⟩
  | cons a as ih =>
    cases h with
    | cons hu ht hmore =>
      obtain ⟨before, after, rfl, hbefore, hafter⟩ := ih hmore
      exact ⟨_, after, by simp, .cons hu ht hbefore, hafter⟩

/-- In front of what stands behind a part, one more part may stand, with a comma. -/
theorem Parts.behind {added : Text} {a : α} (hadded : Spaced part added a)
    (h : Parts part false t as) : Parts part false (',' :: (added ++ t)) (a :: as) := by
  obtain ⟨s, t', s', hs, ht, hs', rfl⟩ := hadded
  have hlead : Lead false ([] ++ ',' :: s) := .comma (List.forall_mem_nil _) hs
  simpa using Parts.cons hlead ht (h.pad hs')

theorem Parts.ahead {added : Text} {a b : α} (hadded : Spaced part added a)
    (h : Parts part true t (b :: bs)) : Parts part true (added ++ ',' :: t) (a :: b :: bs) := by
  obtain ⟨s, t', s', hs, ht, hs', rfl⟩ := hadded
  cases h with
  | @cons _ u t more b bs hu hb hmore =>
    cases hu with
    | first hu =>
      have hlead : Lead false (s' ++ ',' :: u) := .comma hs' hu
      simpa using Parts.cons (.first hs) ht (.cons hlead hb hmore)

theorem Adds.parts {added : Text} {a : α} {front back : List α} (hadded : Spaced part added a)
    (h : Adds part added front back t t') :
    Parts part true t (front ++ back) ∧ Parts part true t' (front ++ a :: back) := by
  cases h with
  | alone hs =>
    obtain ⟨s, t, s', hs', ht, hs'', rfl⟩ := hadded
    refine ⟨.nil hs, ?_⟩
    simpa using Parts.cons (.first hs') ht (.nil (hs''.append hs))
  | ahead h => exact ⟨h, h.ahead hadded⟩
  | behind hbefore hafter =>
    exact ⟨hbefore.append hafter (List.cons_ne_nil _ _),
      hbefore.append (hafter.behind hadded) (List.cons_ne_nil _ _)⟩

/-- There is room for one more part in each place. -/
theorem exists_adds {front back : List α} (h : Parts part true t (front ++ back)) (added : Text) :
    ∃ t', Adds part added front back t t' := by
  cases front with
  | nil =>
    cases h with
    | nil hs => exact ⟨_, .alone hs⟩
    | cons hu ht hmore => exact ⟨_, .ahead (.cons hu ht hmore)⟩
  | cons a front =>
    cases h with
    | cons hu ht hmore =>
      obtain ⟨before, after, rfl, hbefore, hafter⟩ := hmore.split
      have hadds : Adds part added (a :: front) back _ _ :=
        .behind (.cons hu ht hbefore) hafter
      simp only [List.append_assoc] at hadds
      exact ⟨_, hadds⟩

end Parts

/-- A text is the text of one value only. -/
theorem Document.unique {depth depth' : Nat} {text : Text} {v v' : Value}
    (h : Document depth text v) (h' : Document depth' text v') : v = v' := by
  -- one reader takes both values off the text, and it has only one result
  have hread : ∀ {depth₀ v₀}, depth₀ ≤ max depth depth' → Document depth₀ text v₀ →
      ∃ rest, value text.length (max depth depth') text = .ok (v₀, rest) := by
    rintro depth₀ v₀ hle ⟨s, t, s', hs, ht, hs', rfl⟩
    have hsize : t.length ≤ (s ++ (t ++ s')).length := by
      simp only [List.length_append]
      omega
    exact ⟨s', value_complete _ _ s t v₀ s' hs (isValue_mono hle ht) hsize (apart_of_space hs')⟩
  obtain ⟨rest, hv⟩ := hread (Nat.le_max_left _ _) h
  obtain ⟨rest', hv'⟩ := hread (Nat.le_max_right _ _) h'
  rw [hv] at hv'
  cases hv'
  rfl

theorem Document.mono {depth depth' : Nat} (hle : depth ≤ depth') {text : Text} {v : Value}
    (h : Document depth text v) : Document depth' text v := by
  obtain ⟨s, t, s', hs, ht, hs', rfl⟩ := h
  exact ⟨s, t, s', hs, isValue_mono hle ht, hs', rfl⟩

end Json

/-- A record without an action: an array, or an object that has no such member. -/
inductive Json.Value.Plain : Value → Prop where
  | object {members : List (String × Value)} (h : ∀ m ∈ members, m.1 ≠ "action") :
      Plain (.object members)
  | array {items : List Value} : Plain (.array items)

/-- A record with its action, as a member in some place or as the first element. -/
inductive Json.Value.Labelled (name : String) : Value → Value → Prop where
  | object {front back : List (String × Value)} :
      Labelled name (.object (front ++ back)) (.object (front ++ ("action", .string name) :: back))
  | array {items : List Value} : Labelled name (.array items) (.array (.string name :: items))

namespace Message

/-- The text of a record, and the text with an action added. -/
inductive Labels (name : String) : (text text' : Text) → Prop where
  | object {s s' t t' tag : Text} {front back : List (String × Value)} (hs : Space s)
      (hs' : Space s') (htag : Json.Spaced (Member Scalar) tag ("action", .string name))
      (h : Json.Adds (Member (IsValue 126)) tag front back t t') :
      Labels name (s ++ ('{' :: (t ++ ['}']) ++ s')) (s ++ ('{' :: (t' ++ ['}']) ++ s'))
  | array {s s' t t' tag : Text} {items : List Value} (hs : Space s) (hs' : Space s')
      (htag : Json.Spaced Scalar tag (.string name))
      (h : Json.Adds (IsValue 126) tag [] items t t') :
      Labels name (s ++ ('[' :: (t ++ [']']) ++ s')) (s ++ ('[' :: (t' ++ [']']) ++ s'))

section Labels

variable {name : String} {text text' : Text} {v v' : Value}

theorem spaced_member {depth : Nat} {tag : Text} {m : String × Value}
    (h : Json.Spaced (Member Scalar) tag m) : Json.Spaced (Member (IsValue depth)) tag m :=
  h.imp fun _ _ hm => hm.imp fun _ _ hv => Json.isValue_of_scalar hv depth

theorem spaced_item {depth : Nat} {tag : Text} (h : Json.Spaced Scalar tag v) :
    Json.Spaced (IsValue depth) tag v :=
  h.imp fun _ _ hv => Json.isValue_of_scalar hv depth

/-- Both texts are of values, one of which has the action. -/
theorem Labels.documents (h : Labels name text text') :
    ∃ v v', v.Labelled name v' ∧ Document 127 text v ∧
      Document 127 text' v' := by
  cases h with
  | @object s s' t t' tag front back hs hs' htag h =>
    obtain ⟨hplain, hlabelled⟩ := h.parts (spaced_member htag)
    exact ⟨_, _, .object, ⟨s, _, s', hs, .object hplain, hs', rfl⟩,
      ⟨s, _, s', hs, .object hlabelled, hs', rfl⟩⟩
  | @array s s' t t' tag items hs hs' htag h =>
    obtain ⟨hplain, hlabelled⟩ := h.parts (spaced_item htag)
    exact ⟨_, _, .array, ⟨s, _, s', hs, .array hplain, hs', rfl⟩,
      ⟨s, _, s', hs, .array hlabelled, hs', rfl⟩⟩

/-- Wherever the action stands in a record, there is such a text. -/
theorem exists_labels (h : Document 127 text v) (hv : v.Labelled name v') :
    ∃ text', Labels name text text' ∧ Document 127 text' v' := by
  obtain ⟨s, t, s', hs, ht, hs', rfl⟩ := h
  have hname := Json.scalar_string name
  cases hv with
  | @object front back =>
    obtain ⟨inner, rfl, hparts⟩ := Json.parts_of_object ht
    have htag : Json.Spaced (Member Scalar) (Json.writeMember "action" (Json.writeString name))
        ("action", .string name) :=
      Json.spaced_of_part (Json.member_writeMember "action" (s := []) (List.forall_mem_nil _) hname)
    obtain ⟨inner', hadds⟩ := Json.exists_adds hparts _
    obtain ⟨-, hlabelled⟩ := hadds.parts (spaced_member htag)
    exact ⟨_, .object hs hs' htag hadds, ⟨s, _, s', hs, .object hlabelled, hs', rfl⟩⟩
  | @array items =>
    obtain ⟨inner, rfl, hparts⟩ := Json.parts_of_array ht
    have htag := Json.spaced_of_part hname
    obtain ⟨inner', hadds⟩ := Json.exists_adds (List.nil_append items ▸ hparts) _
    obtain ⟨-, hlabelled⟩ := hadds.parts (spaced_item htag)
    exact ⟨_, .array hs hs' htag hadds, ⟨s, _, s', hs, .array hlabelled, hs', rfl⟩⟩

end Labels

section Decode

variable {a : Action} {text : String} {v v' : Value} {members : List (String × Value)}

theorem decode_of_readTagged {payload : Value} {rest : Text}
    (h : readTagged text.length text.toList = .ok ((a, payload), rest)) (hrest : Space rest)
    (m : Message) : decode text = .ok m ↔ ofPayload a payload = .ok m := by
  rw [decode, h]
  simp only [bind, Except.bind]
  cases ofPayload a payload with
  | error e => simp [Form.checked, Except.mapError]
  | ok m' =>
    simp [Form.checked, Except.mapError, Json.finish_eq_ok_iff.mpr hrest, pure, Except.pure]

theorem decode_object (h : Document 127 text.toList (.object members))
    (hactions : actions members = [("action", .string a.name)]) (m : Message) :
    decode text = .ok m ↔ ofPayload a (.object (others members)) = .ok m := by
  obtain ⟨s, t, s', hs, ht, hs', htext⟩ := h
  refine decode_of_readTagged ?_ hs' m
  rw [htext, readTagged_behind hs, readTagged_object ht hactions]
  exact Json.length_le_of_toList htext

theorem decode_array {items : List Value}
    (h : Document 127 text.toList (.array (.string a.name :: items))) (m : Message) :
    decode text = .ok m ↔ ofPayload a (.array items) = .ok m := by
  obtain ⟨s, t, s', hs, ht, hs', htext⟩ := h
  refine decode_of_readTagged ?_ hs' m
  rw [htext, readTagged_behind hs, readTagged_array ht]
  exact Json.length_le_of_toList htext

theorem actions_append (front back : List (String × Value)) :
    actions (front ++ back) = actions front ++ actions back := List.filter_append _ _

theorem others_append (front back : List (String × Value)) :
    others (front ++ back) = others front ++ others back := List.filter_append _ _

theorem actions_of_plain (h : ∀ m ∈ members, m.1 ≠ "action") : actions members = [] := by
  simpa [actions] using h

theorem others_of_plain (h : ∀ m ∈ members, m.1 ≠ "action") : others members = members := by
  simpa [others] using h

/-- With its action a record is decoded as the payload that it is. -/
theorem decode_of_labelled (hplain : v.Plain) (hv : v.Labelled a.name v')
    (h : Document 127 text.toList v') (m : Message) :
    decode text = .ok m ↔ ofPayload a v = .ok m := by
  cases hv with
  | @object front back =>
    cases hplain with
    | object hplain =>
      obtain ⟨hfront, hback⟩ := List.forall_mem_append.mp hplain
      have hactions : actions (front ++ ("action", .string a.name) :: back) =
          [("action", .string a.name)] := by
        rw [actions_append, actions_cons, if_pos rfl, actions_of_plain hfront,
          actions_of_plain hback]
        rfl
      have hothers : others (front ++ ("action", .string a.name) :: back) = front ++ back := by
        rw [others_append, others_cons, if_pos rfl, others_of_plain hfront, others_of_plain hback]
      rw [decode_object h hactions, hothers]
  | array => exact decode_array h m

end Decode

/-- The text of a record within the event of a post. -/
def postText (stage record : Text) : Text :=
  Json.writeObject [Json.writeMember "action" (Json.writeString "NewStagePost"),
    Json.writeMember "stage" stage, Json.writeMember "post" record]

section Post

variable {text : String} {v : Value} {stage : String} {quoted record : Text}

theorem document_postText (hstage : Scalar quoted (.string stage))
    (h : Document 126 record v) : Document 127 (postText quoted record)
      (.object [("action", .string "NewStagePost"), ("stage", .string stage), ("post", v)]) := by
  obtain ⟨s, t, s', hs, ht, hs', rfl⟩ := h
  have hnil : Space [] := List.forall_mem_nil _
  have hcomma : Lead false ([] ++ ',' :: []) := .comma hnil hnil
  have hname := Json.isValue_of_scalar (Json.scalar_string "NewStagePost") 126
  have haction := Json.member_writeMember "action" (s := []) hnil hname
  have hstage := Json.member_writeMember "stage" (s := []) hnil
    (Json.isValue_of_scalar hstage 126)
  have hpost := Json.member_writeMember "post" hs ht
  have hparts := Parts.cons (.first hnil) haction
    (.cons hcomma hstage (.cons hcomma hpost (.nil hs')))
  refine ⟨[], _, [], hnil, .object hparts, hnil, ?_⟩
  simp [postText, Json.writeObject, Json.writeList, Json.writeMember]

theorem ofPayload_newStagePost (post : Post) :
    ofPayload .newStagePost (.object [("stage", .string stage), ("post", v)]) =
        .ok (.newStagePost stage post) ↔ Post.schema.ofValue v = .ok post := by
  have hnames : (postSchema.fields.map Field.name).Nodup := by decide
  have hholds : ∀ s p, Row.Holds postSchema.fields [some (.string stage), some v] (s, p, ()) ↔
      s = stage ∧ Post.schema.ofValue v = .ok p := by
    intro s p
    have htext : Form.text.ofValue (.string stage) = .ok s ↔ s = stage := by
      simp [Form.text, Form.textOf, eq_comm]
    exact Row.holds_cons.trans (and_congr htext (Row.holds_cons.trans (and_iff_left rfl)))
  have honce : ∀ name ∈ postSchema.fields.map Field.name,
      occurrences [("stage", .string stage), ("post", v)] name ≤ 1 := by
    simp [postSchema, occurrences]
  rw [ofPayload, map_eq_ok_iff]
  constructor
  · rintro ⟨⟨s, p⟩, hvalue, he⟩
    cases he
    obtain ⟨-, ⟨s, p, ⟨⟩⟩, hrow, hout⟩ := (Schema.ofMembers_eq_ok_iff hnames).mp hvalue
    cases hout
    exact ((hholds _ _).mp hrow).2
  · intro h
    have hrow := (hholds stage post).mpr ⟨rfl, h⟩
    exact ⟨(stage, post), (Schema.ofMembers_eq_ok_iff hnames).mpr ⟨honce, _, hrow, rfl⟩, rfl⟩

theorem decode_postText (hstage : Scalar quoted (.string stage))
    (h : Document 126 text.toList v) (post : Post) :
    Post.schema.decode text = .ok post ↔
      decode (String.ofList (postText quoted text.toList)) = .ok (.newStagePost stage post) := by
  have hdocument := document_postText hstage h
  rw [← String.toList_ofList (l := postText quoted text.toList)] at hdocument
  rw [Schema.decode_text_eq_ok_iff Post.agrees_fields (h.mono (by decide)),
    decode_object (a := .newStagePost) hdocument rfl]
  exact (ofPayload_newStagePost post).symm

end Post

/-- A record is read from its text as the event is that the text becomes with its action. -/
theorem decode_of_labels {α : Type} {s : Schema α} {event : α → Message} (a : Action)
    {text text' : String} {v : Value} (hfields : ∀ f ∈ s.fields, f.form.Agrees)
    (hevent : ∀ r r', event r = event r' → r = r')
    (hpayload : ofPayload a v = event <$> s.ofValue v)
    (h : Document 127 text.toList v) (hplain : v.Plain)
    (hlabels : Labels a.name text.toList text'.toList) (r : α) :
    s.decode text = .ok r ↔ decode text' = .ok (event r) := by
  obtain ⟨v₀, v', hv, hdocument, hdocument'⟩ := hlabels.documents
  obtain rfl := h.unique hdocument
  rw [Schema.decode_text_eq_ok_iff hfields h, decode_of_labelled hplain hv hdocument', hpayload,
    map_eq_ok_iff_of_injective hevent]

/--
A record has the same reading whether its fields are judged as they are read or after all of the
text is: plainly, or with the action of an event added in any place.
-/
theorem labelled_agrees (text : String) {v : Value}
    (h : Document 126 text.toList v) (hplain : v.Plain) :
    (∀ name v', v.Labelled name v' → ∃ text', Labels name text.toList text' ∧
        Document 127 text' v') ∧
      (∀ text' : String, Labels "NewWalletBalance" text.toList text'.toList → ∀ wallet,
        Wallet.schema.decode text = .ok wallet ↔ decode text' = .ok (.newWalletBalance wallet)) ∧
      (∀ text' : String, Labels "NewStage" text.toList text'.toList → ∀ stage,
        Stage.schema.decode text = .ok stage ↔ decode text' = .ok (.newStage stage)) ∧
      (∀ text' : String, Labels "StageEngaged" text.toList text'.toList → ∀ engagement,
        Engagement.schema.decode text = .ok engagement ↔
          decode text' = .ok (.stageEngaged engagement)) ∧
      ∀ quoted stage, Scalar quoted (.string stage) → ∀ post,
        Post.schema.decode text = .ok post ↔
          decode (String.ofList (postText quoted text.toList)) =
            .ok (.newStagePost stage post) := by
  have hdocument : Document 127 text.toList v := h.mono (by decide)
  refine ⟨fun a v' hv => exists_labels hdocument hv, ?_, ?_, ?_, ?_⟩
  · intro text' hlabels wallet
    exact decode_of_labels .newWalletBalance Wallet.agrees_fields
      (fun _ _ => newWalletBalance.inj) rfl hdocument hplain hlabels wallet
  · intro text' hlabels stage
    exact decode_of_labels .newStage Stage.agrees_fields (fun _ _ => newStage.inj) rfl hdocument
      hplain hlabels stage
  · intro text' hlabels engagement
    exact decode_of_labels .stageEngaged Engagement.agrees_fields (fun _ _ => stageEngaged.inj)
      rfl hdocument hplain hlabels engagement
  · intro quoted stage hstage post
    exact decode_postText hstage h post

/-- The action may stand between the two fields of a wallet. -/
theorem labelled_agrees_wallet :
    ∃ record labelled : Text,
      record = Json.writeObject [Json.writeMember "token" (Json.writeString "0x1f"),
        Json.writeMember "balance" (Json.writeString "20,934")] ∧
      labelled = Json.writeObject [Json.writeMember "token" (Json.writeString "0x1f"),
        Json.writeMember "action" (Json.writeString "NewWalletBalance"),
        Json.writeMember "balance" (Json.writeString "20,934")] ∧
      Document 126 record
        (.object [("token", .string "0x1f"), ("balance", .string "20,934")]) ∧
      Labels "NewWalletBalance" record labelled ∧
      decode (String.ofList labelled) = .ok (.newWalletBalance ⟨"0x1f", 20934, none⟩) := by
  have hnil : Space [] := List.forall_mem_nil _
  have hcomma : Lead false ([] ++ ',' :: []) := .comma hnil hnil
  have hmember : ∀ depth name s, Member (IsValue depth)
      (Json.writeMember name (Json.writeString s)) (name, .string s) := fun depth name s =>
    Json.member_writeMember name (s := []) hnil
      (Json.isValue_of_scalar (Json.scalar_string s) depth)
  -- the text itself may nest less deep than what it becomes, so its parts are stated for any depth
  have hbefore : ∀ depth, Parts (Member (IsValue depth)) true _ _ := fun depth =>
    .cons (.first hnil) (hmember depth "token" "0x1f") (.nil hnil)
  have hafter : ∀ depth, Parts (Member (IsValue depth)) false _ _ := fun depth =>
    .cons hcomma (hmember depth "balance" "20,934") (.nil hnil)
  have htag : Json.Spaced (Member Scalar)
      (Json.writeMember "action" (Json.writeString "NewWalletBalance"))
      ("action", .string Action.newWalletBalance.name) :=
    Json.spaced_of_part (Json.member_writeMember "action" (s := []) hnil (Json.scalar_string _))
  have hparts := (hbefore 125).append (hafter _) (List.cons_ne_nil _ _)
  have hdocument : Document 126 _ _ :=
    ⟨[], _, [], hnil, .object hparts, hnil, rfl⟩
  have hlabels := Labels.object hnil hnil htag (.behind (hbefore _) (hafter _))
  have hplain : (Value.object [("token", .string "0x1f"), ("balance", .string "20,934")]).Plain :=
    .object (by decide)
  refine ⟨_, _, rfl, rfl, hdocument, hlabels, ?_⟩
  have hagrees := labelled_agrees (String.ofList _) (by rwa [String.toList_ofList]) hplain
  refine (hagrees.2.1 _ ?_ _).mp (by decide +kernel)
  rwa [String.toList_ofList, String.toList_ofList]

end Message

end LiveFeed
