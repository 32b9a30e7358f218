import LiveFeed.Message
import LiveFeed.Proofs.Faithful

namespace LiveFeed

open Json (Apart ReadsAll Accepts)

variable {height : Nat}

theorem Wallet.faithful_schema : schema.Faithful height where
  fields := by
    simp only [schema, fields, List.forall_mem_cons]
    exact ⟨Field.faithful_of_form Form.faithful_text, Field.faithful_of_form Form.faithful_balance,
      Field.faithful_optionalText, by simp⟩
  names := by decide
  rows _ := rfl

theorem Stage.faithful_schema : schema.Faithful height where
  fields := by
    simp only [schema, fields, List.forall_mem_cons]
    exact ⟨Field.faithful_of_form Form.faithful_text, Field.faithful_of_form Form.faithful_text,
      Field.faithful_of_form Form.faithful_text, Field.faithful_of_form Form.faithful_flag,
      Field.faithful_of_form Form.faithful_count, by simp⟩
  names := by decide
  rows _ := rfl

theorem Engagement.faithful_schema : schema.Faithful height where
  fields := by
    simp only [schema, fields, List.forall_mem_cons]
    exact ⟨Field.faithful_of_form Form.faithful_text, Field.faithful_of_form Form.faithful_text,
      Field.faithful_of_form Form.faithful_count, by simp⟩
  names := by decide
  rows _ := rfl

theorem Post.faithful_schema : schema.Faithful height where
  fields := by
    simp only [schema, fields, List.forall_mem_cons]
    exact ⟨Field.faithful_of_form Form.faithful_text, Field.faithful_of_form Form.faithful_text,
      Field.faithful_of_form Form.faithful_text, Field.faithful_of_form Form.faithful_text,
      Field.faithful_optionalText, Field.faithful_of_form Form.faithful_flag, by simp⟩
  names := by decide
  rows _ := rfl

namespace Message

theorem faithful_tokenSchema (a : Action) : (tokenSchema a).Faithful height where
  fields := by
    simp only [tokenSchema, tokenFields, List.forall_mem_cons]
    exact ⟨Field.faithful_of_form Form.faithful_text, by simp⟩
  names := by
    simp only [tokenSchema]
    decide
  rows _ := rfl

theorem faithful_postSchema : postSchema.Faithful (height + 1) where
  fields := by
    simp only [postSchema, postFields, List.forall_mem_cons]
    exact ⟨Field.faithful_of_form Form.faithful_text,
      Field.faithful_of_form Post.faithful_schema.form, by simp⟩
  names := by decide
  rows _ := rfl

theorem ofValue_name (a : Action) : Action.ofValue (.string a.name) = .ok a := by
  cases a <;> rfl

/-- The first member of an event names its action. -/
theorem readMember_action (bound depth : Nat) (a : Action) {rest : Json.Text} (h : Apart rest) :
    readMember bound depth {} "action" (':' :: (Json.writeString a.name ++ rest)) =
      .ok ({ action? := some a }, rest) := by
  have hread := Form.readScalar_of_scalar (Json.scalar_string a.name) h (ofValue_name a)
  rw [readMember, if_pos rfl, Json.colon_cons]
  simp only [readAction, bind, Except.bind, hread]
  rfl

/-- Members of other names are collected as they are in any object. -/
theorem accepts_other {bound depth : Nat} {known next : List (String × Json.Value)}
    {items : List (String × List Char)}
    (h : Accepts (Json.collect (Json.value bound depth)) known items next)
    (hnames : ∀ item ∈ items, item.1 ≠ "action") (action? : Option Action) :
    Accepts (readMember bound depth) ⟨action?, known⟩ items ⟨action?, next⟩ := by
  induction h with
  | nil => exact .nil
  | cons hmember _ ih =>
    have hrest := ih fun item hi => hnames item (List.mem_cons_of_mem _ hi)
    refine .cons (fun rest hapart => ?_) hrest
    rw [readMember, if_neg (hnames _ List.mem_cons_self)]
    simp only [bind, Except.bind, hmember rest hapart]
    rfl

/-- The members of an event: its action in front of those of its payload. -/
def taggedItems (a : Action) (items : List (String × List Char)) : List (String × List Char) :=
  ("action", Json.writeString a.name) :: items

/-- An event is read as its action and the values of its other members, whatever is behind it. -/
theorem readTagged_write (a : Action) {items : List (String × List Char)}
    {vs : List (String × Json.Value)} (h : ReadsAll height items vs)
    (hheight : height < Schema.maxDepth) (hnames : ∀ item ∈ items, item.1 ≠ "action")
    {bound : Nat}
    (hbound : (Json.writeObject (Json.writeItems (taggedItems a items))).length ≤ bound)
    (rest : Json.Text) :
    readTagged bound (Json.writeObject (Json.writeItems (taggedItems a items)) ++ rest) =
      .ok ((a, .object vs), rest) := by
  have htexts := Json.length_text_le_of_writeObject hbound
  have hcollect := Json.accepts_collect h
    (fun item hi => htexts item (List.mem_cons_of_mem _ hi)) (Nat.le_sub_one_of_lt hheight) []
  have haccepts : Accepts (readMember bound (Schema.maxDepth - 1)) {} (taggedItems a items)
      ⟨some a, vs.reverse ++ []⟩ :=
    .cons (fun rest hrest => readMember_action bound _ a hrest)
      (accepts_other hcollect hnames (some a))
  have hmembers := Json.members_write haccepts (Json.length_lt_of_writeObject hbound) rest
  rw [List.append_nil] at hmembers
  rw [readTagged, Json.glimpse_object]
  simp only [bind, Except.bind, hmembers, List.reverse_reverse]
  rfl

/-- The payload of an event is written so that its values give the event again. -/
def Restores (m : Message) (height : Nat) (items : List (String × List Char))
    (vs : List (String × Json.Value)) : Prop :=
  m.payloadMembers = Json.writeItems items ∧ (∀ item ∈ items, item.1 ≠ "action") ∧
    ReadsAll height items vs ∧ ofPayload m.action (.object vs) = .ok m

theorem exists_restores_of_schema {α : Type} {s : Schema α} (h : s.Faithful height)
    (hname : "action" ∉ s.fields.map Field.name) {m : Message} {a : α}
    (hmembers : m.payloadMembers = s.members a)
    (hm : ∀ payload, s.ofValue payload = .ok a → ofPayload m.action payload = .ok m) :
    ∃ items vs, m.Restores height items vs := by
  obtain ⟨vs, hreads, hvalue⟩ := h.exists_members a
  refine ⟨s.items a, vs, ?_, ?_, hreads, hm _ hvalue⟩
  · rw [hmembers, Schema.members, Row.members_eq_items, Schema.items]
  · intro item hitem he
    exact hname (he ▸ Row.name_of_mem_items hitem)

theorem exists_restores (m : Message) : ∃ items vs, m.Restores 1 items vs := by
  cases m with
  | newWalletBalance wallet =>
    refine exists_restores_of_schema Wallet.faithful_schema (by decide) rfl ?_
    intro payload h
    rw [action, ofPayload, h]
    rfl
  | walletRemoved token =>
    refine exists_restores_of_schema (faithful_tokenSchema .walletRemoved) (by decide) rfl ?_
    intro payload h
    rw [action, ofPayload, h]
    rfl
  | newStage stage =>
    refine exists_restores_of_schema Stage.faithful_schema (by decide) rfl ?_
    intro payload h
    rw [action, ofPayload, h]
    rfl
  | stageEngaged engagement =>
    refine exists_restores_of_schema Engagement.faithful_schema (by decide) rfl ?_
    intro payload h
    rw [action, ofPayload, h]
    rfl
  | newStagePost stage post =>
    refine exists_restores_of_schema faithful_postSchema (by decide) rfl ?_
    intro payload h
    rw [action, ofPayload, h]
    rfl
  | stageClosed token =>
    refine exists_restores_of_schema (faithful_tokenSchema .stageClosed) (by decide) rfl ?_
    intro payload h
    rw [action, ofPayload, h]
    rfl
  | openStage token =>
    refine exists_restores_of_schema (faithful_tokenSchema .openStage) (by decide) rfl ?_
    intro payload h
    rw [action, ofPayload, h]
    rfl

theorem write_eq_items {m : Message} {items : List (String × List Char)}
    (h : m.payloadMembers = Json.writeItems items) :
    m.write = Json.writeObject (Json.writeItems (taggedItems m.action items)) := by
  rw [write, h]
  rfl

/-- What stands behind the text of an event decides alone whether it decodes. -/
theorem decode_append (m : Message) (more : String) :
    decode (m.wire ++ more) = (do Json.finish more.toList; return m) := by
  obtain ⟨items, vs, hitems, hnames, hreads, hpayload⟩ := exists_restores m
  have hbound : m.write.length ≤ (m.wire ++ more).length := by
    rw [wire, String.length_append, String.length_ofList]
    exact Nat.le_add_right _ _
  rw [write_eq_items hitems] at hbound
  have hread := readTagged_write m.action hreads (by decide) hnames hbound more.toList
  rw [← write_eq_items hitems] at hread
  rw [decode, String.toList_append, wire, String.toList_ofList, ← wire, hread]
  simp only [bind, Except.bind, hpayload, Form.checked, Except.mapError]

theorem decode_message (m : Message) : decode m.wire = .ok m := by
  have happend := decode_append m ""
  rw [String.append_empty] at happend
  exact happend

/-- An event decodes from its text to itself, and so does every record on its own. -/
theorem wire_round_trip :
    (∀ m : Message, decode m.wire = .ok m) ∧
    (∀ wallet, Wallet.schema.decode (Wallet.schema.wire wallet) = .ok wallet) ∧
    (∀ stage, Stage.schema.decode (Stage.schema.wire stage) = .ok stage) ∧
    (∀ engagement,
      Engagement.schema.decode (Engagement.schema.wire engagement) = .ok engagement) ∧
    (∀ post, Post.schema.decode (Post.schema.wire post) = .ok post) := by
  have hdepth : 0 < Schema.maxDepth := by decide
  exact ⟨decode_message, Wallet.faithful_schema.decode_wire hdepth,
    Stage.faithful_schema.decode_wire hdepth, Engagement.faithful_schema.decode_wire hdepth,
    Post.faithful_schema.decode_wire hdepth⟩

end Message

end LiveFeed
