import LiveFeed.Proofs.Cuts
import LiveFeed.Proofs.Decoding

namespace LiveFeed

open Json (Cut Readable RunsOut Takes Space)

variable {height : Nat}

theorem Row.readable_items {fs : List Field}
    (h : ∀ f ∈ fs, ∀ c : f.Content, Readable height (f.form.write c)) (row : Row fs) :
    ∀ item ∈ items fs row, Readable height item.2 := by
  induction fs with
  | nil => exact List.forall_mem_nil _
  | cons f fs ih =>
    obtain ⟨content, row⟩ := row
    have hmore := ih (fun g hg => h g (List.mem_cons_of_mem f hg)) row
    rw [items]
    split
    next => exact hmore
    next => exact List.forall_mem_cons.mpr ⟨h f List.mem_cons_self content, hmore⟩

theorem readable_optionalText (s? : Option String) :
    Readable height (Form.optionalText.write s?) := by
  cases s? with
  | none => exact Json.readable_null
  | some s => exact Json.readable_string s

theorem Post.readable_write (p : Post) : Readable (height + 1) (schema.write p) := by
  rw [Schema.write_eq_items]
  refine Json.readable_object (Row.readable_items ?_ _)
  simp only [schema, fields, List.forall_mem_cons]
  exact ⟨Json.readable_string, Json.readable_string, Json.readable_string, Json.readable_string,
    readable_optionalText, Json.readable_bool, List.forall_mem_nil _⟩

namespace Message

/-- The members of an event beside its action are texts that can be read, of other names. -/
def Legible (m : Message) (height : Nat) (items : List (String × List Char)) : Prop :=
  m.payloadMembers = Json.writeItems items ∧
    ∀ item ∈ items, item.1 ≠ "action" ∧ Readable height item.2

theorem legible_of_schema {α : Type} {s : Schema α}
    (hname : "action" ∉ s.fields.map Field.name)
    (h : ∀ f ∈ s.fields, ∀ c : f.Content, Readable height (f.form.write c)) {m : Message} {a : α}
    (hmembers : m.payloadMembers = s.members a) : m.Legible height (s.items a) := by
  refine ⟨?_, fun item hitem => ⟨?_, Row.readable_items h _ item hitem⟩⟩
  · rw [hmembers, Schema.members, Row.members_eq_items, Schema.items]
  · intro he
    exact hname (he ▸ Row.name_of_mem_items hitem)

theorem exists_legible (m : Message) : ∃ items, m.Legible 1 items := by
  have htoken (a : Action) :
      ∀ f ∈ (tokenSchema a).fields, ∀ c : f.Content, Readable 1 (f.form.write c) := by
    simp only [tokenSchema, tokenFields, List.forall_mem_cons]
    exact ⟨Json.readable_string, List.forall_mem_nil _⟩
  cases m with
  | newWalletBalance wallet =>
    refine ⟨_, legible_of_schema (s := Wallet.schema) (by decide) ?_ rfl⟩
    simp only [Wallet.schema, Wallet.fields, List.forall_mem_cons]
    exact ⟨Json.readable_string, Json.readable_count, readable_optionalText, List.forall_mem_nil _⟩
  | walletRemoved token => exact ⟨_, legible_of_schema (by decide) (htoken .walletRemoved) rfl⟩
  | newStage stage =>
    refine ⟨_, legible_of_schema (s := Stage.schema) (by decide) ?_ rfl⟩
    simp only [Stage.schema, Stage.fields, List.forall_mem_cons]
    exact ⟨Json.readable_string, Json.readable_string, Json.readable_string, Json.readable_bool,
      Json.readable_count, List.forall_mem_nil _⟩
  | stageEngaged engagement =>
    refine ⟨_, legible_of_schema (s := Engagement.schema) (by decide) ?_ rfl⟩
    simp only [Engagement.schema, Engagement.fields, List.forall_mem_cons]
    exact ⟨Json.readable_string, Json.readable_string, Json.readable_count, List.forall_mem_nil _⟩
  | newStagePost stage post =>
    refine ⟨_, legible_of_schema (s := postSchema) (by decide) ?_ rfl⟩
    simp only [postSchema, postFields, List.forall_mem_cons]
    exact ⟨Json.readable_string, Post.readable_write, List.forall_mem_nil _⟩
  | stageClosed token => exact ⟨_, legible_of_schema (by decide) (htoken .stageClosed) rfl⟩
  | openStage token => exact ⟨_, legible_of_schema (by decide) (htoken .openStage) rfl⟩

theorem readAction_cut {a : Action} {front : Json.Text} (h : Cut front (Json.writeString a.name)) :
    readAction front = .error .ended := by
  rw [readAction, Form.readScalar, Json.glimpse_string_cut h]
  rfl

theorem takes_action (size bound depth : Nat) (a : Action) :
    Takes (readMember bound depth) size {} "action" (Json.writeString a.name) where
  whole _ := ⟨_, fun _ hrest => readMember_action bound depth a hrest⟩
  cut front _ hcut := by
    rw [readMember, if_pos rfl]
    rcases Json.cut_cons_iff.mp hcut with rfl | ⟨more, rfl, hmore⟩
    · exact .inl rfl
    · simp only [Json.colon_cons, bind, Except.bind, readAction_cut hmore]
      exact .inl rfl

theorem takes_other {bound depth : Nat} {name : String} {text : List Char} (hname : name ≠ "action")
    (h : Readable height text) (hdepth : height ≤ depth) (known : Partial) :
    Takes (readMember bound depth) bound known name text where
  whole hsize := by
    obtain ⟨members, hmembers⟩ := (Json.takes_collect h hdepth known.members name).whole hsize
    refine ⟨{ known with members }, fun rest hrest => ?_⟩
    rw [readMember, if_neg hname]
    simp only [bind, Except.bind, hmembers rest hrest]
    rfl
  cut front hsize hcut := by
    rw [readMember, if_neg hname]
    exact ((Json.takes_collect h hdepth known.members name).cut front hsize hcut).bind
      fun members => .inr ⟨_, rfl⟩

/-- An event that is cut is not read as one. -/
theorem readTagged_cut (a : Action) {items : List (String × List Char)}
    (h : ∀ item ∈ items, item.1 ≠ "action" ∧ Readable height item.2)
    (hheight : height < Schema.maxDepth) {front : Json.Text}
    (hcut : Cut front (Json.writeObject (Json.writeItems (taggedItems a items)))) {bound : Nat}
    (hbound : front.length ≤ bound) : readTagged bound front = .error .ended := by
  rcases Json.cut_cons_iff.mp hcut with rfl | ⟨more, rfl, hmore⟩
  · rfl
  rw [List.length_cons] at hbound
  have hothers : ∀ item ∈ items, ∀ known,
      Takes (readMember bound (Schema.maxDepth - 1)) bound known item.1 item.2 := by
    intro item hitem known
    obtain ⟨hname, hreadable⟩ := h item hitem
    exact takes_other hname hreadable (Nat.le_sub_one_of_lt hheight) known
  have hmembers : Json.members (readMember bound (Schema.maxDepth - 1)) bound true {} more =
      .error .ended :=
    Json.members_write_cut (takes_action bound bound _ a) hothers hmore (by omega) (by omega)
  rw [readTagged, Json.glimpse_map]
  simp only [bind, Except.bind, hmembers]

/--
The text of an event shows where it ends: of less the rest is found missing, and more than space
behind it is not JSON.
-/
theorem delimited_wire (m : Message) :
    (∀ front : String, Cut front.toList m.wire.toList → decode front = .error .ended) ∧
    ∀ more : String, ¬ Space more.toList → decode (m.wire ++ more) = .error .malformed := by
  constructor
  · intro front hcut
    obtain ⟨items, hitems, hlegible⟩ := exists_legible m
    rw [wire, String.toList_ofList, write_eq_items hitems] at hcut
    have hread := readTagged_cut m.action hlegible (by decide) hcut (Nat.le_refl _)
    rw [String.length_toList] at hread
    rw [decode, hread]
    rfl
  · intro more hmore
    rw [decode_append, Json.finish_of_not_space hmore]
    rfl

theorem delimited_wire_cut_escape :
    let post : Post := { token := "p", author := "a", content := "\x01" }
    decode ("\x7b\"action\":\"NewStagePost\",\"stage\":\"s\",\"post\":\x7b\"token\":\"p\"," ++
      "\"author\":\"a\",\"timestamp\":\"\",\"content\":\"\\u00") = .error .ended ∧
    decode ((newStagePost "s" post).wire ++ " \x7d") = .error .malformed := by
  intro post
  obtain ⟨hcut, hmore⟩ := delimited_wire (newStagePost "s" post)
  have hspace : ¬ Space " \x7d".toList := by
    intro h
    exact absurd (h '}' (by decide)) (by decide)
  refine ⟨hcut _ ⟨"01\",\"moderation\":false\x7d\x7d".toList, by decide, ?_⟩, hmore _ hspace⟩
  rw [wire, String.toList_ofList]
  decide +kernel

end Message

end LiveFeed
