import LiveFeed.Message
import LiveFeed.Proofs.FrameLimit
import LiveFeed.Proofs.WrittenScalars

namespace LiveFeed

namespace Json

theorem newline_notMem_writeChar (c : Char) : '\n' ∉ writeChar c := by
  have hdigit : ∀ n < 16, Nat.digitChar n ≠ '\n' := by decide
  unfold writeChar
  split
  case h_8 hnewline _ _ =>
    split
    next hcontrol =>
      have hhigh := hdigit (c.toNat / 16) (by omega)
      have hlow := hdigit (c.toNat % 16) (by omega)
      simp [hhigh.symm, hlow.symm]
    next => simpa using Ne.symm hnewline
  all_goals decide

theorem newline_notMem_writeString (s : String) : '\n' ∉ writeString s := by
  have hbody : '\n' ∉ s.toList.flatMap writeChar := by
    intro h
    obtain ⟨c, -, hc⟩ := List.mem_flatMap.mp h
    exact newline_notMem_writeChar c hc
  simp [writeString, hbody]

theorem newline_notMem_digits (n : Nat) : '\n' ∉ Decimal.digits n := by
  intro h
  have hdigit := Decimal.isDigit_of_mem_digits h
  revert hdigit
  decide

theorem newline_notMem_writeMember (name : String) {text : List Char} (h : '\n' ∉ text) :
    '\n' ∉ writeMember name text := by
  simp [writeMember, newline_notMem_writeString, h]

theorem newline_notMem_writeObject {members : List (List Char)}
    (h : ∀ member ∈ members, '\n' ∉ member) : '\n' ∉ writeObject members := by
  have hlist : '\n' ∉ writeList members := by
    induction members with
    | nil => simp [writeList]
    | cons member members ih =>
      obtain ⟨hfirst, hrest⟩ := List.forall_mem_cons.mp h
      cases members with
      | nil => exact hfirst
      | cons next members => simp [writeList, hfirst, ih hrest]
  simp [writeObject, hlist]

end Json

/-- Every value of a form is written on one line. -/
def Form.Inline {α : Type} (f : Form α) : Prop := ∀ a, '\n' ∉ f.write a

namespace Form

theorem inline_text : text.Inline := Json.newline_notMem_writeString

theorem inline_optionalText : optionalText.Inline := by
  rintro (_ | s)
  · decide
  · exact Json.newline_notMem_writeString s

theorem inline_flag : flag.Inline := by
  rintro (_ | _) <;> decide

theorem inline_count : count.Inline := fun n => Json.newline_notMem_digits n.toNat

theorem inline_balance : balance.Inline := fun n => Json.newline_notMem_digits n.toNat

end Form

theorem Row.inline_members {fs : List Field} (h : ∀ f ∈ fs, f.form.Inline) (row : Row fs) :
    ∀ member ∈ members fs row, '\n' ∉ member := by
  induction fs with
  | nil => simp [members]
  | cons f fs ih =>
    obtain ⟨hf, hfs⟩ := List.forall_mem_cons.mp h
    obtain ⟨content, row⟩ := row
    rw [members]
    split
    next => exact ih hfs row
    next =>
      intro member hmember
      rcases List.mem_cons.mp hmember with rfl | hmember
      · exact Json.newline_notMem_writeMember f.name (hf content)
      · exact ih hfs row member hmember

theorem Schema.inline_members {α : Type} {s : Schema α} (h : ∀ f ∈ s.fields, f.form.Inline)
    (a : α) : ∀ member ∈ s.members a, '\n' ∉ member :=
  Row.inline_members h (s.toRow a)

theorem Schema.inline_form {α : Type} {s : Schema α} (h : ∀ f ∈ s.fields, f.form.Inline) :
    s.form.Inline :=
  fun a => Json.newline_notMem_writeObject (Schema.inline_members h a)

open Form

theorem Wallet.inline_fields : ∀ f ∈ schema.fields, f.form.Inline := by
  simp [schema, inline_text, inline_balance, inline_optionalText]

theorem Stage.inline_fields : ∀ f ∈ schema.fields, f.form.Inline := by
  simp [schema, inline_text, inline_flag, inline_count]

theorem Engagement.inline_fields : ∀ f ∈ schema.fields, f.form.Inline := by
  simp [schema, inline_text, inline_count]

theorem Post.inline_fields : ∀ f ∈ schema.fields, f.form.Inline := by
  simp [schema, inline_text, inline_optionalText, inline_flag]

namespace Message

theorem inline_tokenFields (a : Action) : ∀ f ∈ (tokenSchema a).fields, f.form.Inline := by
  simp [tokenSchema, inline_text]

theorem inline_postFields : ∀ f ∈ postSchema.fields, f.form.Inline := by
  simp [postSchema, inline_text, Schema.inline_form Post.inline_fields]

theorem inline_payloadMembers (m : Message) : ∀ member ∈ m.payloadMembers, '\n' ∉ member := by
  cases m with
  | newWalletBalance wallet => exact Schema.inline_members Wallet.inline_fields wallet
  | walletRemoved token => exact Schema.inline_members (inline_tokenFields .walletRemoved) token
  | newStage stage => exact Schema.inline_members Stage.inline_fields stage
  | stageEngaged engagement => exact Schema.inline_members Engagement.inline_fields engagement
  | newStagePost stage post => exact Schema.inline_members inline_postFields (stage, post)
  | stageClosed token => exact Schema.inline_members (inline_tokenFields .stageClosed) token
  | openStage token => exact Schema.inline_members (inline_tokenFields .openStage) token

/-- An event is written on one line, whatever stands in its texts. -/
theorem newline_notMem_write (m : Message) : '\n' ∉ m.write := by
  apply Json.newline_notMem_writeObject
  intro member hmember
  rcases List.mem_cons.mp hmember with rfl | hmember
  · exact Json.newline_notMem_writeMember "action" (Json.newline_notMem_writeString _)
  · exact m.inline_payloadMembers member hmember

end Message

theorem Message.trim_write (m : Message) : Text.trim m.write = m.write := by
  have hhead : m.write.head? = some '{' := rfl
  have hlast : m.write.getLast? = some '}' := List.getLast?_concat
  refine Text.trim_of_ends (fun c hc => ?_) fun c hc => ?_
  · rw [hhead] at hc
    cases hc
    rfl
  · rw [hlast] at hc
    cases hc
    rfl

/-- The line under which an event is recorded. -/
def Message.line (m : Message) : List UInt8 := m.wire.toUTF8.data.toList ++ [ByteStream.newline]

namespace ByteStream

theorem data_wire (m : Message) :
    m.wire.toUTF8.data.toList = m.write.flatMap String.utf8EncodeChar := by
  simp [Message.wire, String.toUTF8, List.utf8Encode]

theorem newline_notMem_wire (m : Message) : newline ∉ m.wire.toUTF8.data.toList := by
  rw [data_wire]
  intro h
  obtain ⟨c, hc, hnewline⟩ := List.mem_flatMap.mp h
  exact m.newline_notMem_write (eq_newline_of_mem hnewline ▸ hc)

/-- A line that is not too long is read as the text that was recorded. -/
theorem frameText?_line {max : UInt64} {m : Message} (h : m.line.length ≤ max.toNat) :
    frameText? max m.line = some m.wire := by
  have hmax := max.toNat_lt_size
  obtain ⟨c, cs, hwrite⟩ : ∃ c cs, m.write = c :: cs := ⟨_, _, rfl⟩
  have htext : text? (m.write.flatMap String.utf8EncodeChar) = some m.wire := by
    rw [text?_encoded, m.trim_write, Message.wire, hwrite]
  rw [frameText?_of_fits m.line (by omega), if_pos h, Message.line, text?_newline, data_wire, htext]

/-- The texts of recorded events are those events as they were written. -/
theorem texts_lines {max : UInt64} {messages : List Message}
    (h : ∀ m ∈ messages, m.line.length ≤ max.toNat) (ending : Ending) :
    texts max ending (messages.flatMap Message.line) = messages.map Message.wire := by
  induction messages with
  | nil => rfl
  | cons m messages ih =>
    obtain ⟨hm, hmessages⟩ := List.forall_mem_cons.mp h
    have hsplit : (m :: messages).flatMap Message.line =
        m.wire.toUTF8.data.toList ++ newline :: messages.flatMap Message.line := by
      simp [Message.line]
    have hline := frameText?_line hm
    rw [Message.line] at hline
    rw [hsplit, texts_terminated (newline_notMem_wire m), hline, ih hmessages]
    rfl

end ByteStream

end LiveFeed
