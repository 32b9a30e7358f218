import LiveFeed.Proofs.SchemaShapes

namespace LiveFeed

open Json (Value)

/-- No integer in a value is larger than 64 bits allow. -/
inductive Json.Value.Sized : Value → Prop where
  | null : Sized .null
  | boolean {b : Bool} : Sized (.boolean b)
  | integer {n : Int} (h : n < UInt64.size) : Sized (.integer n)
  | fraction : Sized .fraction
  | string {s : String} : Sized (.string s)
  | array {items : List Value} (h : ∀ v ∈ items, v.Sized) : Sized (.array items)
  | object {members : List (String × Value)} (h : ∀ m ∈ members, m.2.Sized) :
      Sized (.object members)

/-- What a value gives is as bounded as the value. -/
theorem Gives.sized {names : List String} {v w : Value} {slots : List (Option Value)}
    (h : Gives names v slots) (hv : v.Sized) (hw : some w ∈ slots) : w.Sized := by
  cases h with
  | object _ =>
    cases hv with
    | object hmembers =>
      obtain ⟨name, -, hlookup⟩ := List.mem_map.mp hw
      obtain ⟨front, back, rfl, -⟩ := List.lookup_eq_some_iff.mp hlookup
      exact hmembers (name, w) (by simp)
  | array _ =>
    cases hv with
    | array hitems =>
      rcases List.mem_append.mp hw with hw | hw
      · obtain ⟨item, hitem, he⟩ := List.mem_map.mp hw
        exact Option.some.inj he ▸ hitems item hitem
      · exact nomatch List.eq_of_mem_replicate hw

namespace Form

variable {v : Value}

/-- A form takes a content out of a value exactly if the value stands for it. -/
def Reads {α : Type} (form : Form α) (reads : Value → α → Prop) : Prop :=
  ∀ v a, v.Sized → (form.ofValue v = .ok a ↔ reads v a)

theorem reads_text : text.Reads Value.IsText := by
  intro v s _
  cases v with
  | string s' => simp [text, textOf, Value.IsText]
  | _ => simp [text, textOf, Value.IsText]

theorem reads_optionalText : optionalText.Reads Value.IsOptionalText := by
  intro v s? _
  cases v with
  | null => simp [optionalText, optionalTextOf, Value.IsOptionalText, eq_comm]
  | string s' =>
    simp [optionalText, optionalTextOf, textOf, Value.IsOptionalText, Functor.map, Except.map,
      eq_comm]
  | _ => simp [optionalText, optionalTextOf, textOf, Value.IsOptionalText, Functor.map, Except.map]

theorem reads_flag : flag.Reads Value.IsFlag := by
  intro v b _
  cases v with
  | boolean b' => simp [flag, flagOf, Value.IsFlag]
  | _ => simp [flag, flagOf, Value.IsFlag]

theorem count_of_sized {n : Int} (hn : ¬ n < 0) (hsize : n < UInt64.size) {c : UInt64} :
    UInt64.ofNat n.toNat = c ↔ n = c.toNat := by
  constructor
  · rintro rfl
    rw [UInt64.toNat_ofNat_of_lt' (by simp; omega)]
    omega
  · rintro rfl
    simp

theorem reads_count : count.Reads Value.IsCount := by
  intro v c hv
  cases hv with
  | @integer n hsize =>
    simp only [count, countOf, Value.IsCount, Value.integer.injEq]
    split
    next hn =>
      simp only [reduceCtorEq, false_iff]
      omega
    next hn => rw [Except.ok.injEq, count_of_sized hn hsize]
  | _ => simp [count, countOf, Value.IsCount]

theorem reads_balance : balance.Reads Value.IsBalance := by
  intro v c hv
  cases hv with
  | @integer n hsize =>
    have hno : ¬ ∃ s, Value.integer n = .string s ∧ Balance.Denotes s c.toNat := by simp
    simp only [balance, balanceOf, Value.IsBalance, Value.IsCount, Value.integer.injEq,
      or_iff_left hno]
    split
    next hn =>
      simp only [reduceCtorEq, false_iff]
      omega
    next hn => rw [Except.ok.injEq, count_of_sized hn hsize]
  | @string s =>
    simp only [balance, balanceOf, Value.IsBalance, Value.IsCount, Value.string.injEq,
      ← Balance.parse?_eq_some_iff]
    cases hparse : Balance.parse? s with
    | none => simp [hparse]
    | some n => simp [hparse]
  | _ => simp [balance, balanceOf, Value.IsBalance, Value.IsCount]

end Form

/-- How the contents of each field are told from values. -/
@[reducible] def Readings : List Field → Type
  | [] => Unit
  | f :: fs => (Value → f.Content → Prop) × Readings fs

namespace Readings

/-- The forms of all fields read as told. -/
def Sound : (fs : List Field) → Readings fs → Prop
  | [], () => True
  | f :: fs, (reads, more) => f.form.Reads reads ∧ Sound fs more

/-- Slots, one for each field, stand for the contents. -/
def Hold : (fs : List Field) → Readings fs → List (Option Value) → Row fs → Prop
  | [], (), slots, () => slots = []
  | f :: fs, (reads, more), slots, (content, row) =>
    ∃ slot others, slots = slot :: others ∧ Holds reads f.default? slot content ∧
      Hold fs more others row

theorem Sound.hold_iff {fs : List Field} {readings : Readings fs} (h : Sound fs readings)
    {slots : List (Option Value)} (hslots : ∀ v, some v ∈ slots → v.Sized) {row : Row fs} :
    Row.Holds fs slots row ↔ Hold fs readings slots row := by
  induction fs generalizing slots with
  | nil => exact Iff.rfl
  | cons f fs ih =>
    obtain ⟨reads, more⟩ := readings
    obtain ⟨content, row⟩ := row
    obtain ⟨hreads, hmore⟩ := h
    rw [Row.Holds, Hold]
    refine exists_congr fun slot => exists_congr fun others => and_congr_right ?_
    rintro rfl
    refine and_congr ?_ (ih hmore fun v hv => hslots v (List.mem_cons_of_mem slot hv))
    cases slot with
    | none => exact Iff.rfl
    | some v => exact hreads v content (hslots v List.mem_cons_self)

end Readings

theorem Schema.reads_of_readings {α : Type} {s : Schema α} {reads : Value → α → Prop}
    {readings : Readings s.fields} (hnames : (s.fields.map Field.name).Nodup)
    (hsound : Readings.Sound s.fields readings)
    (h : ∀ v a, reads v a ↔ ∃ slots row, Gives (s.fields.map Field.name) v slots ∧
      Readings.Hold s.fields readings slots row ∧ s.ofRow row = a) : s.form.Reads reads := by
  intro v a hv
  rw [h]
  refine (Schema.ofValue_eq_ok_iff hnames).trans ?_
  refine exists_congr fun slots => exists_congr fun row => and_congr_right fun hgives => ?_
  rw [hsound.hold_iff fun w hw => hgives.sized hv hw]

theorem Wallet.reads_schema : schema.form.Reads Value.IsWallet := by
  have hsound : Readings.Sound fields
      (Value.IsText, Value.IsBalance, Value.IsOptionalText, ()) :=
    ⟨Form.reads_text, Form.reads_balance, Form.reads_optionalText, trivial⟩
  refine Schema.reads_of_readings (by decide) hsound fun v w => ?_
  constructor
  · rintro ⟨s₁, s₂, s₃, hgives, h₁, h₂, h₃⟩
    exact ⟨_, (_, _, _, ()), hgives, ⟨s₁, _, rfl, h₁, s₂, _, rfl, h₂, s₃, _, rfl, h₃, rfl⟩, rfl⟩
  · rintro ⟨_, _, hgives, ⟨s₁, _, rfl, h₁, s₂, _, rfl, h₂, s₃, _, rfl, h₃, rfl⟩, rfl⟩
    exact ⟨s₁, s₂, s₃, hgives, h₁, h₂, h₃⟩

theorem Stage.reads_schema : schema.form.Reads Value.IsStage := by
  have hsound : Readings.Sound fields
      (Value.IsText, Value.IsText, Value.IsText, Value.IsFlag, Value.IsCount, ()) :=
    ⟨Form.reads_text, Form.reads_text, Form.reads_text, Form.reads_flag, Form.reads_count, trivial⟩
  refine Schema.reads_of_readings (by decide) hsound fun v s => ?_
  constructor
  · rintro ⟨s₁, s₂, s₃, s₄, s₅, hgives, h₁, h₂, h₃, h₄, h₅⟩
    exact ⟨_, (_, _, _, _, _, ()), hgives, ⟨s₁, _, rfl, h₁, s₂, _, rfl, h₂, s₃, _, rfl, h₃,
      s₄, _, rfl, h₄, s₅, _, rfl, h₅, rfl⟩, rfl⟩
  · rintro ⟨_, _, hgives, ⟨s₁, _, rfl, h₁, s₂, _, rfl, h₂, s₃, _, rfl, h₃, s₄, _, rfl, h₄,
      s₅, _, rfl, h₅, rfl⟩, rfl⟩
    exact ⟨s₁, s₂, s₃, s₄, s₅, hgives, h₁, h₂, h₃, h₄, h₅⟩

theorem Engagement.reads_schema : schema.form.Reads Value.IsEngagement := by
  have hsound : Readings.Sound fields (Value.IsText, Value.IsText, Value.IsCount, ()) :=
    ⟨Form.reads_text, Form.reads_text, Form.reads_count, trivial⟩
  refine Schema.reads_of_readings (by decide) hsound fun v e => ?_
  constructor
  · rintro ⟨s₁, s₂, s₃, hgives, h₁, h₂, h₃⟩
    exact ⟨_, (_, _, _, ()), hgives, ⟨s₁, _, rfl, h₁, s₂, _, rfl, h₂, s₃, _, rfl, h₃, rfl⟩, rfl⟩
  · rintro ⟨_, _, hgives, ⟨s₁, _, rfl, h₁, s₂, _, rfl, h₂, s₃, _, rfl, h₃, rfl⟩, rfl⟩
    exact ⟨s₁, s₂, s₃, hgives, h₁, h₂, h₃⟩

theorem Post.reads_schema : schema.form.Reads Value.IsPost := by
  have hsound : Readings.Sound fields (Value.IsText, Value.IsText, Value.IsText, Value.IsText,
      Value.IsOptionalText, Value.IsFlag, ()) :=
    ⟨Form.reads_text, Form.reads_text, Form.reads_text, Form.reads_text,
      Form.reads_optionalText, Form.reads_flag, trivial⟩
  refine Schema.reads_of_readings (by decide) hsound fun v p => ?_
  constructor
  · rintro ⟨s₁, s₂, s₃, s₄, s₅, s₆, hgives, h₁, h₂, h₃, h₄, h₅, h₆⟩
    exact ⟨_, (_, _, _, _, _, _, ()), hgives, ⟨s₁, _, rfl, h₁, s₂, _, rfl, h₂, s₃, _, rfl, h₃,
      s₄, _, rfl, h₄, s₅, _, rfl, h₅, s₆, _, rfl, h₆, rfl⟩, rfl⟩
  · rintro ⟨_, _, hgives, ⟨s₁, _, rfl, h₁, s₂, _, rfl, h₂, s₃, _, rfl, h₃, s₄, _, rfl, h₄,
      s₅, _, rfl, h₅, s₆, _, rfl, h₆, rfl⟩, rfl⟩
    exact ⟨s₁, s₂, s₃, s₄, s₅, s₆, hgives, h₁, h₂, h₃, h₄, h₅, h₆⟩

namespace Message

theorem reads_tokenSchema (a : Action) : (tokenSchema a).form.Reads Value.IsToken := by
  have hsound : Readings.Sound tokenFields (Value.IsText, ()) := ⟨Form.reads_text, trivial⟩
  have hnames : (tokenFields.map Field.name).Nodup := by decide
  refine Schema.reads_of_readings hnames hsound fun v token => ?_
  constructor
  · rintro ⟨s₁, hgives, h₁⟩
    exact ⟨_, (_, ()), hgives, ⟨s₁, _, rfl, h₁, rfl⟩, rfl⟩
  · rintro ⟨_, _, hgives, ⟨s₁, _, rfl, h₁, rfl⟩, rfl⟩
    exact ⟨s₁, hgives, h₁⟩

theorem reads_postSchema :
    postSchema.form.Reads fun v content => v.IsStagePost content.1 content.2 := by
  have hsound : Readings.Sound postFields (Value.IsText, Value.IsPost, ()) :=
    ⟨Form.reads_text, Post.reads_schema, trivial⟩
  refine Schema.reads_of_readings (by decide) hsound fun v content => ?_
  constructor
  · rintro ⟨s₁, s₂, hgives, h₁, h₂⟩
    exact ⟨_, (_, _, ()), hgives, ⟨s₁, _, rfl, h₁, s₂, _, rfl, h₂, rfl⟩, rfl⟩
  · rintro ⟨_, _, hgives, ⟨s₁, _, rfl, h₁, s₂, _, rfl, h₂, rfl⟩, rfl⟩
    exact ⟨s₁, s₂, hgives, h₁, h₂⟩

/-- A payload makes an event of a kind exactly if it is the payload of that event. -/
theorem ofPayload_eq_ok_iff {a : Action} {payload : Value} (h : payload.Sized) {m : Message} :
    ofPayload a payload = .ok m ↔ m.action = a ∧ m.HasPayload payload := by
  constructor
  · intro hm
    cases a with
    | newWalletBalance =>
      obtain ⟨wallet, hw, rfl⟩ := map_eq_ok_iff.mp hm
      exact ⟨rfl, (Wallet.reads_schema _ _ h).mp hw⟩
    | walletRemoved =>
      obtain ⟨token, ht, rfl⟩ := map_eq_ok_iff.mp hm
      exact ⟨rfl, (reads_tokenSchema _ _ _ h).mp ht⟩
    | newStage =>
      obtain ⟨stage, hs, rfl⟩ := map_eq_ok_iff.mp hm
      exact ⟨rfl, (Stage.reads_schema _ _ h).mp hs⟩
    | stageEngaged =>
      obtain ⟨engagement, he, rfl⟩ := map_eq_ok_iff.mp hm
      exact ⟨rfl, (Engagement.reads_schema _ _ h).mp he⟩
    | newStagePost =>
      obtain ⟨content, hc, rfl⟩ := map_eq_ok_iff.mp hm
      exact ⟨rfl, (reads_postSchema _ _ h).mp hc⟩
    | stageClosed =>
      obtain ⟨token, ht, rfl⟩ := map_eq_ok_iff.mp hm
      exact ⟨rfl, (reads_tokenSchema _ _ _ h).mp ht⟩
    | openStage =>
      obtain ⟨token, ht, rfl⟩ := map_eq_ok_iff.mp hm
      exact ⟨rfl, (reads_tokenSchema _ _ _ h).mp ht⟩
  · rintro ⟨rfl, hp⟩
    cases m with
    | newWalletBalance wallet =>
      exact map_eq_ok_iff.mpr ⟨wallet, (Wallet.reads_schema _ _ h).mpr hp, rfl⟩
    | walletRemoved token =>
      exact map_eq_ok_iff.mpr ⟨token, (reads_tokenSchema _ _ _ h).mpr hp, rfl⟩
    | newStage stage => exact map_eq_ok_iff.mpr ⟨stage, (Stage.reads_schema _ _ h).mpr hp, rfl⟩
    | stageEngaged engagement =>
      exact map_eq_ok_iff.mpr ⟨engagement, (Engagement.reads_schema _ _ h).mpr hp, rfl⟩
    | newStagePost stage post =>
      exact map_eq_ok_iff.mpr ⟨(stage, post), (reads_postSchema _ _ h).mpr hp, rfl⟩
    | stageClosed token =>
      exact map_eq_ok_iff.mpr ⟨token, (reads_tokenSchema _ _ _ h).mpr hp, rfl⟩
    | openStage token =>
      exact map_eq_ok_iff.mpr ⟨token, (reads_tokenSchema _ _ _ h).mpr hp, rfl⟩

end Message

end LiveFeed
