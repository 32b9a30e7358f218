import Mathlib.Logic.Function.Basic
import LiveFeed.Config.Override
import LiveFeed.Proofs.BalanceGrammar

namespace LiveFeed

/-- The words for an order, in small letters. -/
def SortOrder.words : SortOrder → List String
  | ascending => ["ascending", "asc"]
  | descending => ["descending", "desc"]

theorem SortOrder.parse?_eq_some_iff {word : String} {order : SortOrder} :
    parse? word = some order ↔ word.toLower ∈ order.words := by
  unfold parse?
  by_cases hup : word.toLower = "ascending" ∨ word.toLower = "asc"
  · have hnot : ¬ (word.toLower = "descending" ∨ word.toLower = "desc") := by
      rcases hup with hup | hup <;> simp [hup]
    cases order <;> simp [words, hup, hnot]
  · by_cases hdown : word.toLower = "descending" ∨ word.toLower = "desc"
    · cases order <;> simp [words, hup, hdown]
    · cases order <;> simp [words, hup, hdown]

namespace Setting

theorem mem_all (s : Setting) : s ∈ all := by cases s <;> decide

theorem variableName_injective {s t : Setting} (h : s.variableName = t.variableName) : s = t := by
  have hall : ∀ a ∈ all, ∀ b ∈ all, a.variableName = b.variableName → a = b := by decide
  exact hall s s.mem_all t t.mem_all h

/-- What a configuration holds for a setting. -/
@[reducible] def Value : Setting → Type
  | maxFrameBytes => UInt64
  | resetOnDisconnect => Bool
  | walletOrder => SortOrder
  | openStage => Option String
  | logLevel | logFormat => String

/-- A text stands for a value of a setting. -/
def Denotes : (s : Setting) → String → s.Value → Prop
  | maxFrameBytes, text, n => Decimal.Amount text.toList n.toNat
  | resetOnDisconnect, text, flag => text = if flag then "true" else "false"
  | walletOrder, text, order => text.toLower ∈ order.words
  | openStage, text, stage => stage = if text = "" then none else some text
  | logLevel, text, value | logFormat, text, value => value = text

def IsValid (s : Setting) (text : String) : Prop := ∃ value, s.Denotes text value

def read? : (s : Setting) → String → Option s.Value
  | maxFrameBytes, text => Decimal.readUInt64? text.toList
  | resetOnDisconnect, text => flag? text
  | walletOrder, text => SortOrder.parse? text
  | openStage, text => some (if text.isEmpty then none else some text)
  | logLevel, text | logFormat, text => some text

theorem flag?_eq_some_iff {text : String} {flag : Bool} :
    flag? text = some flag ↔ text = if flag then "true" else "false" := by
  unfold flag?
  cases flag with
  | true => by_cases h : text = "true" <;> simp [h]
  | false => by_cases h : text = "true" <;> simp [h]

theorem read?_eq_some_iff {s : Setting} {text : String} {value : s.Value} :
    s.read? text = some value ↔ s.Denotes text value := by
  cases s with
  | maxFrameBytes =>
    constructor
    · exact Decimal.amount_of_readUInt64?
    · intro h
      rw [read?, Decimal.readUInt64?_of_amount h, if_pos value.toNat_lt_size, UInt64.ofNat_toNat]
  | resetOnDisconnect => exact flag?_eq_some_iff
  | walletOrder => exact SortOrder.parse?_eq_some_iff
  | openStage =>
    rw [read?, Denotes, Option.some.injEq]
    simp only [String.isEmpty_iff]
    exact eq_comm
  | logLevel => simp [read?, Denotes, eq_comm]
  | logFormat => simp [read?, Denotes, eq_comm]

theorem isValid_iff {s : Setting} {text : String} : s.IsValid text ↔ (s.read? text).isSome := by
  rw [IsValid, Option.isSome_iff_exists]
  exact exists_congr fun _ => read?_eq_some_iff.symm

instance (s : Setting) (text : String) : Decidable (s.IsValid text) :=
  decidable_of_iff _ isValid_iff.symm

end Setting

namespace Config

def get (c : Config) : (s : Setting) → s.Value
  | .maxFrameBytes => c.feed.maxFrameBytes
  | .resetOnDisconnect => c.feed.resetOnDisconnect
  | .walletOrder => c.views.walletOrder
  | .openStage => c.views.openStage
  | .logLevel => c.logging.level
  | .logFormat => c.logging.format

def put (c : Config) : (s : Setting) → s.Value → Config
  | .maxFrameBytes, n => { c with feed.maxFrameBytes := n }
  | .resetOnDisconnect, flag => { c with feed.resetOnDisconnect := flag }
  | .walletOrder, order => { c with views.walletOrder := order }
  | .openStage, stage => { c with views.openStage := stage }
  | .logLevel, level => { c with logging.level := level }
  | .logFormat, format => { c with logging.format := format }

theorem get_put_self (c : Config) (s : Setting) (value : s.Value) :
    (c.put s value).get s = value := by
  cases s <;> rfl

theorem get_put_of_ne (c : Config) {s t : Setting} (h : t ≠ s) (value : s.Value) :
    (c.put s value).get t = c.get t := by
  revert h
  cases s <;> cases t <;> simp [get, put]

/-- A configuration holds nothing besides its settings. -/
theorem eq_of_get {c other : Config} (h : ∀ s, c.get s = other.get s) : c = other := by
  obtain ⟨⟨_, _⟩, ⟨_, _⟩, ⟨_, _⟩⟩ := c
  obtain ⟨⟨_, _⟩, ⟨_, _⟩, ⟨_, _⟩⟩ := other
  congr
  · exact h .maxFrameBytes
  · exact h .resetOnDisconnect
  · exact h .walletOrder
  · exact h .openStage
  · exact h .logLevel
  · exact h .logFormat

end Config

namespace Setting

theorem change?_eq (s : Setting) (text : String) :
    s.change? text = (s.read? text).map fun value c => c.put s value := by
  cases s <;> rfl

/-- The value that an environment has for a setting. -/
def given? (environment : Environment) (s : Setting) : Option s.Value :=
  (environment s.variableName).bind s.read?

theorem given?_eq_none {environment : Environment} {s : Setting}
    (h : ∀ text ∈ environment s.variableName, ¬ s.IsValid text) : s.given? environment = none := by
  rw [given?, Option.bind_eq_none_iff]
  intro text htext
  simpa [isValid_iff] using h text htext

theorem given?_update_of_ne (environment : Environment) {s : Setting} {name : String}
    (h : name ≠ s.variableName) (value : Option String) :
    s.given? (Function.update environment name value) = s.given? environment := by
  rw [given?, Function.update_of_ne h.symm, given?]

theorem override_eq (environment : Environment) (c : Config) (s : Setting) :
    override environment c s = (s.given? environment).elim c (c.put s) := by
  have hchange : (environment s.variableName).bind s.change? =
      (s.given? environment).map fun value c => c.put s value := by
    rw [given?, Option.map_bind]
    exact congrArg _ (funext s.change?_eq)
  rw [override, hchange]
  cases s.given? environment with
  | none => rfl
  | some value => rfl

theorem get_override_self (environment : Environment) (c : Config) (s : Setting) :
    (override environment c s).get s = (s.given? environment).getD (c.get s) := by
  rw [override_eq]
  cases s.given? environment with
  | none => rfl
  | some value => exact c.get_put_self s value

theorem get_override_of_ne (environment : Environment) (c : Config) {s t : Setting} (h : t ≠ s) :
    (override environment c s).get t = c.get t := by
  rw [override_eq]
  cases s.given? environment with
  | none => rfl
  | some value => exact c.get_put_of_ne h value

theorem get_foldl_override (environment : Environment) (settings : List Setting) (c : Config)
    (s : Setting) :
    (settings.foldl (override environment) c).get s =
      if s ∈ settings then (s.given? environment).getD (c.get s) else c.get s := by
  induction settings generalizing c with
  | nil => rfl
  | cons t settings ih =>
    rw [List.foldl_cons, ih]
    by_cases hst : s = t
    · subst hst
      rw [get_override_self, if_pos List.mem_cons_self]
      -- the same variable once more would give the same value
      cases s.given? environment with
      | none => exact ite_self _
      | some value => exact ite_self _
    · rw [get_override_of_ne environment c hst]
      simp [hst]

end Setting

namespace Config

/-- A setting has the value of its variable, or the one that it had. -/
theorem get_override (c : Config) (environment : Environment) (s : Setting) :
    (c.override environment).get s = (s.given? environment).getD (c.get s) := by
  rw [override, Setting.get_foldl_override, if_pos s.mem_all]

end Config

namespace Environment

/-- The variable of that name may have that value; a variable of no setting may have any. -/
def Accepts (name text : String) : Prop :=
  ∀ s ∈ Setting.all, s.variableName = name → s.IsValid text

instance (name text : String) : Decidable (Accepts name text) :=
  inferInstanceAs (Decidable (∀ s ∈ Setting.all, s.variableName = name → s.IsValid text))

theorem accepts_iff {s : Setting} {text : String} :
    Accepts s.variableName text ↔ s.IsValid text := by
  constructor
  · exact fun h => h s s.mem_all rfl
  · intro h t _ ht
    exact Setting.variableName_injective ht ▸ h

/-- Two environments as one, in which the second wins wherever it has a value that is valid. -/
def layer (base upper : Environment) : Environment := fun name =>
  ((upper name).filter (Accepts name ·)).or (base name)

theorem given?_layer (base upper : Environment) (s : Setting) :
    s.given? (base.layer upper) = (s.given? upper).or (s.given? base) := by
  rw [Setting.given?, Setting.given?, layer]
  cases upper s.variableName with
  | none => rfl
  | some text =>
    by_cases hvalid : s.IsValid text
    · obtain ⟨value, hread⟩ := Option.isSome_iff_exists.mp (Setting.isValid_iff.mp hvalid)
      rw [Option.filter_some, if_pos (by simpa using accepts_iff.mpr hvalid)]
      simp [hread]
    · have hread : s.read? text = none := by
        simpa [Setting.isValid_iff] using hvalid
      rw [Option.filter_some, if_neg (by simpa using fun h => hvalid (accepts_iff.mp h))]
      simp [hread, Setting.given?]

end Environment

namespace Config

/-- How the variables of two environments act on a configuration, one after the other. -/
structure Layered (c : Config) (base upper : Environment) : Prop where
  merged : (c.override base).override upper = c.override (base.layer upper)
  again : (c.override base).override base = c.override base
  taken : ∀ (s : Setting) (text : String) (value : s.Value), base s.variableName = some text →
    s.Denotes text value → (c.override base).get s = value
  kept : ∀ s : Setting, (∀ text ∈ base s.variableName, ¬ s.IsValid text) →
    (c.override base).get s = c.get s
  ignored : ∀ (s : Setting) (text : String), ¬ s.IsValid text →
    c.override (Function.update base s.variableName (some text)) =
      c.override (Function.update base s.variableName none)
  own : ∀ (s : Setting) (name : String) (value : Option String), name ≠ s.variableName →
    (c.override (Function.update base name value)).get s = (c.override base).get s
  cleared : base "DRUM_OPEN_STAGE" = some "" → (c.override base).views.openStage = none

theorem get_override_of_given (c : Config) {environment : Environment} {s : Setting}
    {value : s.Value} (h : s.given? environment = some value) :
    (c.override environment).get s = value := by
  rw [get_override, h, Option.getD_some]

theorem override_override (c : Config) (base upper : Environment) :
    (c.override base).override upper = c.override (base.layer upper) := by
  refine eq_of_get fun s => ?_
  rw [get_override, get_override, get_override, Environment.given?_layer, Option.getD_or]

theorem override_again (c : Config) (environment : Environment) :
    (c.override environment).override environment = c.override environment := by
  refine eq_of_get fun s => ?_
  rw [get_override, get_override]
  cases s.given? environment with
  | none => rfl
  | some value => rfl

/-- Environments that give every setting the same value have the same effect. -/
theorem override_congr (c : Config) {environment other : Environment}
    (h : ∀ s : Setting, s.given? environment = s.given? other) :
    c.override environment = c.override other := by
  refine eq_of_get fun s => ?_
  rw [get_override, get_override, h]

theorem override_invalid (c : Config) (environment : Environment) {s : Setting} {text : String}
    (h : ¬ s.IsValid text) :
    c.override (Function.update environment s.variableName (some text)) =
      c.override (Function.update environment s.variableName none) := by
  refine c.override_congr fun t => ?_
  by_cases hts : t = s
  · subst hts
    rw [Setting.given?_eq_none (by simpa using h), Setting.given?_eq_none (by simp)]
  · have hname : s.variableName ≠ t.variableName :=
      fun he => hts (Setting.variableName_injective he).symm
    rw [Setting.given?_update_of_ne _ hname, Setting.given?_update_of_ne _ hname]

/--
Overriding by one environment and then by another is overriding by both as one. Each setting
follows its own variable alone, and keeps its value where the variable has none that is valid.
-/
theorem layered_override (c : Config) (base upper : Environment) :
    c.Layered base upper ∧
      ∀ text, Setting.openStage.IsValid text ∧ Setting.logLevel.IsValid text ∧
        Setting.logFormat.IsValid text := by
  constructor
  · constructor
    case merged => exact c.override_override base upper
    case again => exact c.override_again base
    case taken =>
      intro s text value htext hdenotes
      refine c.get_override_of_given ?_
      rw [Setting.given?, htext]
      exact Setting.read?_eq_some_iff.mpr hdenotes
    case kept =>
      intro s hinvalid
      rw [get_override, Setting.given?_eq_none hinvalid, Option.getD_none]
    case ignored => exact fun s text hinvalid => c.override_invalid base hinvalid
    case own =>
      intro s name value hname
      rw [get_override, get_override, Setting.given?_update_of_ne base hname]
    case cleared =>
      intro hempty
      have hgiven : Setting.openStage.given? base = some none := by
        rw [Setting.given?, Setting.variableName, hempty]
        rfl
      exact c.get_override_of_given hgiven
  · exact fun text => ⟨⟨_, rfl⟩, ⟨_, rfl⟩, ⟨_, rfl⟩⟩

example :
    override
        (fun name =>
          if name = "DRUM_OPEN_STAGE" then some ""
          else if name = "DRUM_MAX_FRAME_BYTES" then some "many"
          else none)
        { feed.maxFrameBytes := 8, views.openStage := some "aereum" } =
      { feed.maxFrameBytes := 8 } := by
  decide

end Config

end LiveFeed
