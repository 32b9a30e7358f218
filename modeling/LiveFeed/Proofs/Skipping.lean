import LiveFeed.Json.Skip
import LiveFeed.Proofs.ValueGrammar

namespace LiveFeed.Json

section String

theorem skipString_plain {c : Char} (hquote : c ≠ '"') (hslash : c ≠ '\\')
    (hcontrol : ¬ c.toNat < 0x20) (rest : Text) : skipString (c :: rest) = skipString rest := by
  rw [skipString.eq_def]
  simp only [if_neg hquote, if_neg hslash, if_neg hcontrol]

theorem skipString_short {e c : Char} (h : ShortEscape e c) (rest : Text) :
    skipString ('\\' :: e :: rest) = skipString rest := by
  have hescape := shortEscape?_eq_some_iff.mpr h
  have hunit : e ≠ 'u' := by
    rintro rfl
    cases h
  rw [skipString.eq_def]
  simp [hunit, hescape]

theorem skipString_unit {h₁ h₂ h₃ h₄ : Char} {n : Nat} (h : HexUnit h₁ h₂ h₃ h₄ n)
    (rest : Text) : skipString ('\\' :: 'u' :: h₁ :: h₂ :: h₃ :: h₄ :: rest) = skipString rest := by
  rw [skipString.eq_def]
  simp [hexUnit?_eq_some_iff.mpr h]

theorem skipString_of_spells {t : Text} {cs : List Char} (h : Spells t cs) (rest : Text) :
    skipString (t ++ '"' :: rest) = .ok rest := by
  induction h with
  | nil =>
    rw [List.nil_append, skipString.eq_def]
    rfl
  | plain hquote hslash hcontrol _ ih =>
    rw [List.cons_append, skipString_plain hquote hslash hcontrol, ih]
  | short he _ ih => rw [List.cons_append, List.cons_append, skipString_short he, ih]
  | unit hc _ ih =>
    simp only [List.cons_append]
    rw [skipString_unit hc, ih]
  | pair hhigh hlow _ _ ih =>
    simp only [List.cons_append]
    rw [skipString_unit hhigh, skipString_unit hlow, ih]

end String

theorem skipStart_behind {s : Text} (hs : Space s) (cs : Text) :
    skipStart (s ++ cs) = skipStart cs := by
  rw [skipStart, skipSpace_append hs, skipStart]

theorem skipStart_scalar {t rest : Text} {v : Value} (h : Scalar t v) (hrest : Apart rest) :
    skipStart (t ++ rest) = .ok (none, rest) := by
  cases h with
  | null => rfl
  | true => rfl
  | false => rfl
  | string h =>
    rw [List.cons_append, List.append_assoc, skipStart, skipSpace_cons (by decide)]
    simp only [List.singleton_append, skipString_of_spells h, bind, Except.bind]
    rfl
  | @number n t v h hv =>
    have hnumeral := numeral_append h hrest .malformed
    obtain ⟨c, more, rfl, hc⟩ := exists_of_writes h
    have hkind : (c = '-' || c.isDigit) = true := by simpa [Leads] using hc
    rw [List.cons_append] at hnumeral ⊢
    rw [skipStart, skipSpace_cons hc.isSpace_eq]
    simp only [if_neg (hc.ne (d := '"') (by decide) rfl), if_neg (hc.ne (d := '[') (by decide) rfl),
      if_neg (hc.ne (d := '{') (by decide) rfl), if_pos hkind, hnumeral, bind, Except.bind]
    rfl

theorem Bracket.isSpace_closing (b : Bracket) : isSpace b.closing = false := by
  cases b with
  | square => rfl
  | curly => rfl

/-- Steps over one value between the brackets that are open, and on from there. -/
def skipInside (bound : Nat) (opened : List Bracket) (cs : Text) : Except DecodeError Text := do
  match ← skipStart cs with
  | (none, cs) => skipOpen bound false opened cs
  | (some b, cs) => skipOpen bound true (b :: opened) cs

theorem skipOpen_nil (bound : Nat) (first : Bool) (cs : Text) :
    skipOpen bound first [] cs = .ok cs := by
  cases bound with
  | zero => rfl
  | succ bound => rfl

theorem skipValue_eq (bound : Nat) (cs : Text) : skipValue bound cs = skipInside bound [] cs := by
  rw [skipValue, skipInside]
  cases skipStart cs with
  | error e => rfl
  | ok start =>
    obtain ⟨inner, cs⟩ := start
    cases inner with
    | none => exact (skipOpen_nil bound false cs).symm
    | some b => rfl

theorem skipInside_behind {s : Text} (hs : Space s) (bound : Nat) (opened : List Bracket)
    (cs : Text) : skipInside bound opened (s ++ cs) = skipInside bound opened cs := by
  rw [skipInside, skipStart_behind hs, skipInside]

section Step

variable {first : Bool} {u : Text}

theorem skipOpen_close {s : Text} (hs : Space s) (bound : Nat) (first : Bool) (b : Bracket)
    (outer : List Bracket) (rest : Text) :
    skipOpen (bound + 1) first (b :: outer) (s ++ b.closing :: rest) =
      skipOpen bound false outer rest := by
  rw [skipOpen, skipSpace_behind hs b.isSpace_closing]
  exact if_pos rfl

/-- Behind what leads to a part, its key comes and then its value. -/
theorem skipOpen_lead (hu : Lead first u) {b : Bracket} {c : Char} (hspace : isSpace c = false)
    (hclose : c ≠ b.closing) (bound : Nat) (outer : List Bracket) (cs : Text) :
    ∃ s, Space s ∧ skipOpen (bound + 1) first (b :: outer) (u ++ c :: cs) =
      skipKey b (s ++ c :: cs) >>= skipInside bound (b :: outer) := by
  cases hu with
  | first hs =>
    refine ⟨[], List.forall_mem_nil _, ?_⟩
    rw [skipOpen, skipSpace_behind hs hspace]
    simp only [if_neg hclose, Bool.true_or, if_true, List.nil_append]
    rfl
  | @comma s s' hs hs' =>
    have hcomma : ',' ≠ b.closing := by
      cases b with
      | square => decide
      | curly => decide
    refine ⟨s', hs', ?_⟩
    rw [List.append_assoc, List.cons_append, skipOpen, skipSpace_behind hs (by decide)]
    simp only [if_neg hcomma, decide_true, Bool.or_true, if_true, Bool.false_eq_true, if_false]
    rfl

theorem skipOpen_square (hu : Lead first u) {c : Char} (hspace : isSpace c = false)
    (hclose : c ≠ ']') (bound : Nat) (outer : List Bracket) (cs : Text) :
    skipOpen (bound + 1) first (.square :: outer) (u ++ c :: cs) =
      skipInside bound (.square :: outer) (c :: cs) := by
  obtain ⟨s, hs, hstep⟩ := skipOpen_lead (b := .square) hu hspace hclose bound outer cs
  exact hstep.trans (skipInside_behind hs bound _ _)

theorem skipOpen_curly (hu : Lead first u) {key s : Text} {chars : List Char}
    (hkey : Spells key chars) (hs : Space s) (bound : Nat) (outer : List Bracket) (cs : Text) :
    skipOpen (bound + 1) first (.curly :: outer)
        (u ++ '"' :: (key ++ '"' :: (s ++ ':' :: cs))) =
      skipInside bound (.curly :: outer) cs := by
  obtain ⟨s', hs', hstep⟩ := skipOpen_lead (b := .curly) (c := '"') hu (by decide) (by decide)
    bound outer (key ++ '"' :: (s ++ ':' :: cs))
  have hskip : skipKey .curly (s' ++ '"' :: (key ++ '"' :: (s ++ ':' :: cs))) = .ok cs := by
    rw [skipKey, skipSpace_behind hs' (by decide)]
    simp only [if_true, skipString_of_spells hkey, bind, Except.bind, colon_eq,
      expect_behind ':' rfl hs]
  rw [hstep, hskip]
  rfl

end Step

/-- What is a value is stepped over, within as many steps as it has characters. -/
def Skips (part : Text → Value → Prop) : Prop :=
  ∀ s t v rest, Space s → part t v → Apart rest → ∃ steps < t.length, ∀ bound opened,
    skipInside (bound + steps) opened (s ++ (t ++ rest)) = skipOpen bound false opened rest

section Parts

variable {part : Text → Value → Prop} {first : Bool} {t : Text}

/-- With a step for each part and one for the closing bracket, parts are stepped over. -/
theorem skipOpen_parts {α : Type} {part : Text → α → Prop} {b : Bracket} {as : List α}
    (hpart : ∀ first u t a rest, Lead first u → part t a → Apart rest →
      ∃ steps ≤ t.length, ∀ bound outer,
        skipOpen (bound + steps) first (b :: outer) (u ++ (t ++ rest)) =
          skipOpen bound false (b :: outer) rest)
    (h : Parts part first t as) (rest : Text) :
    ∃ steps ≤ t.length + 1, ∀ bound outer,
      skipOpen (bound + steps) first (b :: outer) (t ++ b.closing :: rest) =
        skipOpen bound false outer rest := by
  induction h with
  | @nil first s hs =>
    exact ⟨1, by omega, fun bound outer => skipOpen_close hs bound first b outer rest⟩
  | @cons first u t more a as hu ht hmore ih =>
    obtain ⟨steps, hsteps, hskip⟩ := ih
    have hclosing : Apart (b.closing :: rest) := by
      cases b with
      | square => simp [Apart, Bracket.closing]
      | curly => simp [Apart, Bracket.closing]
    obtain ⟨steps', hsteps', hskip'⟩ := hpart first u t a _ hu ht (hmore.apart hclosing)
    refine ⟨steps + steps', by simp only [List.length_append]; omega, fun bound outer => ?_⟩
    rw [← Nat.add_assoc, List.append_assoc, List.append_assoc, hskip', hskip]

theorem skipOpen_items (hpart : Skips part) (hbegins : Begins part) {items : List Value}
    (h : Parts part first t items) (rest : Text) :
    ∃ steps ≤ t.length + 1, ∀ bound outer,
      skipOpen (bound + steps) first (.square :: outer) (t ++ ']' :: rest) =
        skipOpen bound false outer rest := by
  refine skipOpen_parts (b := .square) (fun first u t v rest hu ht hrest => ?_) h rest
  obtain ⟨steps, hsteps, hskip⟩ := hpart [] t v rest (List.forall_mem_nil _) ht hrest
  obtain ⟨c, cs, rfl, hspace, hclose⟩ := hbegins t v ht
  refine ⟨steps + 1, hsteps, fun bound outer => ?_⟩
  exact (skipOpen_square hu hspace hclose (bound + steps) outer _).trans (hskip bound _)

theorem skipOpen_members (hpart : Skips part) {members : List (String × Value)}
    (h : Parts (Member part) first t members) (rest : Text) :
    ∃ steps ≤ t.length + 1, ∀ bound outer,
      skipOpen (bound + steps) first (.curly :: outer) (t ++ '}' :: rest) =
        skipOpen bound false outer rest := by
  refine skipOpen_parts (b := .curly) (fun first u t m rest hu ht hrest => ?_) h rest
  cases ht with
  | @mk key s s' t chars v hkey hs hs' ht =>
    obtain ⟨steps, hsteps, hskip⟩ := hpart s' t v rest hs' ht hrest
    refine ⟨steps + 1, by simp only [List.length_cons, List.length_append]; omega,
      fun bound outer => ?_⟩
    have htext : u ++ ('"' :: (key ++ '"' :: (s ++ ':' :: (s' ++ t))) ++ rest) =
        u ++ '"' :: (key ++ '"' :: (s ++ ':' :: (s' ++ (t ++ rest)))) := by simp
    rw [htext, ← Nat.add_assoc, skipOpen_curly hu hkey hs, hskip]

end Parts

theorem skips_scalar : Skips Scalar := by
  intro s t v rest hs ht hrest
  obtain ⟨c, more, rfl, -⟩ := begins_scalar t v ht
  refine ⟨0, Nat.succ_pos _, fun bound opened => ?_⟩
  rw [skipInside_behind hs, skipInside, skipStart_scalar ht hrest]
  rfl

theorem skips_isValue (depth : Nat) : Skips (IsValue depth) := by
  induction depth with
  | zero => exact skips_scalar
  | succ depth ih =>
    intro s t v rest hs ht hrest
    cases ht with
    | scalar ht => exact skips_scalar s t v rest hs ht hrest
    | @array t items ht =>
      -- the step for the closing bracket is covered by the two characters of the brackets
      obtain ⟨steps, hsteps, hskip⟩ := skipOpen_items ih (begins_isValue depth) ht rest
      refine ⟨steps, by simp only [List.length_cons, List.length_append]; omega,
        fun bound opened => ?_⟩
      have htext : '[' :: (t ++ [']']) ++ rest = '[' :: (t ++ ']' :: rest) := by simp
      rw [skipInside_behind hs, htext]
      exact hskip bound opened
    | @object t ms ht =>
      obtain ⟨steps, hsteps, hskip⟩ := skipOpen_members ih ht rest
      refine ⟨steps, by simp only [List.length_cons, List.length_append]; omega,
        fun bound opened => ?_⟩
      have htext : '{' :: (t ++ ['}']) ++ rest = '{' :: (t ++ '}' :: rest) := by simp
      rw [skipInside_behind hs, htext]
      exact hskip bound opened

/-- A value that nobody wants is stepped over exactly as far as it would be read. -/
theorem skipValue_of_isValue {bound depth : Nat} {s t rest : Text} {v : Value} (hs : Space s)
    (ht : IsValue depth t v) (hsize : t.length ≤ bound) (hrest : Apart rest) :
    skipValue bound (s ++ (t ++ rest)) = .ok rest := by
  obtain ⟨steps, hsteps, hskip⟩ := skips_isValue depth s t v rest hs ht hrest
  obtain ⟨left, rfl⟩ : ∃ left, bound = left + steps := ⟨bound - steps, by omega⟩
  rw [skipValue_eq, hskip, skipOpen_nil]

end LiveFeed.Json
