import LiveFeed.Proofs.Basic
import LiveFeed.Proofs.Grammar

namespace LiveFeed.Json

theorem isSpace_iff {c : Char} :
    isSpace c = true ↔ c = ' ' ∨ c = '\n' ∨ c = '\t' ∨ c = '\r' := by
  simp only [isSpace, Bool.or_eq_true, decide_eq_true_eq, or_assoc]

/-- What is skipped is the space of the grammar. -/
theorem space_iff {cs : Text} : Space cs ↔ ∀ c ∈ cs, isSpace c = true := by
  simp only [Space, isSpace_iff]

theorem skipSpace_cons {c : Char} (h : isSpace c = false) (cs : Text) :
    skipSpace (c :: cs) = c :: cs := by
  rw [skipSpace, List.dropWhile_cons_of_neg (by simp [h])]

theorem skipSpace_append {s : Text} (hs : Space s) (cs : Text) :
    skipSpace (s ++ cs) = skipSpace cs := by
  rw [skipSpace, List.dropWhile_append_of_pos (space_iff.mp hs), skipSpace]

theorem skipSpace_behind {s : Text} (hs : Space s) {c : Char} (hc : isSpace c = false)
    (cs : Text) : skipSpace (s ++ c :: cs) = c :: cs := by
  rw [skipSpace_append hs, skipSpace_cons hc]

theorem exists_space (cs : Text) : ∃ s, Space s ∧ cs = s ++ skipSpace cs :=
  ⟨cs.takeWhile isSpace, space_iff.mpr (List.all_eq_true.mp List.all_takeWhile),
    List.takeWhile_append_dropWhile.symm⟩

section String

theorem stringFrom_close (read : List Char) (rest : Text) :
    stringFrom read ('"' :: rest) = .ok (read.reverse, rest) := by
  rw [stringFrom.eq_def]
  rfl

theorem stringFrom_plain {c : Char} (hquote : c ≠ '"') (hslash : c ≠ '\\')
    (hcontrol : ¬ c.toNat < 0x20) (read : List Char) (rest : Text) :
    stringFrom read (c :: rest) = stringFrom (c :: read) rest := by
  rw [stringFrom.eq_def]
  simp only [if_neg hquote, if_neg hslash, if_neg hcontrol]

theorem stringFrom_short {e c : Char} (h : ShortEscape e c) (read : List Char) (rest : Text) :
    stringFrom read ('\\' :: e :: rest) = stringFrom (c :: read) rest := by
  have hescape := shortEscape?_eq_some_iff.mpr h
  have hunit : e ≠ 'u' := by
    rintro rfl
    cases h
  rw [stringFrom.eq_def]
  simp [hunit, hescape]

theorem stringFrom_unit {h₁ h₂ h₃ h₄ c : Char} (h : HexUnit h₁ h₂ h₃ h₄ c.toNat)
    (read : List Char) (rest : Text) :
    stringFrom read ('\\' :: 'u' :: h₁ :: h₂ :: h₃ :: h₄ :: rest) =
      stringFrom (c :: read) rest := by
  have hunit := hexUnit?_eq_some_iff.mpr h
  obtain ⟨hlow, hhigh, -⟩ := (hexUnit_toNat_iff (c := c) h).mp rfl
  rw [stringFrom.eq_def]
  simp [hunit, hlow, hhigh]

theorem isLowSurrogate_of_isHighSurrogate {n : Nat} (h : isHighSurrogate n = true) :
    isLowSurrogate n = false := by
  rw [isHighSurrogate_iff] at h
  rw [← Bool.not_eq_true, isLowSurrogate_iff]
  omega

theorem stringFrom_pair {h₁ h₂ h₃ h₄ l₁ l₂ l₃ l₄ c : Char} {high low : Nat}
    (hhigh : HexUnit h₁ h₂ h₃ h₄ high) (hlow : HexUnit l₁ l₂ l₃ l₄ low)
    (hc : SurrogatePair high low c) (read : List Char) (rest : Text) :
    stringFrom read ('\\' :: 'u' :: h₁ :: h₂ :: h₃ :: h₄ ::
        '\\' :: 'u' :: l₁ :: l₂ :: l₃ :: l₄ :: rest) =
      stringFrom (c :: read) rest := by
  obtain ⟨hfirst, hsecond, hjoined⟩ := surrogatePair_iff.mp hc
  have hnot := isLowSurrogate_of_isHighSurrogate hfirst
  rw [stringFrom.eq_def, hjoined]
  simp [hexUnit?_eq_some_iff.mpr hhigh, hexUnit?_eq_some_iff.mpr hlow, hnot, hfirst, hsecond]

theorem stringFrom_of_spells {t : Text} {cs : List Char} (h : Spells t cs) (read : List Char)
    (rest : Text) : stringFrom read (t ++ '"' :: rest) = .ok (read.reverse ++ cs, rest) := by
  induction h generalizing read with
  | nil => rw [List.nil_append, stringFrom_close, List.append_nil]
  | plain hquote hslash hcontrol _ ih =>
    rw [List.cons_append, stringFrom_plain hquote hslash hcontrol, ih]
    simp
  | short he _ ih =>
    rw [List.cons_append, List.cons_append, stringFrom_short he, ih]
    simp
  | unit hc _ ih =>
    simp only [List.cons_append]
    rw [stringFrom_unit hc, ih]
    simp
  | pair hhigh hlow hc _ ih =>
    simp only [List.cons_append]
    rw [stringFrom_pair hhigh hlow hc, ih]
    simp

theorem spells_of_stringFrom {read cs : List Char} {rest : Text} {result : List Char}
    (h : stringFrom read cs = .ok (result, rest)) :
    ∃ t spelled, Spells t spelled ∧ cs = t ++ '"' :: rest ∧ result = read.reverse ++ spelled := by
  fun_induction stringFrom read cs with
  | case2 read cs =>
    cases h
    exact ⟨[], [], .nil, rfl, (List.append_nil _).symm⟩
  | case9 read h₁ h₂ h₃ h₄ n hn hnot hhigh l₁ l₂ l₃ l₄ cs m hm hlow _ ih =>
    obtain ⟨t, spelled, hspells, rfl, rfl⟩ := ih h
    have hpair := surrogatePair_iff.mpr ⟨hhigh, hlow, rfl⟩
    exact ⟨_, _, .pair (hexUnit?_eq_some_iff.mp hn) (hexUnit?_eq_some_iff.mp hm) hpair hspells, rfl,
      by simp⟩
  | case14 read h₁ h₂ h₃ h₄ cs n hn hlow hhigh _ ih =>
    obtain ⟨t, spelled, hspells, rfl, rfl⟩ := ih h
    rw [Bool.not_eq_true] at hlow hhigh
    have hunit := hexUnit?_eq_some_iff.mp hn
    rw [← (hexUnit_toNat_iff hunit).mpr ⟨hlow, hhigh, rfl⟩] at hunit
    exact ⟨_, _, .unit hunit hspells, rfl, by simp⟩
  | case16 read e cs _ c he _ ih =>
    obtain ⟨t, spelled, hspells, rfl, rfl⟩ := ih h
    exact ⟨_, _, .short (shortEscape?_eq_some_iff.mp he) hspells, rfl, by simp⟩
  | case19 read c cs hquote hslash hcontrol ih =>
    obtain ⟨t, spelled, hspells, rfl, rfl⟩ := ih h
    exact ⟨_, _, .plain hquote hslash hcontrol hspells, rfl, by simp⟩
  | _ => cases h

theorem string_of_spells {t : Text} {cs : List Char} (h : Spells t cs) (rest : Text) :
    string (t ++ '"' :: rest) = .ok (String.ofList cs, rest) := by
  rw [string, stringFrom_of_spells h]
  rfl

theorem spells_of_string {cs rest : Text} {s : String} (h : string cs = .ok (s, rest)) :
    ∃ t spelled, Spells t spelled ∧ cs = t ++ '"' :: rest ∧ s = String.ofList spelled := by
  obtain ⟨⟨result, rest'⟩, hfrom, hout⟩ := exists_of_bind_eq_ok h
  cases hout
  obtain ⟨t, spelled, hspells, hcs, hresult⟩ := spells_of_stringFrom hfrom
  exact ⟨t, spelled, hspells, hcs, congrArg String.ofList hresult⟩

end String

section Number

variable {ds rest cs : Text} {short : DecodeError}

/-- No digit comes next. -/
def Ended (rest : Text) : Prop := ∀ c ∈ rest.head?, c.isDigit = false

/-- No character that could go on with a number comes next. -/
def Apart (rest : Text) : Prop :=
  ∀ c ∈ rest.head?, c.isDigit = false ∧ c ≠ '.' ∧ c ≠ 'e' ∧ c ≠ 'E'

theorem Apart.ended (h : Apart rest) : Ended rest := fun c hc => (h c hc).1

theorem digits_append (h : IsDigits ds) (hrest : Ended rest) (short : DecodeError) :
    digits short (ds ++ rest) = .ok (ds, rest) := by
  obtain ⟨hne, hds⟩ := h
  have hnone : rest.takeWhile Char.isDigit = [] := by
    cases rest with
    | nil => rfl
    | cons c cs => rw [List.takeWhile_cons_of_neg (by simp [hrest c rfl])]
  have htake : (ds ++ rest).takeWhile Char.isDigit = ds := by
    rw [List.takeWhile_append_of_pos hds, hnone, List.append_nil]
  have hdrop : (ds ++ rest).dropWhile Char.isDigit = rest := by
    have hall := List.takeWhile_append_dropWhile (p := Char.isDigit) (l := ds ++ rest)
    rw [htake] at hall
    exact List.append_cancel_left hall
  obtain ⟨d, more, rfl⟩ := List.exists_cons_of_ne_nil hne
  rw [digits, htake, hdrop]

theorem isDigits_of_digits (h : digits short cs = .ok (ds, rest)) :
    IsDigits ds ∧ cs = ds ++ rest := by
  have hsplit := List.takeWhile_append_dropWhile (p := Char.isDigit) (l := cs)
  have hdigits : ∀ d ∈ cs.takeWhile Char.isDigit, d.isDigit = true :=
    List.all_eq_true.mp List.all_takeWhile
  unfold digits at h
  split at h
  next => cases h
  next d more htake =>
    cases h
    rw [htake] at hsplit hdigits
    exact ⟨⟨List.cons_ne_nil d more, hdigits⟩, hsplit.symm⟩

theorem wholeDigits_append (h : IsDigits ds) (hzero : ds.head? = some '0' → ds.length = 1)
    (hrest : Ended rest) (short : DecodeError) :
    wholeDigits short (ds ++ rest) = .ok (ds, rest) := by
  rw [wholeDigits, digits_append h hrest]
  simp only [bind, Except.bind]
  split
  next => simp at hzero
  next => rfl

theorem isDigits_of_wholeDigits (h : wholeDigits short cs = .ok (ds, rest)) :
    IsDigits ds ∧ (ds.head? = some '0' → ds.length = 1) ∧ cs = ds ++ rest := by
  obtain ⟨⟨ds', rest'⟩, hdigits, hout⟩ := exists_of_bind_eq_ok h
  obtain ⟨hds, rfl⟩ := isDigits_of_digits hdigits
  dsimp only at hout
  split at hout
  next => cases hout
  next hzero =>
    cases hout
    refine ⟨hds, fun hhead => ?_, rfl⟩
    obtain ⟨d, more, rfl⟩ := List.exists_cons_of_ne_nil hds.1
    obtain rfl := Option.some.inj hhead
    cases more with
    | nil => rfl
    | cons e more => exact absurd rfl (hzero e more)

theorem fractionDigits_append {f : Text} (h : Numeral.WritesFraction ds f) (hrest : Ended rest)
    (hpoint : rest.head? ≠ some '.') (short : DecodeError) :
    fractionDigits short (f ++ rest) = .ok (ds, rest) := by
  cases h with
  | none =>
    unfold fractionDigits
    split
    next cs he => exact absurd (by rw [← List.nil_append rest, he]; rfl) hpoint
    next => rfl
  | point h => exact digits_append h hrest short

theorem writesFraction_of_fractionDigits (h : fractionDigits short cs = .ok (ds, rest)) :
    ∃ f, Numeral.WritesFraction ds f ∧ cs = f ++ rest := by
  unfold fractionDigits at h
  split at h
  next cs =>
    obtain ⟨hds, rfl⟩ := isDigits_of_digits h
    exact ⟨_, .point hds, rfl⟩
  next =>
    cases h
    exact ⟨_, .none, rfl⟩

theorem ne_of_isDigit {c d : Char} (hd : d.isDigit = true) (hc : c.isDigit = false) : d ≠ c := by
  rintro rfl
  rw [hc] at hd
  cases hd

theorem exponentDigits_append {exponent : Option (Bool × List Char)} {e : Text}
    (h : Numeral.WritesExponent exponent e) (hrest : Apart rest) (short : DecodeError) :
    exponentDigits short (e ++ rest) = .ok (exponent, rest) := by
  cases h with
  | none =>
    cases rest with
    | nil => rfl
    | cons c cs =>
      obtain ⟨-, -, he, hE⟩ := hrest c rfl
      unfold exponentDigits
      simp [he, hE]
  | unsigned he h =>
    obtain ⟨d, more, rfl⟩ := List.exists_cons_of_ne_nil h.1
    have hd : d.isDigit = true := h.2 d List.mem_cons_self
    rw [List.cons_append, exponentDigits, if_pos (by simpa using he)]
    · simp only [digits_append h hrest.ended, bind, Except.bind]
      rfl
    all_goals
      intro cs hcs
      exact ne_of_isDigit hd rfl (List.cons.inj hcs).1
  | plus he h =>
    rw [List.cons_append, List.cons_append, exponentDigits, if_pos (by simpa using he)]
    simp only [digits_append h hrest.ended, bind, Except.bind]
    rfl
  | minus he h =>
    rw [List.cons_append, List.cons_append, exponentDigits, if_pos (by simpa using he)]
    simp only [digits_append h hrest.ended, bind, Except.bind]
    rfl

theorem writesExponent_of_exponentDigits {exponent : Option (Bool × List Char)}
    (h : exponentDigits short cs = .ok (exponent, rest)) :
    ∃ e, Numeral.WritesExponent exponent e ∧ cs = e ++ rest := by
  unfold exponentDigits at h
  split at h
  next c cs =>
    split at h
    next hc =>
      have hletter : c = 'e' ∨ c = 'E' := by simpa using hc
      dsimp only at h
      split at h
      next =>
        obtain ⟨⟨ds, rest'⟩, hdigits, hout⟩ := exists_of_bind_eq_ok h
        cases hout
        obtain ⟨hds, rfl⟩ := isDigits_of_digits hdigits
        exact ⟨_, .plus hletter hds, rfl⟩
      next =>
        obtain ⟨⟨ds, rest'⟩, hdigits, hout⟩ := exists_of_bind_eq_ok h
        cases hout
        obtain ⟨hds, rfl⟩ := isDigits_of_digits hdigits
        exact ⟨_, .minus hletter hds, rfl⟩
      next =>
        obtain ⟨⟨ds, rest'⟩, hdigits, hout⟩ := exists_of_bind_eq_ok h
        cases hout
        obtain ⟨hds, rfl⟩ := isDigits_of_digits hdigits
        exact ⟨_, .unsigned hletter hds, rfl⟩
    next =>
      cases h
      exact ⟨[], .none, rfl⟩
  next =>
    cases h
    exact ⟨[], .none, rfl⟩

/-- The parts of a number whose sign is known. -/
def numeralBehind (short : DecodeError) (negative : Bool) (cs : Text) :
    Except DecodeError (Numeral × Text) := do
  let (whole, cs) ← wholeDigits short cs
  let (fraction, cs) ← fractionDigits short cs
  let (exponent, cs) ← exponentDigits short cs
  return (⟨negative, whole, fraction, exponent⟩, cs)

theorem numeral_of_sign (short : DecodeError) (cs : Text) :
    ∃ negative more, cs = (if negative then ['-'] else []) ++ more ∧
      numeral short cs = numeralBehind short negative more := by
  unfold numeral
  split
  next negative more hsign =>
    split at hsign
    next =>
      cases hsign
      exact ⟨true, _, rfl, rfl⟩
    next =>
      cases hsign
      exact ⟨false, _, rfl, rfl⟩

theorem ended_exponent {exponent : Option (Bool × List Char)} {e : Text}
    (h : Numeral.WritesExponent exponent e) (hrest : Apart rest) :
    Ended (e ++ rest) ∧ (e ++ rest).head? ≠ some '.' := by
  have hletter : ∀ {c : Char} {more : Text}, c = 'e' ∨ c = 'E' →
      Ended (c :: more) ∧ (c :: more).head? ≠ some '.' := by
    rintro c more (rfl | rfl) <;> simp [Ended]
  cases h with
  | none => exact ⟨hrest.ended, fun hpoint => (hrest '.' hpoint).2.1 rfl⟩
  | unsigned he _ => exact hletter he
  | plus he _ => exact hletter he
  | minus he _ => exact hletter he

theorem ended_fraction {f : Text} (h : Numeral.WritesFraction ds f) (hrest : Ended rest) :
    Ended (f ++ rest) := by
  cases h with
  | none => exact hrest
  | point _ => simp [Ended]

/-- A number is read to its end where no character comes next that could go on with it. -/
theorem numeral_append {n : Numeral} {t : Text} (h : n.Writes t) (hrest : Apart rest)
    (short : DecodeError) : numeral short (t ++ rest) = .ok (n, rest) := by
  cases h with
  | @mk negative whole fraction exponent f e hwhole hzero hf he =>
    obtain ⟨hended, hpoint⟩ := ended_exponent he hrest
    have hbehind : numeralBehind short negative (whole ++ (f ++ (e ++ rest))) =
        .ok (⟨negative, whole, fraction, exponent⟩, rest) := by
      rw [numeralBehind, wholeDigits_append hwhole hzero (ended_fraction hf hended)]
      simp only [bind, Except.bind, fractionDigits_append hf hended hpoint,
        exponentDigits_append he hrest]
      rfl
    simp only [List.append_assoc]
    cases negative with
    | true => exact hbehind
    | false =>
      obtain ⟨d, more, rfl⟩ := List.exists_cons_of_ne_nil hwhole.1
      have hsign : d ≠ '-' := ne_of_isDigit (hwhole.2 d List.mem_cons_self) rfl
      obtain ⟨negative, more', hmore, hnumeral⟩ :=
        numeral_of_sign short (d :: more ++ (f ++ (e ++ rest)))
      cases negative with
      | true => exact absurd (List.cons.inj hmore).1 hsign
      | false =>
        obtain rfl : d :: more ++ (f ++ (e ++ rest)) = more' := hmore
        exact hnumeral.trans hbehind

theorem writes_of_numeral {n : Numeral} (h : numeral short cs = .ok (n, rest)) :
    ∃ t, n.Writes t ∧ cs = t ++ rest := by
  obtain ⟨negative, more, rfl, hbehind⟩ := numeral_of_sign short cs
  rw [hbehind] at h
  obtain ⟨⟨whole, cs₁⟩, hwhole, h⟩ := exists_of_bind_eq_ok h
  obtain ⟨⟨fraction, cs₂⟩, hfraction, h⟩ := exists_of_bind_eq_ok h
  obtain ⟨⟨exponent, cs₃⟩, hexponent, h⟩ := exists_of_bind_eq_ok h
  cases h
  obtain ⟨hdigits, hzero, rfl⟩ := isDigits_of_wholeDigits hwhole
  obtain ⟨f, hf, rfl⟩ := writesFraction_of_fractionDigits hfraction
  obtain ⟨e, he, rfl⟩ := writesExponent_of_exponentDigits hexponent
  exact ⟨_, .mk hdigits hzero hf he, by simp⟩

theorem Numeral.isWhole_iff {n : Numeral} :
    n.isWhole = true ↔ n.fraction = [] ∧ n.exponent = none := by
  rw [isWhole, Bool.and_eq_true, List.isEmpty_iff, Option.isNone_iff_eq_none]

theorem Numeral.integer?_eq_some_iff {n : Numeral} {i : Int} :
    n.integer? = some i ↔ n.IsInteger i := by
  have hlimit : UInt64.size = 2 ^ 64 := rfl
  have hvalue : Decimal.value n.whole = Nat.ofDigitChars 10 n.whole 0 := rfl
  rw [integer?, IsInteger, ← and_assoc, ← isWhole_iff, hvalue, hlimit]
  generalize Nat.ofDigitChars 10 n.whole 0 = size
  cases n.isWhole with
  | false => simp
  | true =>
    cases n.negative with
    | true =>
      simp only [Bool.not_true, Bool.false_eq_true, if_false, if_true, true_and, Bool.and_eq_true,
        decide_eq_true_eq, Option.ite_none_right_eq_some, Option.some.injEq]
      omega
    | false =>
      simp only [Bool.not_true, Bool.false_eq_true, if_false, true_and,
        Option.ite_none_right_eq_some, Option.some.injEq]
      omega

theorem Numeral.value_eq_ok_iff {n : Numeral} {v : Value} : n.value = .ok v ↔ n.Stands v := by
  unfold value
  split
  next i hi =>
    have hinteger := integer?_eq_some_iff.mp hi
    constructor
    · intro h
      cases h
      exact .integer hinteger
    · rintro (⟨h⟩ | ⟨h, -⟩)
      · rw [Option.some.inj (hi.symm.trans (integer?_eq_some_iff.mpr h))]
      · exact absurd hinteger (h i)
  next hnone =>
    have hinteger : ∀ i, ¬ n.IsInteger i := by
      intro i h
      rw [integer?_eq_some_iff.mpr h] at hnone
      cases hnone
    constructor
    · intro h
      split at h
      next hrange =>
        cases h
        exact .fraction hinteger (inRange_iff.mp hrange)
      next => cases h
    · rintro (⟨h⟩ | ⟨-, hrange⟩)
      · exact absurd h (hinteger _)
      · rw [if_pos (inRange_iff.mpr hrange)]

theorem number_append {n : Numeral} {t : Text} {v : Value} (h : n.Writes t) (hv : n.Stands v)
    (hrest : Apart rest) : number (t ++ rest) = .ok (v, rest) := by
  rw [number, numeral_append h hrest]
  simp only [bind, Except.bind, Numeral.value_eq_ok_iff.mpr hv]
  rfl

/-- A sign or a digit, the first character of a number. -/
def Leads (c : Char) : Prop := c = '-' ∨ c.isDigit = true

theorem Leads.ne {c d : Char} (h : Leads c) (hsign : d ≠ '-') (hdigit : d.isDigit = false) :
    c ≠ d := by
  rintro rfl
  rcases h with h | h
  · exact hsign h
  · exact ne_of_isDigit h hdigit rfl

theorem Leads.isSpace_eq {c : Char} (h : Leads c) : isSpace c = false := by
  simp [isSpace, h.ne (d := ' ') (by decide) rfl, h.ne (d := '\n') (by decide) rfl,
    h.ne (d := '\t') (by decide) rfl, h.ne (d := '\r') (by decide) rfl]

theorem exists_of_writes {n : Numeral} {t : Text} (h : n.Writes t) :
    ∃ c more, t = c :: more ∧ Leads c := by
  cases h with
  | @mk negative whole fraction exponent f e hwhole hzero hf he =>
    obtain ⟨d, more, rfl⟩ := List.exists_cons_of_ne_nil hwhole.1
    cases negative with
    | true => exact ⟨'-', _, rfl, .inl rfl⟩
    | false => exact ⟨d, _, rfl, .inr (hwhole.2 d List.mem_cons_self)⟩

theorem writes_of_number {v : Value} (h : number cs = .ok (v, rest)) :
    ∃ n t, Numeral.Writes n t ∧ n.Stands v ∧ cs = t ++ rest := by
  obtain ⟨⟨n, rest'⟩, hnumeral, h⟩ := exists_of_bind_eq_ok h
  obtain ⟨v', hvalue, h⟩ := exists_of_bind_eq_ok h
  cases h
  obtain ⟨t, hwrites, rfl⟩ := writes_of_numeral hnumeral
  exact ⟨n, t, hwrites, Numeral.value_eq_ok_iff.mp hvalue, rfl⟩

end Number

theorem eq_of_word {letters cs rest : Text} (h : word letters cs = .ok rest) :
    cs = letters ++ rest := by
  induction letters generalizing cs with
  | nil =>
    cases h
    rfl
  | cons w letters ih =>
    cases cs with
    | nil => cases h
    | cons c cs =>
      rw [word] at h
      split at h
      next hc => rw [hc, ih h, List.cons_append]
      next => cases h

/-- What is read to tell the kind of a value: all of a scalar, the bracket of a container. -/
inductive Glimpse.Opens : Glimpse → Text → Prop where
  | scalar {t : Text} {v : Value} (h : Scalar t v) : Opens (.scalar v) t
  | sequence : Opens .sequence ['[']
  | map : Opens .map ['{']

theorem opens_of_word {c w : Char} {letters more rest : Text} {v : Value} {g : Glimpse}
    (hscalar : Scalar (w :: letters) v) (hc : c = w)
    (h : (do return (.scalar v, ← word letters more)) = Except.ok (g, rest)) :
    ∃ t, g.Opens t ∧ c :: more = t ++ rest := by
  obtain ⟨rest', hword, hout⟩ := exists_of_bind_eq_ok h
  cases hout
  exact ⟨_, .scalar hscalar, by rw [hc, eq_of_word hword, List.cons_append]⟩

theorem opens_of_glimpse {cs rest : Text} {g : Glimpse} (h : glimpse cs = .ok (g, rest)) :
    ∃ s t, Space s ∧ g.Opens t ∧ cs = s ++ (t ++ rest) := by
  obtain ⟨s, hs, hcs⟩ := exists_space cs
  suffices hopens : ∃ t, g.Opens t ∧ skipSpace cs = t ++ rest by
    obtain ⟨t, ht, hskip⟩ := hopens
    exact ⟨s, t, hs, ht, by rw [← hskip, ← hcs]⟩
  unfold glimpse at h
  split at h
  next => cases h
  next c more hskip =>
    rw [hskip]
    split at h
    next hc =>
      obtain ⟨⟨s, rest'⟩, hstring, hout⟩ := exists_of_bind_eq_ok h
      cases hout
      obtain ⟨t, spelled, hspells, rfl, rfl⟩ := spells_of_string hstring
      exact ⟨_, .scalar (.string hspells), by simp [hc]⟩
    split at h
    next hc =>
      cases h
      exact ⟨_, .sequence, by rw [hc]; rfl⟩
    split at h
    next hc =>
      cases h
      exact ⟨_, .map, by rw [hc]; rfl⟩
    split at h
    next =>
      obtain ⟨⟨v, rest'⟩, hnumber, hout⟩ := exists_of_bind_eq_ok h
      cases hout
      obtain ⟨n, t, hwrites, hstands, he⟩ := writes_of_number hnumber
      exact ⟨_, .scalar (.number hwrites hstands), he⟩
    split at h
    next hc => exact opens_of_word .null hc h
    split at h
    next hc => exact opens_of_word .true hc h
    split at h
    next hc => exact opens_of_word .false hc h
    next => cases h

theorem glimpse_behind {s : Text} (hs : Space s) (cs : Text) : glimpse (s ++ cs) = glimpse cs := by
  rw [glimpse, skipSpace_append hs, glimpse]

theorem glimpse_sequence (cs : Text) : glimpse ('[' :: cs) = .ok (.sequence, cs) := rfl

theorem glimpse_map (cs : Text) : glimpse ('{' :: cs) = .ok (.map, cs) := rfl

theorem glimpse_scalar {t rest : Text} {v : Value} (h : Scalar t v) (hrest : Apart rest) :
    glimpse (t ++ rest) = .ok (.scalar v, rest) := by
  cases h with
  | null => rfl
  | true => rfl
  | false => rfl
  | string h =>
    rw [List.cons_append, List.append_assoc, glimpse, skipSpace_cons (by decide)]
    simp only [List.singleton_append, string_of_spells h, bind, Except.bind]
    rfl
  | @number n t v h hv =>
    have hnumber := number_append h hv hrest
    obtain ⟨c, more, rfl, hc⟩ := exists_of_writes h
    have hkind : (c = '-' || c.isDigit) = true := by simpa [Leads] using hc
    rw [List.cons_append] at hnumber ⊢
    rw [glimpse, skipSpace_cons hc.isSpace_eq]
    simp only [if_neg (hc.ne (d := '"') (by decide) rfl), if_neg (hc.ne (d := '[') (by decide) rfl),
      if_neg (hc.ne (d := '{') (by decide) rfl), if_pos hkind, hnumber, bind, Except.bind]
    rfl

end LiveFeed.Json
