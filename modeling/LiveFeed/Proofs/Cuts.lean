import LiveFeed.Proofs.Faithful

namespace LiveFeed.Json

/-- What is left of a text of which something at the end is missing. -/
def Cut (front text : Text) : Prop := ∃ back, back ≠ [] ∧ text = front ++ back

section Cut

variable {front text s t : Text} {c : Char}

theorem not_cut_nil : ¬ Cut front [] := by
  rintro ⟨back, hback, he⟩
  exact hback (List.append_eq_nil_iff.mp he.symm).2

theorem cut_cons_iff :
    Cut front (c :: text) ↔ front = [] ∨ ∃ more, front = c :: more ∧ Cut more text := by
  constructor
  · rintro ⟨back, hback, he⟩
    cases front with
    | nil => exact .inl rfl
    | cons d more =>
      obtain ⟨rfl, rfl⟩ := List.cons.inj he
      exact .inr ⟨more, rfl, back, hback, rfl⟩
  · rintro (rfl | ⟨more, rfl, back, hback, rfl⟩)
    · exact ⟨c :: text, List.cons_ne_nil c text, rfl⟩
    · exact ⟨back, hback, rfl⟩

theorem eq_nil_of_cut_singleton (h : Cut front [c]) : front = [] := by
  rcases cut_cons_iff.mp h with hnil | ⟨more, -, hmore⟩
  · exact hnil
  · exact absurd hmore not_cut_nil

/-- Of two texts in a row, either the first is cut, or it is whole and the second is cut. -/
theorem cut_append (h : Cut front (s ++ t)) :
    Cut front s ∨ ∃ more, front = s ++ more ∧ Cut more t := by
  induction s generalizing front with
  | nil => exact .inr ⟨front, rfl, h⟩
  | cons c s ih =>
    rw [List.cons_append] at h
    rcases cut_cons_iff.mp h with hnil | ⟨more, rfl, hmore⟩
    · exact .inl (cut_cons_iff.mpr (.inl hnil))
    · rcases ih hmore with hs | ⟨rest, rfl, hrest⟩
      · exact .inl (cut_cons_iff.mpr (.inr ⟨more, rfl, hs⟩))
      · exact .inr ⟨rest, rfl, hrest⟩

theorem Cut.length_lt (h : Cut front text) : front.length < text.length := by
  obtain ⟨back, hback, rfl⟩ := h
  rw [List.length_append]
  exact Nat.lt_add_of_pos_right (List.length_pos_iff.mpr hback)

theorem Cut.subset (h : Cut front text) : front ⊆ text := by
  obtain ⟨back, -, rfl⟩ := h
  exact List.subset_append_left front back

theorem Cut.apart (h : Cut front text) (htext : Apart text) : Apart front := by
  cases front with
  | nil => exact apart_nil
  | cons c more =>
    obtain ⟨back, -, rfl⟩ := h
    exact htext

end Cut

section String

variable {front t : Text} {cs : List Char} {n : Nat} {a b c d : Char}

theorem utf8Size_of_isDigit (h : Hexadecimal.isDigit c = true) : c.utf8Size = 1 := by
  have hrange : c ≤ '9' ∨ c ≤ 'f' ∨ c ≤ 'F' := by
    unfold Hexadecimal.isDigit Hexadecimal.digit? at h
    split at h
    next hc => exact .inl (by simp_all)
    split at h
    next hc => exact .inr (.inl (by simp_all))
    split at h
    next hc => exact .inr (.inr (by simp_all))
    next => cases h
  rw [Char.utf8Size_eq_one_iff]
  rcases hrange with h | h | h
  all_goals exact UInt32.le_trans h (by decide)

/-- Fewer digits than four have to be the end of the text. -/
theorem hexError_of_digits (hdigits : ∀ c ∈ cs, Hexadecimal.isDigit c = true)
    (hlength : cs.length < 4) : hexError cs = .ended := by
  have hsize : (String.ofList cs).utf8ByteSize = cs.length := by
    clear hlength
    induction cs with
    | nil => rfl
    | cons c cs ih =>
      have hfirst := utf8Size_of_isDigit (hdigits c List.mem_cons_self)
      have hmore := ih fun d hd => hdigits d (List.mem_cons_of_mem c hd)
      rw [String.ofList_cons, String.utf8ByteSize_append, String.utf8ByteSize_singleton, hfirst,
        hmore, List.length_cons, Nat.add_comm]
  rw [hexError, hsize, if_pos hlength]

theorem hexError_of_cut (hcut : Cut front [a, b, c, d]) (hn : HexUnit a b c d n) :
    hexError front = .ended :=
  hexError_of_digits (fun x hx => List.all_eq_true.mp hn.isDigit x (hcut.subset hx)) hcut.length_lt

/-- An escape whose digits are cut ends the text. -/
theorem stringFrom_unit_cut (hcut : Cut front [a, b, c, d]) (hn : HexUnit a b c d n)
    (read : List Char) : stringFrom read ('\\' :: 'u' :: front) = .error .ended := by
  have herror : stringFrom read ('\\' :: 'u' :: front) = .error (hexError front) := by
    have hlength : front.length < 4 := hcut.length_lt
    match front with
    | [] => rfl
    | [_] => rfl
    | [_, _] => rfl
    | [_, _, _] => rfl
  rw [herror, hexError_of_cut hcut hn]

/-- The second half of a pair may be cut anywhere. -/
theorem stringFrom_pair_cut {h₁ h₂ h₃ h₄ e : Char} {high low : Nat}
    (hhigh : HexUnit h₁ h₂ h₃ h₄ high) (hlow : HexUnit a b c d low) (he : SurrogatePair high low e)
    (hcut : Cut front ['\\', 'u', a, b, c, d]) (read : List Char) :
    stringFrom read ('\\' :: 'u' :: h₁ :: h₂ :: h₃ :: h₄ :: front) = .error .ended := by
  have hn := hexUnit?_eq_some_iff.mpr hhigh
  have hfirst : isHighSurrogate high = true := (surrogatePair_iff.mp he).1
  have hnot := isLowSurrogate_of_isHighSurrogate hfirst
  rw [stringFrom.eq_def]
  rcases cut_cons_iff.mp hcut with rfl | ⟨more, rfl, hmore⟩
  · simp [hn, hnot, hfirst]
  rcases cut_cons_iff.mp hmore with rfl | ⟨digits, rfl, hdigits⟩
  · simp [hn, hnot, hfirst]
  have herror := hexError_of_cut hdigits hlow
  have hlength : digits.length < 4 := hdigits.length_lt
  rcases digits with _ | ⟨_, _ | ⟨_, _ | ⟨_, _ | ⟨_, more⟩⟩⟩⟩
  case cons.cons.cons.cons =>
    simp only [List.length_cons] at hlength
    omega
  all_goals simp [hn, hnot, hfirst, herror]

theorem stringFrom_cut {t : Text} {cs : List Char} (h : Spells t cs) (hcut : Cut front (t ++ ['"']))
    (read : List Char) : stringFrom read front = .error .ended := by
  induction h generalizing front read with
  | nil =>
    rw [eq_nil_of_cut_singleton hcut]
    rfl
  | plain hquote hslash hcontrol _ ih =>
    rcases cut_cons_iff.mp hcut with rfl | ⟨more, rfl, hmore⟩
    · rfl
    · rw [stringFrom_plain hquote hslash hcontrol]
      exact ih hmore _
  | short he _ ih =>
    rcases cut_cons_iff.mp hcut with rfl | ⟨more, rfl, hmore⟩
    · rfl
    rcases cut_cons_iff.mp hmore with rfl | ⟨rest, rfl, hrest⟩
    · rfl
    · rw [stringFrom_short he]
      exact ih hrest _
  | @unit h₁ h₂ h₃ h₄ c t cs hc _ ih =>
    rcases cut_cons_iff.mp hcut with rfl | ⟨more, rfl, hmore⟩
    · rfl
    rcases cut_cons_iff.mp hmore with rfl | ⟨digits, rfl, hdigits⟩
    · rfl
    rcases cut_append (s := [h₁, h₂, h₃, h₄]) hdigits with hfew | ⟨rest, rfl, hrest⟩
    · exact stringFrom_unit_cut hfew hc read
    · change stringFrom read ('\\' :: 'u' :: h₁ :: h₂ :: h₃ :: h₄ :: rest) = _
      rw [stringFrom_unit hc]
      exact ih hrest _
  | @pair h₁ h₂ h₃ h₄ l₁ l₂ l₃ l₄ c high low t cs hhigh hlow hc _ ih =>
    rcases cut_cons_iff.mp hcut with rfl | ⟨more, rfl, hmore⟩
    · rfl
    rcases cut_cons_iff.mp hmore with rfl | ⟨digits, rfl, hdigits⟩
    · rfl
    rcases cut_append (s := [h₁, h₂, h₃, h₄]) hdigits with hfew | ⟨second, rfl, hsecond⟩
    · exact stringFrom_unit_cut hfew hhigh read
    rcases cut_append (s := ['\\', 'u', l₁, l₂, l₃, l₄]) hsecond with hhalf | ⟨rest, rfl, hrest⟩
    · exact stringFrom_pair_cut hhigh hlow hc hhalf read
    · change stringFrom read ('\\' :: 'u' :: h₁ :: h₂ :: h₃ :: h₄ ::
        '\\' :: 'u' :: l₁ :: l₂ :: l₃ :: l₄ :: rest) = _
      rw [stringFrom_pair hhigh hlow hc]
      exact ih hrest _

theorem string_cut {t : Text} {cs : List Char} (h : Spells t cs) (hcut : Cut front (t ++ ['"'])) :
    string front = .error .ended := by
  rw [string, stringFrom_cut h hcut]
  rfl

end String

theorem word_cut {letters front : Text} (h : Cut front letters) :
    word letters front = .error .ended := by
  induction letters generalizing front with
  | nil => exact absurd h not_cut_nil
  | cons w letters ih =>
    rcases cut_cons_iff.mp h with rfl | ⟨more, rfl, hmore⟩
    · rfl
    · rw [word, if_pos rfl]
      exact ih hmore

/-- The digits of a number that are left are those of a smaller number. -/
theorem exists_digits_of_cut {n : Nat} {front : List Char} (h : Cut front (Decimal.digits n)) :
    front = [] ∨ ∃ m < n, front = Decimal.digits m := by
  induction n using Nat.strongRecOn generalizing front with
  | ind n ih =>
    by_cases hn : n < 10
    · rw [Decimal.digits, Nat.toDigits_of_lt_base hn] at h
      exact .inl (eq_nil_of_cut_singleton h)
    · rw [Decimal.digits, Nat.toDigits_of_base_le (by decide) (by omega)] at h
      rcases cut_append h with hfront | ⟨more, rfl, hlast⟩
      · rcases ih (n / 10) (by omega) hfront with hnil | ⟨m, hm, he⟩
        · exact .inl hnil
        · exact .inr ⟨m, by omega, he⟩
      · refine .inr ⟨n / 10, by omega, ?_⟩
        rw [eq_nil_of_cut_singleton hlast, List.append_nil, Decimal.digits]

/-- Reading came to the end of a text: it misses something there, or it has read all. -/
def RunsOut {α : Type} (result : Except DecodeError (α × Text)) : Prop :=
  result = .error .ended ∨ ∃ a, result = .ok (a, [])

namespace RunsOut

variable {α β : Type} {result : Except DecodeError (α × Text)}

/-- What needs more text ends where a part before it ran out. -/
theorem ended (h : RunsOut result) {next : α × Text → Except DecodeError β}
    (hnext : ∀ a, next (a, []) = .error .ended) : (result >>= next) = .error .ended := by
  rcases h with rfl | ⟨a, rfl⟩
  · rfl
  · exact hnext a

theorem bind (h : RunsOut result) {next : α × Text → Except DecodeError (β × Text)}
    (hnext : ∀ a, RunsOut (next (a, []))) : RunsOut (result >>= next) := by
  rcases h with rfl | ⟨a, rfl⟩
  · exact .inl rfl
  · exact hnext a

end RunsOut

/-- A text is read as a value wherever it may end, and to the end of what is left if it is cut. -/
structure Readable (height : Nat) (text : List Char) : Prop where
  reads : ∃ v, Reads height text v
  cut : ∀ (bound depth : Nat) (front : Text), front.length ≤ bound → height ≤ depth →
    Cut front text → RunsOut (value bound depth front)

section Scalar

variable {height : Nat} {front : Text}

theorem value_of_ended {cs : Text} (h : glimpse cs = .error .ended) (bound depth : Nat) :
    value bound depth cs = .error .ended := by
  cases depth <;>
  · rw [value, h]
    rfl

theorem readable_of_scalar {text : Text} {v : Value} (h : Scalar text v)
    (hcut : ∀ front, Cut front text → glimpse front = .error .ended ∨ ∃ w, Scalar front w) :
    Readable height text where
  reads := ⟨v, Form.reads_of_scalar h⟩
  cut bound depth front _ _ hfront := by
    rcases hcut front hfront with hended | ⟨w, hw⟩
    · exact .inl (value_of_ended hended bound depth)
    · have hglimpse := glimpse_scalar hw apart_nil
      rw [List.append_nil] at hglimpse
      exact .inr ⟨w, value_of_scalar hglimpse bound depth⟩

theorem glimpse_string_cut {s : String} (h : Cut front (writeString s)) :
    glimpse front = .error .ended := by
  rcases cut_cons_iff.mp h with rfl | ⟨more, rfl, hmore⟩
  · rfl
  · have hstring := string_cut (spells_write s.toList) hmore
    rw [glimpse, skipSpace_cons (by decide)]
    simp only [if_true, hstring, bind, Except.bind]

theorem glimpse_word_cut {c : Char} {letters : Text} {v : Value}
    (h : ∀ more, glimpse (c :: more) = do return (.scalar v, ← word letters more))
    (hcut : Cut front (c :: letters)) : glimpse front = .error .ended := by
  rcases cut_cons_iff.mp hcut with rfl | ⟨more, rfl, hmore⟩
  · rfl
  · rw [h, word_cut hmore]
    rfl

theorem readable_string (s : String) : Readable height (writeString s) :=
  readable_of_scalar (scalar_string s) fun _ h => .inl (glimpse_string_cut h)

theorem readable_null : Readable height ['n', 'u', 'l', 'l'] :=
  readable_of_scalar .null fun _ h => .inl (glimpse_word_cut (fun _ => rfl) h)

theorem readable_bool (b : Bool) : Readable height (writeBool b) := by
  refine readable_of_scalar (scalar_bool b) fun front h => .inl ?_
  cases b with
  | true => exact glimpse_word_cut (fun _ => rfl) h
  | false => exact glimpse_word_cut (fun _ => rfl) h

/-- A number that is cut may still be one. -/
theorem readable_count (n : UInt64) : Readable height (Decimal.digits n.toNat) := by
  refine readable_of_scalar (scalar_count n) fun front h => ?_
  rcases exists_digits_of_cut h with rfl | ⟨m, hm, rfl⟩
  · exact .inl rfl
  · have hsize := n.toNat_lt_size
    have hsmall := scalar_count (UInt64.ofNat m)
    rw [UInt64.toNat_ofNat_of_lt' (by omega)] at hsmall
    exact .inr ⟨_, hsmall⟩

end Scalar

section Members

variable {σ : Type} {member : σ → String → Reader σ} {size : Nat} {front : Text}

/-- What sets a member off from the one in front of it. -/
def lead (first : Bool) : Text := if first then [] else [',']

theorem nextKey_lead (first : Bool) (name : String) (cs : Text) :
    nextKey first (lead first ++ (writeString name ++ cs)) = .ok (some (name, cs)) := by
  cases first with
  | true => exact nextKey_first name cs
  | false => exact nextKey_comma name cs

theorem nextKey_cut {name : String} (h : Cut front (writeString name)) (first : Bool) :
    nextKey first (lead first ++ front) = .error .ended := by
  rcases cut_cons_iff.mp h with rfl | ⟨more, rfl, hmore⟩
  · cases first <;> rfl
  · have hstring := string_cut (spells_write name.toList) hmore
    have hskip : skipSpace ('"' :: more) = '"' :: more := skipSpace_cons (by decide) more
    cases first with
    | true =>
      rw [lead, if_pos rfl, List.nil_append, nextKey, hskip]
      simp [hstring, Functor.map, Except.map]
    | false =>
      rw [lead, if_neg Bool.false_ne_true, List.singleton_append, nextKey,
        skipSpace_cons (by decide)]
      simp [hskip, hstring, Functor.map, Except.map]

/-- A member of that name and text is taken off whole, and to the end of the text if it is cut. -/
structure Takes (member : σ → String → Reader σ) (size : Nat) (s : σ) (name : String)
    (text : List Char) : Prop where
  whole : text.length ≤ size →
    ∃ t, ∀ rest, Apart rest → member s name (':' :: (text ++ rest)) = .ok (t, rest)
  cut : ∀ front, front.length ≤ size → Cut front (':' :: text) → RunsOut (member s name front)

theorem members_nil (bound : Nat) (s : σ) :
    members member (bound + 1) false s [] = .error .ended := rfl

/-- Members end where one of them is cut, or what stands behind it. -/
theorem members_cut {s : σ} {name : String} {text : List Char} {tail : Text} {bound : Nat}
    (hitem : Takes member size s name text) (htail : Apart tail)
    (hrest : ∀ t rest, rest.length < bound → rest.length ≤ size → Cut rest tail →
      members member bound false t rest = .error .ended)
    (hcut : Cut front (writeMember name text ++ tail)) (hbound : front.length ≤ bound)
    (hsize : front.length ≤ size) (first : Bool) :
    members member (bound + 1) first s (lead first ++ front) = .error .ended := by
  rw [writeMember, List.append_assoc] at hcut
  rcases cut_append hcut with hkey | ⟨more, rfl, hmore⟩
  · rw [members, nextKey_cut hkey]
    rfl
  rw [List.length_append] at hbound hsize
  have hname : 0 < (writeString name).length := Nat.succ_pos _
  rw [members, nextKey_lead]
  rcases cut_append hmore with hvalue | ⟨rest, rfl, hbehind⟩
  · obtain ⟨room, rfl⟩ : ∃ n, bound = n + 1 := ⟨bound - 1, by omega⟩
    exact (hitem.cut more (by omega) hvalue).ended fun t => members_nil room t
  · rw [List.length_append, List.length_cons] at hbound hsize
    obtain ⟨t, ht⟩ := hitem.whole (by omega)
    have hread := ht rest (hbehind.apart htail)
    simp only [bind, Except.bind, List.cons_append, hread]
    exact hrest t rest (by omega) (by omega) hbehind

theorem members_tail_cut {items : List (String × List Char)}
    (h : ∀ item ∈ items, ∀ s, Takes member size s item.1 item.2)
    (hcut : Cut front (memberTail [] items)) {bound : Nat} (hbound : front.length < bound)
    (hsize : front.length ≤ size) (s : σ) :
    members member bound false s front = .error .ended := by
  induction items generalizing front bound s with
  | nil =>
    obtain ⟨room, rfl⟩ : ∃ n, bound = n + 1 := ⟨bound - 1, by omega⟩
    rw [eq_nil_of_cut_singleton hcut]
    exact members_nil room s
  | cons item items ih =>
    obtain ⟨name, text⟩ := item
    obtain ⟨room, rfl⟩ : ∃ n, bound = n + 1 := ⟨bound - 1, by omega⟩
    rcases cut_cons_iff.mp hcut with rfl | ⟨more, rfl, hmore⟩
    · exact members_nil room s
    · rw [List.length_cons] at hbound hsize
      have hitems := fun item hi => h item (List.mem_cons_of_mem _ hi)
      exact members_cut (h _ List.mem_cons_self s) (apart_memberTail [] items)
        (fun t rest hbound hsize hcut => ih hitems hcut hbound hsize t) hmore (by omega) (by omega)
        false

/-- What is known in front of the first member may tell how that member is taken. -/
theorem members_write_cut {s : σ} {name : String} {text : List Char}
    {items : List (String × List Char)} (hfirst : Takes member size s name text)
    (h : ∀ item ∈ items, ∀ s, Takes member size s item.1 item.2)
    (hcut : Cut front (writeList (writeItems ((name, text) :: items)) ++ ['}']))
    {bound : Nat} (hbound : front.length < bound) (hsize : front.length ≤ size) :
    members member bound true s front = .error .ended := by
  obtain ⟨room, rfl⟩ : ∃ n, bound = n + 1 := ⟨bound - 1, by omega⟩
  rw [writeList_memberTail] at hcut
  exact members_cut hfirst (apart_memberTail [] items)
    (fun t rest hbound hsize hcut => members_tail_cut h hcut hbound hsize t) hcut (by omega) hsize
    true

end Members

section Object

variable {height : Nat}

theorem takes_collect {bound depth : Nat} {text : List Char} (h : Readable height text)
    (hdepth : height ≤ depth) (known : List (String × Value)) (name : String) :
    Takes (collect (value bound depth)) bound known name text where
  whole hsize := by
    obtain ⟨v, hv⟩ := h.reads
    exact ⟨_, fun rest hrest => collect_write (hv bound depth rest hsize hdepth hrest) known name⟩
  cut front hsize hcut := by
    rcases cut_cons_iff.mp hcut with rfl | ⟨more, rfl, hmore⟩
    · exact .inl rfl
    · rw [List.length_cons] at hsize
      rw [collect, colon_cons]
      exact (h.cut bound depth more (by omega) hdepth hmore).bind fun v => .inr ⟨_, rfl⟩

theorem exists_readsAll {items : List (String × List Char)}
    (h : ∀ item ∈ items, Readable height item.2) : ∃ vs, ReadsAll height items vs := by
  induction items with
  | nil => exact ⟨[], .nil⟩
  | cons item items ih =>
    obtain ⟨vs, hvs⟩ := ih fun item hi => h item (List.mem_cons_of_mem _ hi)
    obtain ⟨v, hv⟩ := (h item List.mem_cons_self).reads
    exact ⟨(item.1, v) :: vs, .cons ⟨rfl, hv⟩ hvs⟩

/-- An object ends nowhere but at its brace. -/
theorem readable_object {items : List (String × List Char)}
    (h : ∀ item ∈ items, Readable height item.2) :
    Readable (height + 1) (writeObject (writeItems items)) where
  reads := by
    obtain ⟨vs, hvs⟩ := exists_readsAll h
    exact ⟨_, reads_object hvs⟩
  cut bound depth front hbound hdepth hcut := by
    obtain ⟨inner, rfl⟩ : ∃ n, depth = n + 1 := ⟨depth - 1, by omega⟩
    rcases cut_cons_iff.mp hcut with rfl | ⟨more, rfl, hmore⟩
    · exact .inl (value_of_ended rfl bound _)
    rw [List.length_cons] at hbound
    have htakes : ∀ item ∈ items, ∀ known,
        Takes (collect (value bound inner)) bound known item.1 item.2 :=
      fun item hi known => takes_collect (h item hi) (Nat.le_of_succ_le_succ hdepth) known item.1
    have hended : members (collect (value bound inner)) bound true [] more = .error .ended := by
      cases items with
      | nil =>
        obtain ⟨room, rfl⟩ : ∃ n, bound = n + 1 := ⟨bound - 1, by omega⟩
        rw [eq_nil_of_cut_singleton hmore]
        rfl
      | cons item items =>
        exact members_write_cut (htakes item List.mem_cons_self [])
          (fun item hi => htakes item (List.mem_cons_of_mem _ hi)) hmore (by omega) (by omega)
    rw [value, glimpse_map]
    simp only [bind, Except.bind, hended]
    exact .inl rfl

end Object

end LiveFeed.Json
