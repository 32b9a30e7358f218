import LiveFeed.Proofs.ScalarGrammar

namespace LiveFeed.Json

/-- Whatever the reader takes off a text is of that form, space in front of it aside. -/
def Reader.Sound {α : Type} (reader : Reader α) (part : Text → α → Prop) : Prop :=
  ∀ cs a rest, reader cs = .ok (a, rest) → ∃ s t, Space s ∧ part t a ∧ cs = s ++ (t ++ rest)

/-- Whatever is of that form, and not too long, the reader takes off a text. -/
def Reader.Complete {α : Type} (reader : Reader α) (part : Text → α → Prop) (size : Nat) : Prop :=
  ∀ s t a rest, Space s → part t a → t.length ≤ size → Apart rest →
    reader (s ++ (t ++ rest)) = .ok (a, rest)

theorem Space.append {s s' : Text} (hs : Space s) (hs' : Space s') : Space (s ++ s') := by
  intro c hc
  rcases List.mem_append.mp hc with hc | hc
  · exact hs c hc
  · exact hs' c hc

theorem apart_space {s cs : Text} (hs : Space s) (h : Apart cs) : Apart (s ++ cs) := by
  cases s with
  | nil => exact h
  | cons c s =>
    intro d hd
    obtain rfl := Option.some.inj hd
    rcases hs c List.mem_cons_self with rfl | rfl | rfl | rfl
    all_goals decide

theorem apart_of_space {s : Text} (hs : Space s) : Apart s := by
  have hnil : Apart [] := by simp [Apart]
  have h := apart_space hs hnil
  rwa [List.append_nil] at h

/-- One certain character, perhaps behind space. -/
def expect (mark : Char) (cs : Text) : Except DecodeError Text :=
  match skipSpace cs with
  | [] => .error .ended
  | c :: cs => if c = mark then .ok cs else .error .malformed

theorem closeArray_eq (cs : Text) : closeArray cs = expect ']' cs := rfl

theorem closeObject_eq (cs : Text) : closeObject cs = expect '}' cs := rfl

theorem colon_eq (cs : Text) : colon cs = expect ':' cs := rfl

theorem expect_behind (mark : Char) (hmark : isSpace mark = false) {s : Text} (hs : Space s)
    (rest : Text) : expect mark (s ++ mark :: rest) = .ok rest := by
  rw [expect, skipSpace_behind hs hmark]
  exact if_pos rfl

theorem space_of_expect {mark : Char} {cs rest : Text} (h : expect mark cs = .ok rest) :
    ∃ s, Space s ∧ cs = s ++ mark :: rest := by
  obtain ⟨s, hs, hcs⟩ := exists_space cs
  unfold expect at h
  split at h
  next => cases h
  next c more hskip =>
    split at h
    next hc =>
      cases h
      exact ⟨s, hs, by rw [← hc, ← hskip, ← hcs]⟩
    next => cases h

theorem Lead.append {first : Bool} {u s : Text} (hu : Lead first u) (hs : Space s) :
    Lead first (u ++ s) := by
  cases hu with
  | first hu => exact .first (hu.append hs)
  | comma hu hu' =>
    rw [List.append_assoc, List.cons_append]
    exact .comma hu (hu'.append hs)

section Parts

variable {α : Type} {part : Text → α → Prop} {first : Bool} {t rest : Text} {as : List α}

/-- Each part but the first costs a comma. -/
theorem Parts.length_le (h : Parts part first t as) : as.length ≤ t.length + first.toNat := by
  induction h with
  | nil => exact Nat.zero_le _
  | cons hu _ _ ih =>
    rw [Bool.toNat_false] at ih
    cases hu with
    | first _ =>
      simp only [List.length_cons, List.length_append, Bool.toNat_true]
      omega
    | comma _ _ =>
      simp only [List.length_cons, List.length_append]
      omega

theorem Parts.imp {part' : Text → α → Prop} (hpart : ∀ t a, part t a → part' t a)
    (h : Parts part first t as) : Parts part' first t as := by
  induction h with
  | nil hs => exact .nil hs
  | cons hu ht _ ih => exact .cons hu (hpart _ _ ht) ih

theorem Member.imp {part' : Text → α → Prop} (hpart : ∀ t a, part t a → part' t a)
    {m : String × α} (h : Member part t m) : Member part' t m := by
  cases h with
  | mk hkey hs hs' ht => exact .mk hkey hs hs' (hpart _ _ ht)

theorem Parts.apart (h : Parts part false t as) (hrest : Apart rest) : Apart (t ++ rest) := by
  cases h with
  | nil hs => exact apart_space hs hrest
  | cons hu h hmore =>
    cases hu with
    | comma hs hs' =>
      rw [List.append_assoc, List.append_assoc]
      exact apart_space hs (by simp [Apart])

end Parts

section Array

variable {α : Type} {part : Text → α → Prop} {item : Reader α} {first : Bool} {cs cs' rest : Text}

theorem lead_of_nextElement (h : nextElement first cs = .ok (some cs')) :
    ∃ u, Lead first u ∧ cs = u ++ cs' := by
  obtain ⟨s, hs, hcs⟩ := exists_space cs
  unfold nextElement at h
  split at h
  next => cases h
  next c more hskip =>
    obtain ⟨s', hs', hmore⟩ := exists_space more
    split at h
    next => cases h
    cases first with
    | true =>
      cases h
      exact ⟨s, .first hs, by rw [← hskip, ← hcs]⟩
    | false =>
      rw [if_neg Bool.false_ne_true] at h
      split at h
      next hc =>
        split at h
        next => cases h
        next d more' hskip' =>
          split at h
          next => cases h
          next =>
            cases h
            refine ⟨s ++ ',' :: s', .comma hs hs', ?_⟩
            rw [List.append_assoc, List.cons_append, ← hskip', ← hmore, ← hc, ← hskip, ← hcs]
      next => cases h

theorem nextElement_behind {u : Text} (hu : Lead first u) {c : Char} (hspace : isSpace c = false)
    (hclose : c ≠ ']') (cs : Text) : nextElement first (u ++ c :: cs) = .ok (some (c :: cs)) := by
  cases hu with
  | first hs =>
    rw [nextElement, skipSpace_behind hs hspace]
    simp [hclose]
  | @comma s s' hs hs' =>
    rw [List.append_assoc, List.cons_append, nextElement, skipSpace_behind hs (by decide)]
    simp [skipSpace_behind hs' hspace, hclose]

theorem nextElement_close {s : Text} (hs : Space s) (first : Bool) (rest : Text) :
    nextElement first (s ++ ']' :: rest) = .ok none := by
  rw [nextElement, skipSpace_behind hs (by decide)]
  rfl

theorem closeArray_lead {u : Text} (hu : Lead first u) {c : Char}
    (hspace : isSpace c = false) (hclose : c ≠ ']') (cs : Text) :
    closeArray (u ++ c :: cs) = .error .malformed := by
  cases hu with
  | first hs =>
    rw [closeArray, skipSpace_behind hs hspace]
    exact if_neg hclose
  | comma hs hs' =>
    rw [List.append_assoc, List.cons_append, closeArray, skipSpace_behind hs (by decide)]
    rfl

theorem parts_of_elements (hitem : item.Sound part) {bound : Nat} {read xs : List α}
    (h : elements item bound first read cs = .ok (xs, rest)) :
    ∃ t as, Parts part first t as ∧ cs = t ++ ']' :: rest ∧ xs = read.reverse ++ as := by
  induction bound generalizing first read cs with
  | zero => cases h
  | succ bound ih =>
    obtain ⟨next?, hnext, h⟩ := exists_of_bind_eq_ok h
    cases next? with
    | none =>
      obtain ⟨rest', hclose, hout⟩ := exists_of_bind_eq_ok h
      cases hout
      obtain ⟨s, hs, rfl⟩ := space_of_expect hclose
      exact ⟨s, [], .nil hs, rfl, (List.append_nil _).symm⟩
    | some cs₁ =>
      obtain ⟨⟨x, cs₂⟩, hx, hrest⟩ := exists_of_bind_eq_ok h
      obtain ⟨u, hu, rfl⟩ := lead_of_nextElement hnext
      obtain ⟨s, t, hs, ht, rfl⟩ := hitem _ _ _ hx
      obtain ⟨more, as, hmore, rfl, rfl⟩ := ih hrest
      exact ⟨_, _, .cons (hu.append hs) ht hmore, by simp, by simp⟩

/-- A part begins with a character that is neither space nor the end of an array. -/
def Begins (part : Text → α → Prop) : Prop :=
  ∀ t a, part t a → ∃ c more, t = c :: more ∧ isSpace c = false ∧ c ≠ ']'

theorem elements_of_parts {size : Nat} (hitem : item.Complete part size)
    (hbegins : Begins part) {t : Text} {as : List α} (h : Parts part first t as)
    (hsize : t.length ≤ size) {bound : Nat} (hbound : as.length < bound) (read : List α)
    (rest : Text) :
    elements item bound first read (t ++ ']' :: rest) = .ok (read.reverse ++ as, rest) := by
  induction h generalizing bound read with
  | nil hs =>
    obtain ⟨room, rfl⟩ : ∃ n, bound = n + 1 := ⟨bound - 1, by omega⟩
    rw [elements, nextElement_close hs]
    simp only [bind, Except.bind, closeArray_eq, expect_behind ']' rfl hs, List.append_nil]
    rfl
  | @cons first u t more a as hu ht hmore ih =>
    obtain ⟨room, rfl⟩ : ∃ n, bound = n + 1 := ⟨bound - 1, by omega⟩
    obtain ⟨c, cs, rfl, hspace, hclose⟩ := hbegins t a ht
    simp only [List.length_append, List.length_cons] at hsize hbound
    have hrest : Apart (more ++ ']' :: rest) := hmore.apart (by simp [Apart])
    have hread := hitem [] _ a _ (by simp [Space]) ht (by simp only [List.length_cons]; omega) hrest
    have hmore := ih (by omega) (Nat.lt_of_succ_lt_succ hbound) (a :: read)
    have htext : u ++ (c :: cs ++ more) ++ ']' :: rest =
        u ++ c :: (cs ++ (more ++ ']' :: rest)) := by simp
    rw [elements, htext, nextElement_behind hu hspace hclose]
    simp only [List.nil_append, List.cons_append] at hread
    simp only [bind, Except.bind, hread, hmore]
    simp

end Array

section Object

variable {α σ : Type} {part : Text → α → Prop} {member : σ → String → Reader σ}
  {step : σ → String × α → Option σ} {first : Bool} {cs cs' rest : Text}

/-- Whatever is taken off behind a key is a colon and a value, and makes a step. -/
def MemberSound (member : σ → String → Reader σ) (part : Text → α → Prop)
    (step : σ → String × α → Option σ) : Prop :=
  ∀ known key cs known' rest, member known key cs = .ok (known', rest) →
    ∃ s s' t a, Space s ∧ Space s' ∧ part t a ∧ step known (key, a) = some known' ∧
      cs = s ++ ':' :: (s' ++ (t ++ rest))

def MemberComplete (member : σ → String → Reader σ) (part : Text → α → Prop)
    (step : σ → String × α → Option σ) (size : Nat) : Prop :=
  ∀ known key a known' s s' t rest, Space s → Space s' → part t a →
    step known (key, a) = some known' → t.length ≤ size → Apart rest →
    member known key (s ++ ':' :: (s' ++ (t ++ rest))) = .ok (known', rest)

theorem spells_of_key {name : String} (h : some <$> string cs = .ok (some (name, cs'))) :
    ∃ key chars, Spells key chars ∧ cs = key ++ '"' :: cs' ∧ name = String.ofList chars := by
  obtain ⟨found, hstring, hfound⟩ := map_eq_ok_iff.mp h
  cases hfound
  exact spells_of_string hstring

theorem lead_of_nextKey {name : String} (h : nextKey first cs = .ok (some (name, cs'))) :
    ∃ u key chars, Lead first u ∧ Spells key chars ∧ name = String.ofList chars ∧
      cs = u ++ '"' :: (key ++ '"' :: cs') := by
  obtain ⟨s, hs, hcs⟩ := exists_space cs
  unfold nextKey at h
  split at h
  next => cases h
  next c more hskip =>
    obtain ⟨s', hs', hmore⟩ := exists_space more
    split at h
    next => cases h
    cases first with
    | true =>
      rw [if_pos rfl] at h
      split at h
      next hc =>
        obtain ⟨key, chars, hkey, he, hname⟩ := spells_of_key h
        exact ⟨s, key, chars, .first hs, hkey, hname, by rw [← he, ← hc, ← hskip, ← hcs]⟩
      next => cases h
    | false =>
      rw [if_neg Bool.false_ne_true] at h
      split at h
      next hc =>
        split at h
        next => cases h
        next d more' hskip' =>
          split at h
          next hd =>
            obtain ⟨key, chars, hkey, he, hname⟩ := spells_of_key h
            refine ⟨s ++ ',' :: s', key, chars, .comma hs hs', hkey, hname, ?_⟩
            rw [List.append_assoc, List.cons_append, ← he, ← hd, ← hskip', ← hmore, ← hc, ← hskip,
              ← hcs]
          next => cases h
      next => cases h

theorem nextKey_behind {u key : Text} {chars : List Char} (hu : Lead first u)
    (hkey : Spells key chars) (cs : Text) :
    nextKey first (u ++ '"' :: (key ++ '"' :: cs)) = .ok (some (String.ofList chars, cs)) := by
  cases hu with
  | first hs =>
    rw [nextKey, skipSpace_behind hs (by decide)]
    simp [string_of_spells hkey, Functor.map, Except.map]
  | @comma s s' hs hs' =>
    have hskip : skipSpace (s' ++ '"' :: (key ++ '"' :: cs)) = '"' :: (key ++ '"' :: cs) :=
      skipSpace_behind hs' (by decide) _
    rw [List.append_assoc, List.cons_append, nextKey, skipSpace_behind hs (by decide)]
    simp [hskip, string_of_spells hkey, Functor.map, Except.map]

theorem nextKey_close {s : Text} (hs : Space s) (first : Bool) (rest : Text) :
    nextKey first (s ++ '}' :: rest) = .ok none := by
  rw [nextKey, skipSpace_behind hs (by decide)]
  rfl

theorem parts_of_members (hmember : MemberSound member part step) {bound : Nat} {known last : σ}
    (h : members member bound first known cs = .ok (last, rest)) :
    ∃ t ms, Parts (Member part) first t ms ∧ cs = t ++ '}' :: rest ∧
      ms.foldlM step known = some last := by
  induction bound generalizing first known cs with
  | zero => cases h
  | succ bound ih =>
    obtain ⟨next?, hnext, h⟩ := exists_of_bind_eq_ok h
    cases next? with
    | none =>
      obtain ⟨rest', hclose, hout⟩ := exists_of_bind_eq_ok h
      cases hout
      obtain ⟨s, hs, rfl⟩ := space_of_expect hclose
      exact ⟨s, [], .nil hs, rfl, rfl⟩
    | some found =>
      obtain ⟨name, cs₁⟩ := found
      obtain ⟨⟨known', cs₂⟩, hread, hrest⟩ := exists_of_bind_eq_ok h
      obtain ⟨u, key, chars, hu, hkey, rfl, rfl⟩ := lead_of_nextKey hnext
      obtain ⟨s, s', t, a, hs, hs', ht, hstep, rfl⟩ := hmember _ _ _ _ _ hread
      obtain ⟨more, ms, hmore, rfl, hsteps⟩ := ih hrest
      refine ⟨_, _, .cons hu (.mk hkey hs hs' ht) hmore, by simp, ?_⟩
      rw [List.foldlM_cons, hstep]
      exact hsteps

theorem members_of_parts {size : Nat} (hmember : MemberComplete member part step size)
    {t : Text} {ms : List (String × α)} (h : Parts (Member part) first t ms)
    (hsize : t.length ≤ size) {bound : Nat} (hbound : ms.length < bound) {known last : σ}
    (hsteps : ms.foldlM step known = some last) (rest : Text) :
    members member bound first known (t ++ '}' :: rest) = .ok (last, rest) := by
  induction h generalizing bound known with
  | nil hs =>
    obtain ⟨room, rfl⟩ : ∃ n, bound = n + 1 := ⟨bound - 1, by omega⟩
    obtain rfl := Option.some.inj hsteps
    rw [members, nextKey_close hs]
    simp only [bind, Except.bind, closeObject_eq, expect_behind '}' rfl hs]
    rfl
  | @cons first u t more m ms hu ht hmore ih =>
    obtain ⟨room, rfl⟩ : ∃ n, bound = n + 1 := ⟨bound - 1, by omega⟩
    rw [List.foldlM_cons] at hsteps
    obtain ⟨known', hstep, hlast⟩ := Option.bind_eq_some_iff.mp hsteps
    have hrest : Apart (more ++ '}' :: rest) := hmore.apart (by simp [Apart])
    cases ht with
    | @mk key s s' t chars a hkey hs hs' ht =>
      simp only [List.length_append, List.length_cons] at hsize hbound
      have hread := hmember _ _ _ _ _ _ _ _ hs hs' ht hstep (by omega) hrest
      have hmore := ih (by omega) (Nat.lt_of_succ_lt_succ hbound) hlast
      have htext : u ++ ('"' :: (key ++ '"' :: (s ++ ':' :: (s' ++ t))) ++ more) ++ '}' :: rest =
          u ++ '"' :: (key ++ '"' ::
            (s ++ ':' :: (s' ++ (t ++ (more ++ '}' :: rest))))) := by simp
      rw [members, htext, nextKey_behind hu hkey]
      simp only [bind, Except.bind, hread, hmore]

end Object

section Value

variable {item : Reader Value} {part : Text → Value → Prop} {size : Nat}

/-- What collecting members makes of one more. -/
def collected (known : List (String × Value)) (m : String × Value) :
    Option (List (String × Value)) := some (m :: known)

theorem foldlM_collected (known ms : List (String × Value)) :
    ms.foldlM collected known = some (ms.reverse ++ known) := by
  induction ms generalizing known with
  | nil => rfl
  | cons m ms ih =>
    rw [List.foldlM_cons, List.reverse_cons, List.append_assoc]
    exact ih (m :: known)

theorem memberSound_collect (hitem : item.Sound part) :
    MemberSound (collect item) part collected := by
  intro known key cs known' rest h
  obtain ⟨cs₁, hcolon, h⟩ := exists_of_bind_eq_ok h
  obtain ⟨⟨v, cs₂⟩, hread, hout⟩ := exists_of_bind_eq_ok h
  cases hout
  obtain ⟨s, hs, rfl⟩ := space_of_expect hcolon
  obtain ⟨s', t, hs', ht, rfl⟩ := hitem _ _ _ hread
  exact ⟨s, s', t, v, hs, hs', ht, rfl, rfl⟩

theorem memberComplete_collect (hitem : item.Complete part size) :
    MemberComplete (collect item) part collected size := by
  intro known key v known' s s' t rest hs hs' ht hstep hsize hrest
  cases hstep
  rw [collect, colon_eq, expect_behind ':' rfl hs]
  simp only [bind, Except.bind, hitem s' t v rest hs' ht hsize hrest]
  rfl

theorem begins_scalar : Begins Scalar := by
  intro t v h
  cases h with
  | null => exact ⟨_, _, rfl, by decide⟩
  | true => exact ⟨_, _, rfl, by decide⟩
  | false => exact ⟨_, _, rfl, by decide⟩
  | string _ => exact ⟨_, _, rfl, by decide⟩
  | number h _ =>
    obtain ⟨c, more, rfl, hc⟩ := exists_of_writes h
    exact ⟨c, more, rfl, hc.isSpace_eq, hc.ne (by decide) rfl⟩

theorem begins_composed : Begins (Composed part) := by
  intro t v h
  cases h with
  | scalar h => exact begins_scalar t v h
  | array _ => exact ⟨_, _, rfl, by decide⟩
  | object _ => exact ⟨_, _, rfl, by decide⟩

theorem begins_isValue (depth : Nat) : Begins (IsValue depth) := by
  cases depth with
  | zero => exact begins_scalar
  | succ depth => exact begins_composed

theorem isValue_of_scalar {t : Text} {v : Value} (h : Scalar t v) (depth : Nat) :
    IsValue depth t v := by
  cases depth with
  | zero => exact h
  | succ depth => exact .scalar h

theorem isValue_succ {depth : Nat} {t : Text} {v : Value} (h : IsValue depth t v) :
    IsValue (depth + 1) t v := by
  induction depth generalizing t v with
  | zero => exact .scalar h
  | succ depth ih =>
    cases h with
    | scalar h => exact .scalar h
    | array h => exact .array (h.imp fun _ _ => ih)
    | object h => exact .object (h.imp fun _ _ hm => hm.imp fun _ _ => ih)

/-- Deeper nesting may be allowed. -/
theorem isValue_mono {depth depth' : Nat} (hle : depth ≤ depth') {t : Text} {v : Value}
    (h : IsValue depth t v) : IsValue depth' t v := by
  induction hle with
  | refl => exact h
  | step _ ih => exact isValue_succ ih

theorem parts_of_array {t : Text} {items : List Value} (h : Composed part t (.array items)) :
    ∃ inner, t = '[' :: (inner ++ [']']) ∧ Parts part true inner items := by
  cases h with
  | scalar h =>
    cases h with
    | number _ hv => cases hv
  | array h => exact ⟨_, rfl, h⟩

theorem parts_of_object {t : Text} {members : List (String × Value)}
    (h : Composed part t (.object members)) :
    ∃ inner, t = '{' :: (inner ++ ['}']) ∧ Parts (Member part) true inner members := by
  cases h with
  | scalar h =>
    cases h with
    | number _ hv => cases hv
  | object h => exact ⟨_, rfl, h⟩

theorem value_sound (bound depth : Nat) : Reader.Sound (value bound depth) (IsValue depth) := by
  induction depth with
  | zero =>
    intro cs v rest h
    rw [value] at h
    obtain ⟨⟨g, cs₁⟩, hglimpse, hkind⟩ := exists_of_bind_eq_ok h
    obtain ⟨s, t, hs, hopens, rfl⟩ := opens_of_glimpse hglimpse
    cases hopens with
    | scalar ht =>
      cases hkind
      exact ⟨s, t, hs, ht, rfl⟩
    | sequence => cases hkind
    | map => cases hkind
  | succ depth ih =>
    intro cs v rest h
    rw [value] at h
    obtain ⟨⟨g, cs₁⟩, hglimpse, hkind⟩ := exists_of_bind_eq_ok h
    obtain ⟨s, t, hs, hopens, rfl⟩ := opens_of_glimpse hglimpse
    cases hopens with
    | scalar ht =>
      cases hkind
      exact ⟨s, t, hs, .scalar ht, rfl⟩
    | sequence =>
      obtain ⟨⟨items, cs₂⟩, hitems, hout⟩ := exists_of_bind_eq_ok hkind
      cases hout
      obtain ⟨t, as, ht, rfl, rfl⟩ := parts_of_elements ih hitems
      exact ⟨s, _, hs, .array ht, by simp⟩
    | map =>
      obtain ⟨⟨known, cs₂⟩, hmembers, hout⟩ := exists_of_bind_eq_ok hkind
      cases hout
      obtain ⟨t, ms, ht, rfl, hknown⟩ := parts_of_members (memberSound_collect ih) hmembers
      rw [foldlM_collected, List.append_nil] at hknown
      obtain rfl := Option.some.inj hknown
      rw [List.reverse_reverse]
      exact ⟨s, _, hs, .object ht, by simp⟩

theorem value_complete (bound depth : Nat) :
    Reader.Complete (value bound depth) (IsValue depth) bound := by
  induction depth with
  | zero =>
    intro s t v rest hs ht _ hrest
    rw [value, glimpse_behind hs, glimpse_scalar ht hrest]
    rfl
  | succ depth ih =>
    intro s t v rest hs ht hsize hrest
    rw [value, glimpse_behind hs]
    cases ht with
    | scalar ht =>
      rw [glimpse_scalar ht hrest]
      rfl
    | @array t items ht =>
      simp only [List.length_cons, List.length_append, List.length_nil] at hsize
      have hcount := ht.length_le
      rw [Bool.toNat_true] at hcount
      have hbound : items.length < bound := by omega
      have hitems := elements_of_parts ih (begins_isValue depth) ht (by omega) hbound [] rest
      have htext : '[' :: (t ++ [']']) ++ rest = '[' :: (t ++ ']' :: rest) := by simp
      rw [htext, glimpse_sequence]
      simp only [bind, Except.bind, hitems]
      rfl
    | @object t ms ht =>
      simp only [List.length_cons, List.length_append, List.length_nil] at hsize
      have hcount := ht.length_le
      rw [Bool.toNat_true] at hcount
      have hbound : ms.length < bound := by omega
      have hmembers := members_of_parts (memberComplete_collect ih) ht (by omega) hbound
        (foldlM_collected [] ms) rest
      have htext : '{' :: (t ++ ['}']) ++ rest = '{' :: (t ++ '}' :: rest) := by simp
      rw [htext, glimpse_map]
      simp only [bind, Except.bind, hmembers, List.append_nil, List.reverse_reverse]
      rfl

end Value

end LiveFeed.Json
