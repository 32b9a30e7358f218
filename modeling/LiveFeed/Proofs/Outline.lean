import LiveFeed.Element.Html

namespace LiveFeed

/-- What markup tells of an element; one without text and children may have been either. -/
inductive Outline where
  | node (name : String) (attributes : List (String × String)) (text : String)
      (children : List Outline)
  deriving Repr

namespace Html

/-- A name without the characters at which a tag or an attribute goes on. -/
def IsName (name : String) : Prop :=
  ∀ c ∈ name.toList, c ≠ ' ' ∧ c ≠ '>' ∧ c ≠ '=' ∧ c ≠ '/'

instance (name : String) : Decidable (IsName name) :=
  decidable_of_iff (name.toList.all fun c => c ≠ ' ' && c ≠ '>' && c ≠ '=' && c ≠ '/')
    (by simp [IsName, and_assoc])

def writeAttributes (attributes : List (String × String)) : List Char :=
  attributes.flatMap fun (name, value) => writeAttribute name value

/-- What escaped text stands for. -/
def unescape : List Char → List Char
  | '&' :: 'a' :: 'm' :: 'p' :: ';' :: cs => '&' :: unescape cs
  | '&' :: 'l' :: 't' :: ';' :: cs => '<' :: unescape cs
  | '&' :: 'g' :: 't' :: ';' :: cs => '>' :: unescape cs
  | '&' :: 'q' :: 'u' :: 'o' :: 't' :: ';' :: cs => '"' :: unescape cs
  | '&' :: '#' :: '3' :: '9' :: ';' :: cs => '\'' :: unescape cs
  | c :: cs => c :: unescape cs
  | [] => []

inductive Token where
  | opening (name : String) (attributes : List (String × String))
  | closing (name : String)
  | text (text : String)
  deriving DecidableEq, Repr

/-- What stands in front of the first such character, and what behind it. -/
def cut? (stop : Char) : List Char → Option (List Char × List Char)
  | [] => none
  | c :: cs =>
    if c = stop then some ([], cs) else (cut? stop cs).map fun (front, back) => (c :: front, back)

theorem cut?_append {stop : Char} {front : List Char} (h : stop ∉ front) (back : List Char) :
    cut? stop (front ++ stop :: back) = some (front, back) := by
  induction front with
  | nil => simp [cut?]
  | cons c front ih =>
    obtain ⟨hne, hfront⟩ : stop ≠ c ∧ stop ∉ front := by simpa using h
    rw [List.cons_append, cut?, if_neg (Ne.symm hne), ih hfront]
    rfl

theorem length_of_cut? {stop : Char} {cs front back : List Char}
    (h : cut? stop cs = some (front, back)) : back.length < cs.length := by
  induction cs generalizing front with
  | nil => cases h
  | cons c cs ih =>
    rw [cut?] at h
    split at h
    next =>
      cases h
      exact Nat.lt_succ_self _
    next =>
      obtain ⟨⟨front', back'⟩, hcut, he⟩ := Option.map_eq_some_iff.mp h
      cases he
      exact Nat.lt_succ_of_lt (ih hcut)

/-- The attributes of a tag, from the blank in front of the first to the end of the tag. -/
def attributes? : List Char → Option (List (String × String))
  | [] => some []
  | c :: cs =>
    if c = ' ' then
      match _hname : cut? '=' cs with
      | some (name, '"' :: more) =>
        match _hvalue : cut? '"' more with
        | some (value, rest) => do
          return (String.ofList name, String.ofList (unescape value)) :: (← attributes? rest)
        | none => none
      | _ => none
    else none
  termination_by cs => cs.length
  decreasing_by
    have hname := length_of_cut? _hname
    have hvalue := length_of_cut? _hvalue
    simp only [List.length_cons] at hname ⊢
    omega

/-- The tag between two angle brackets. -/
def tag? (cs : List Char) : Option Token :=
  match cs with
  | '/' :: name => some (.closing (String.ofList name))
  | cs => do
    let attributes ← attributes? (cs.dropWhile (· ≠ ' '))
    return .opening (String.ofList (cs.takeWhile (· ≠ ' '))) attributes

/-- The tags of a markup and the texts between them. -/
def tokens? : List Char → Option (List Token)
  | [] => some []
  | c :: cs =>
    if c = '<' then
      match _htag : cut? '>' cs with
      | some (tag, rest) => do return (← tag? tag) :: (← tokens? rest)
      | none => none
    else do
      let text := String.ofList (unescape (c :: cs.takeWhile (· ≠ '<')))
      return .text text :: (← tokens? (cs.dropWhile (· ≠ '<')))
  termination_by cs => cs.length
  decreasing_by
    · exact Nat.lt_succ_of_lt (length_of_cut? _htag)
    · exact Nat.lt_succ_of_le (List.dropWhile_sublist _).length_le

theorem unescape_escapeChar (c : Char) (cs : List Char) :
    unescape (escapeChar c ++ cs) = c :: unescape cs := by
  unfold escapeChar entity?
  split
  next entity hentity =>
    split at hentity
    all_goals cases hentity
    all_goals rfl
  next hnone =>
    split at hnone
    case h_6 hamp _ _ _ _ =>
      rw [List.singleton_append, unescape]
      all_goals simp_all
    all_goals cases hnone

theorem unescape_escape (cs : List Char) : unescape (escape cs) = cs := by
  induction cs with
  | nil => rfl
  | cons c cs ih => rw [escape, List.flatMap_cons, unescape_escapeChar, ← escape, ih]

theorem ne_of_mem_entity {c d : Char} {entity : String} (h : entity? d = some entity)
    (hc : c ∈ entity.toList) : c ≠ '<' ∧ c ≠ '>' ∧ c ≠ '"' := by
  have hall : entity.toList.all (fun c => c ≠ '<' && c ≠ '>' && c ≠ '"') = true := by
    unfold entity? at h
    split at h
    all_goals cases h
    all_goals decide
  simpa [and_assoc] using List.all_eq_true.mp hall c hc

/-- Escaped text ends neither a tag nor an attribute, and begins no tag. -/
theorem ne_of_mem_escape {c : Char} {cs : List Char} (h : c ∈ escape cs) :
    c ≠ '<' ∧ c ≠ '>' ∧ c ≠ '"' := by
  obtain ⟨d, -, hc⟩ := List.mem_flatMap.mp h
  unfold escapeChar at hc
  split at hc
  next entity hentity => exact ne_of_mem_entity hentity hc
  next hnone =>
    obtain rfl := List.mem_singleton.mp hc
    refine ⟨?_, ?_, ?_⟩
    all_goals
      rintro rfl
      cases hnone

theorem attributes?_cons {cs name more value rest : List Char}
    {attributes : List (String × String)} (hname : cut? '=' cs = some (name, '"' :: more))
    (hvalue : cut? '"' more = some (value, rest)) (hrest : attributes? rest = some attributes) :
    attributes? (' ' :: cs) =
      some ((String.ofList name, String.ofList (unescape value)) :: attributes) := by
  rw [attributes?, if_pos rfl]
  split
  next name' more' hcut =>
    cases hname.symm.trans hcut
    split
    next value' rest' hcut =>
      cases hvalue.symm.trans hcut
      rw [hrest]
      rfl
    next hnone => cases hvalue.symm.trans hnone
  next hnone => exact absurd hname (hnone name more)

theorem attributes?_write {attributes : List (String × String)}
    (h : ∀ a ∈ attributes, IsName a.1) :
    attributes? (writeAttributes attributes) = some attributes := by
  induction attributes with
  | nil => rw [writeAttributes, List.flatMap_nil, attributes?]
  | cons a attributes ih =>
    obtain ⟨name, value⟩ := a
    have hrest := ih fun a ha => h a (List.mem_cons_of_mem _ ha)
    have hname : '=' ∉ name.toList := fun hmem => (h _ List.mem_cons_self _ hmem).2.2.1 rfl
    have hvalue : '"' ∉ escape value.toList := fun hmem => (ne_of_mem_escape hmem).2.2 rfl
    have htext : writeAttributes ((name, value) :: attributes) =
        ' ' :: (name.toList ++
          '=' :: '"' :: (escape value.toList ++ '"' :: writeAttributes attributes)) := by
      simp [writeAttributes, writeAttribute]
    rw [htext, attributes?_cons (cut?_append hname _) (cut?_append hvalue _) hrest,
      unescape_escape, String.ofList_toList, String.ofList_toList]

theorem not_mem_writeAttributes {attributes : List (String × String)}
    (h : ∀ a ∈ attributes, '>' ∉ a.1.toList) : '>' ∉ writeAttributes attributes := by
  intro hmem
  obtain ⟨⟨name, value⟩, ha, hmem⟩ := List.mem_flatMap.mp hmem
  have hparts : '>' ∈ name.toList ∨ '>' ∈ escape value.toList := by
    simpa [writeAttribute] using hmem
  rcases hparts with hname | hvalue
  · exact h _ ha hname
  · exact (ne_of_mem_escape hvalue).2.1 rfl

theorem tag?_opening {name : String} {attributes : List (String × String)} (hname : IsName name)
    (h : ∀ a ∈ attributes, IsName a.1) :
    tag? (name.toList ++ writeAttributes attributes) = some (.opening name attributes) := by
  have hstop : ∀ c ∈ name.toList, decide (c ≠ ' ') = true := fun c hc => by
    simpa using (hname c hc).1
  have htake : (name.toList ++ writeAttributes attributes).takeWhile (· ≠ ' ') = name.toList := by
    rw [List.takeWhile_append_of_pos hstop]
    cases attributes with
    | nil => simp [writeAttributes]
    | cons a attributes => simp [writeAttributes, writeAttribute]
  have hdrop : (name.toList ++ writeAttributes attributes).dropWhile (· ≠ ' ') =
      writeAttributes attributes := by
    have hall := List.takeWhile_append_dropWhile (p := (· ≠ ' '))
      (l := name.toList ++ writeAttributes attributes)
    rw [htake] at hall
    exact List.append_cancel_left hall
  have hslash : ∀ rest, name.toList ++ writeAttributes attributes ≠ '/' :: rest := by
    intro rest he
    cases hchars : name.toList with
    | nil =>
      rw [hchars, List.nil_append] at he
      cases attributes with
      | nil => cases he
      | cons a attributes => cases he
    | cons c cs =>
      rw [hchars] at he
      obtain rfl := (List.cons.inj he).1
      exact (hname '/' (by simp [hchars])).2.2.2 rfl
  unfold tag?
  split
  next rest he => exact absurd he (hslash rest)
  next =>
    rw [htake, hdrop, attributes?_write h, String.ofList_toList]
    rfl

theorem tokens?_tag {tag rest : List Char} {token : Token} {ts : List Token} (h : '>' ∉ tag)
    (htag : tag? tag = some token) (hrest : tokens? rest = some ts) :
    tokens? ('<' :: (tag ++ '>' :: rest)) = some (token :: ts) := by
  rw [tokens?, if_pos rfl]
  split
  next tag' rest' hcut =>
    cases (cut?_append h rest).symm.trans hcut
    rw [htag, hrest]
    rfl
  next hnone => cases (cut?_append h rest).symm.trans hnone

/-- Text reaches up to the tag behind it. -/
theorem tokens?_text {c : Char} {cs rest : List Char} {ts : List Token}
    (h : ∀ d ∈ c :: cs, d ≠ '<') (hrest : tokens? ('<' :: rest) = some ts) :
    tokens? (c :: (cs ++ '<' :: rest)) =
      some (.text (String.ofList (unescape (c :: cs))) :: ts) := by
  have hstop : ∀ d ∈ cs, decide (d ≠ '<') = true := fun d hd => by
    simpa using h d (List.mem_cons_of_mem _ hd)
  have htake : (cs ++ '<' :: rest).takeWhile (· ≠ '<') = cs := by
    rw [List.takeWhile_append_of_pos hstop, List.takeWhile_cons_of_neg (by simp), List.append_nil]
  have hdrop : (cs ++ '<' :: rest).dropWhile (· ≠ '<') = '<' :: rest := by
    rw [List.dropWhile_append_of_pos hstop, List.dropWhile_cons_of_neg (by simp)]
  rw [tokens?, if_neg (h c List.mem_cons_self), htake, hdrop, hrest]
  rfl

/-- The text that an element holds, if it holds any. -/
def textTokens (text : String) : List Token := if text = "" then [] else [.text text]

theorem tokens?_escape (text : String) {rest : List Char} {ts : List Token}
    (hrest : tokens? ('<' :: rest) = some ts) :
    tokens? (escape text.toList ++ '<' :: rest) = some (textTokens text ++ ts) := by
  cases hchars : escape text.toList with
  | nil =>
    have hempty : text.toList = [] := by
      rw [← unescape_escape text.toList, hchars, unescape]
    rw [String.toList_eq_nil_iff] at hempty
    rw [hempty]
    exact hrest
  | cons c cs =>
    have hne : text ≠ "" := by
      rintro rfl
      cases hchars
    have hstop : ∀ d ∈ c :: cs, d ≠ '<' := by
      intro d hd
      rw [← hchars] at hd
      exact (ne_of_mem_escape hd).1
    rw [List.cons_append, tokens?_text hstop hrest, ← hchars, unescape_escape,
      String.ofList_toList, textTokens, if_neg hne]
    rfl

end Html

namespace Outline

open Html (Token IsName writeAttributes)

mutual

/-- Names that markup can hold stand everywhere in an element. -/
def Named : Outline → Prop
  | node name attributes _ children =>
    IsName name ∧ (∀ a ∈ attributes, IsName a.1) ∧ AllNamed children

def AllNamed : List Outline → Prop
  | [] => True
  | o :: os => o.Named ∧ AllNamed os

end

mutual

def html : Outline → List Char
  | node name attributes text children =>
    '<' :: (name.toList ++ writeAttributes attributes ++ '>' :: (Html.escape text.toList ++
      (htmlOfAll children ++ '<' :: ('/' :: name.toList ++ ['>']))))

def htmlOfAll : List Outline → List Char
  | [] => []
  | o :: os => o.html ++ htmlOfAll os

end

mutual

def tokens : Outline → List Token
  | node name attributes text children =>
    .opening name attributes :: (Html.textTokens text ++ (tokensOfAll children ++ [.closing name]))

def tokensOfAll : List Outline → List Token
  | [] => []
  | o :: os => o.tokens ++ tokensOfAll os

end

theorem htmlOfAll_append_head (os : List Outline) (rest : List Char) :
    ∃ more, htmlOfAll os ++ '<' :: rest = '<' :: more := by
  cases os with
  | nil => exact ⟨rest, rfl⟩
  | cons o os =>
    obtain ⟨name, attributes, text, children⟩ := o
    exact ⟨_, by rw [htmlOfAll, html, List.append_assoc, List.cons_append]⟩

mutual

theorem tokens?_html (o : Outline) (h : o.Named) {rest : List Char} {ts : List Token}
    (hrest : Html.tokens? rest = some ts) :
    Html.tokens? (o.html ++ rest) = some (o.tokens ++ ts) := by
  obtain ⟨name, attributes, text, children⟩ := o
  obtain ⟨hname, hattributes, hchildren⟩ := h
  have hclosing : Html.tokens? ('<' :: ('/' :: name.toList ++ '>' :: rest)) =
      some (.closing name :: ts) := by
    refine Html.tokens?_tag ?_ ?_ hrest
    · intro hmem
      rcases List.mem_cons.mp hmem with hslash | hmem
      · cases hslash
      · exact (hname '>' hmem).2.1 rfl
    · rw [Html.tag?, String.ofList_toList]
  have hchildren := tokens?_htmlOfAll children hchildren hclosing
  -- the text is read up to the tag that follows it, of a child or the element's own
  obtain ⟨more, hmore⟩ := htmlOfAll_append_head children ('/' :: name.toList ++ '>' :: rest)
  rw [hmore] at hchildren
  have htext := Html.tokens?_escape text hchildren
  rw [← hmore] at htext
  have hstop : '>' ∉ name.toList ++ writeAttributes attributes := by
    intro hmem
    rcases List.mem_append.mp hmem with hmem | hmem
    · exact (hname '>' hmem).2.1 rfl
    · exact Html.not_mem_writeAttributes (fun a ha hc => (hattributes a ha '>' hc).2.1 rfl) hmem
  have hopening := Html.tokens?_tag hstop (Html.tag?_opening hname hattributes) htext
  rw [html, tokens]
  simpa using hopening

theorem tokens?_htmlOfAll (os : List Outline) (h : AllNamed os) {rest : List Char}
    {ts : List Token} (hrest : Html.tokens? rest = some ts) :
    Html.tokens? (htmlOfAll os ++ rest) = some (tokensOfAll os ++ ts) := by
  cases os with
  | nil => exact hrest
  | cons o os =>
    obtain ⟨ho, hos⟩ := h
    have hmore := tokens?_htmlOfAll os hos hrest
    rw [htmlOfAll, tokensOfAll, List.append_assoc, List.append_assoc]
    exact tokens?_html o ho hmore

end

/-- An element whose end is not reached; its children are in reverse. -/
structure Frame where
  name : String
  attributes : List (String × String)
  text : String := ""
  children : List Outline := []

def Frame.close (f : Frame) : Outline := node f.name f.attributes f.text f.children.reverse

/-- The element that tags and texts make up; the innermost open element comes first. -/
def build : List Token → List Frame → Option Outline
  | .opening name attributes :: ts, frames => build ts ({ name, attributes } :: frames)
  | .text text :: ts, frame :: frames =>
    if frame.text = "" && frame.children.isEmpty then build ts ({ frame with text } :: frames)
    else none
  | .closing name :: ts, frame :: frames =>
    if frame.name = name then
      match frames with
      | [] => if ts.isEmpty then some frame.close else none
      | outer :: frames =>
        build ts ({ outer with children := frame.close :: outer.children } :: frames)
    else none
  | [], _ | .text _ :: _, [] | .closing _ :: _, [] => none

theorem build_text (frame : Frame) (ht : frame.text = "") (hc : frame.children = [])
    (text : String) (ts : List Token) (frames : List Frame) :
    build (Html.textTokens text ++ ts) (frame :: frames) =
      build ts ({ frame with text } :: frames) := by
  unfold Html.textTokens
  split
  next he =>
    subst he
    rw [List.nil_append, ← ht]
  next =>
    rw [List.singleton_append, build, if_pos (by simp [ht, hc])]

/-- How building goes on when an element is complete. -/
def resume (o : Outline) (ts : List Token) : List Frame → Option Outline
  | [] => if ts.isEmpty then some o else none
  | outer :: frames => build ts ({ outer with children := o :: outer.children } :: frames)

theorem build_closing (frame : Frame) (ts : List Token) (frames : List Frame) :
    build (.closing frame.name :: ts) (frame :: frames) = resume frame.close ts frames := by
  cases frames with
  | nil => rw [build, if_pos rfl, resume]
  | cons outer frames => rw [build, if_pos rfl, resume]

mutual

theorem build_tokens (o : Outline) (ts : List Token) (frames : List Frame) :
    build (o.tokens ++ ts) frames = resume o ts frames := by
  obtain ⟨name, attributes, text, children⟩ := o
  have hclose := build_closing
    { name, attributes, text, children := children.reverse ++ [] } ts frames
  have hchildren := build_tokensOfAll children { name, attributes, text }
    (.closing name :: ts) frames
  have htext := build_text { name, attributes } rfl rfl text
    (tokensOfAll children ++ .closing name :: ts) frames
  rw [tokens, List.cons_append, build, List.append_assoc, List.append_assoc,
    List.singleton_append, htext, hchildren, hclose]
  simp [Frame.close]

theorem build_tokensOfAll (os : List Outline) (frame : Frame) (ts : List Token)
    (frames : List Frame) :
    build (tokensOfAll os ++ ts) (frame :: frames) =
      build ts ({ frame with children := os.reverse ++ frame.children } :: frames) := by
  cases os with
  | nil => rfl
  | cons o os =>
    have hfirst := build_tokens o (tokensOfAll os ++ ts) (frame :: frames)
    have hmore := build_tokensOfAll os { frame with children := o :: frame.children } ts frames
    rw [tokensOfAll, List.append_assoc, hfirst, resume, hmore]
    simp

end

/-- The one element that a markup consists of. -/
def parse? (html : String) : Option Outline := do build (← Html.tokens? html.toList) []

/-- What is written of an element tells all that its outline holds. -/
theorem parse?_html (o : Outline) (h : o.Named) : parse? (String.ofList o.html) = some o := by
  have htokens : Html.tokens? (o.html ++ []) = some (o.tokens ++ []) :=
    tokens?_html o h (by rw [Html.tokens?])
  have hbuild := build_tokens o [] []
  rw [List.append_nil, List.append_nil] at htokens
  rw [List.append_nil] at hbuild
  rw [parse?, String.toList_ofList, htokens]
  exact hbuild

end Outline

end LiveFeed
