import LiveFeed.Proofs.Markup

namespace LiveFeed

namespace Html

/-- The text outside of tags, each of which goes from a `<` to the next `>`. -/
def stripTags : (inTag : Bool) → List Char → List Char
  | _, [] => []
  | true, c :: cs => stripTags (c ≠ '>') cs
  | false, c :: cs => if c = '<' then stripTags true cs else c :: stripTags false cs

theorem stripTags_inside {tag : List Char} (h : '>' ∉ tag) (rest : List Char) :
    stripTags true (tag ++ '>' :: rest) = stripTags false rest := by
  induction tag with
  | nil => rfl
  | cons c tag ih =>
    obtain ⟨hne, hmore⟩ : '>' ≠ c ∧ '>' ∉ tag := by simpa using h
    rw [List.cons_append, stripTags, decide_eq_true (Ne.symm hne), ih hmore]

theorem stripTags_tag {tag : List Char} (h : '>' ∉ tag) (rest : List Char) :
    stripTags false ('<' :: (tag ++ '>' :: rest)) = stripTags false rest := by
  rw [stripTags, if_pos rfl, stripTags_inside h]

theorem stripTags_text {text : List Char} (h : '<' ∉ text) (rest : List Char) :
    stripTags false (text ++ rest) = text ++ stripTags false rest := by
  induction text with
  | nil => rfl
  | cons c text ih =>
    obtain ⟨hne, hmore⟩ : '<' ≠ c ∧ '<' ∉ text := by simpa using h
    rw [List.cons_append, stripTags, if_neg (Ne.symm hne), ih hmore, List.cons_append]

theorem stripTags_escape (text rest : List Char) :
    stripTags false (escape text ++ rest) = escape text ++ stripTags false rest :=
  stripTags_text (fun h => (ne_of_mem_escape h).1 rfl) rest

theorem escape_append (s t : List Char) : escape (s ++ t) = escape s ++ escape t :=
  List.flatMap_append

end Html

/-- No name in a tag holds the bracket at which the tag ends. -/
def Tag.Enclosed (tag : Tag) : Prop :=
  '>' ∉ tag.name.toList ∧ ∀ a ∈ tag.attributes, '>' ∉ a.1.toList

namespace Tag

variable {tag : Tag}

theorem Enclosed.written (h : tag.Enclosed) : ∀ a ∈ tag.written, '>' ∉ a.1.toList :=
  forall_written (P := fun name => '>' ∉ name.toList) (by decide) (by decide) h.2

theorem stripTags_opening (h : tag.Enclosed) (rest : List Char) :
    Html.stripTags false (tag.opening ++ rest) = Html.stripTags false rest := by
  have hstop : '>' ∉ tag.name.toList ++ Html.writeAttributes tag.written := by
    rw [List.mem_append]
    exact not_or.mpr ⟨h.1, Html.not_mem_writeAttributes h.written⟩
  rw [opening_eq, List.cons_append, List.append_assoc, List.singleton_append,
    Html.stripTags_tag hstop]

theorem stripTags_closing (h : tag.Enclosed) (rest : List Char) :
    Html.stripTags false (tag.closing ++ rest) = Html.stripTags false rest := by
  have hstop : '>' ∉ '/' :: tag.name.toList := by simpa using h.1
  have htext : tag.closing ++ rest = '<' :: ('/' :: tag.name.toList ++ '>' :: rest) := by
    simp [closing]
  rw [htext, Html.stripTags_tag hstop]

end Tag

namespace Element

mutual

/-- The tags of an element and of its descendants end where they should. -/
def Enclosed : Element → Prop
  | leaf tag _ => tag.Enclosed
  | branch tag children => tag.Enclosed ∧ AllEnclosed children

def AllEnclosed : List Element → Prop
  | [] => True
  | e :: es => e.Enclosed ∧ AllEnclosed es

end

mutual

theorem stripTags_html (e : Element) (h : e.Enclosed) (rest : List Char) :
    Html.stripTags false (e.html ++ rest) =
      Html.escape e.textContent.toList ++ Html.stripTags false rest := by
  cases e with
  | leaf tag text =>
    rw [html, textContent, List.append_assoc, List.append_assoc, Tag.stripTags_opening h,
      Html.stripTags_escape, Tag.stripTags_closing h]
  | branch tag children =>
    rw [html, textContent, List.append_assoc, List.append_assoc, Tag.stripTags_opening h.1,
      stripTags_htmlOfAll children h.2, Tag.stripTags_closing h.1]

theorem stripTags_htmlOfAll (es : List Element) (h : AllEnclosed es) (rest : List Char) :
    Html.stripTags false (htmlOfAll es ++ rest) =
      Html.escape (textOfAll es).toList ++ Html.stripTags false rest := by
  cases es with
  | nil => rfl
  | cons e es =>
    rw [htmlOfAll, textOfAll, List.append_assoc, stripTags_html e h.1,
      stripTags_htmlOfAll es h.2, String.toList_append, Html.escape_append, List.append_assoc]

end

/-- A step in building an element. -/
inductive Step where
  | setClass (className : String)
  | setId (id : String)
  | setAttribute (name value : String)
  | setText (text : String)
  | addChild (child : Element)
  | addChildren (children : List Element)

namespace Step

def isText : Step → Bool
  | setText _ => true
  | _ => false

/-- A step that gives an element text or children. -/
def isContent : Step → Bool
  | setText _ => true
  | addChild _ => true
  | addChildren _ => true
  | _ => false

/-- Text gives way to any later content, and children to later text. -/
def droppedBy (step : Step) (later : List Step) : Bool :=
  match step with
  | setText _ => later.any isContent
  | addChild _ => later.any isText
  | addChildren _ => later.any isText
  | _ => false

theorem isContent_of_isText {step : Step} (h : step.isText = true) : step.isContent = true := by
  cases step with
  | setText _ => rfl
  | _ => cases h

end Step

def apply (e : Element) : Step → Element
  | .setClass className => e.withClass className
  | .setId id => e.withId id
  | .setAttribute name value => e.withAttribute name value
  | .setText text => e.withText text
  | .addChild child => e.withChild child
  | .addChildren children => e.withChildren children

def build (name : String) (steps : List Step) : Element := steps.foldl apply (empty name)

/-- The steps without those whose text or children are dropped again. -/
def lasting : List Step → List Step
  | [] => []
  | step :: later => if step.droppedBy later then lasting later else step :: lasting later

theorem tag_withTag (e : Element) (tag : Tag) : (e.withTag tag).tag = tag := by
  cases e <;> rfl

theorem children_withTag (e : Element) (tag : Tag) : (e.withTag tag).children = e.children := by
  cases e <;> rfl

/-- Whatever tells two elements apart, the steps to come drop it. -/
structure Meets (later : List Step) (e e' : Element) : Prop where
  tag : e.tag = e'.tag
  children : later.any Step.isText = false → e.children = e'.children
  whole : later.any Step.isContent = false → e = e'
  /-- Children in front of a text are never added to the first element. -/
  bare : later.any Step.isText = true → e.children = []

namespace Meets

variable {later : List Step} {e e' : Element}

theorem of_eq (h : later.any Step.isText = true → e.children = []) : Meets later e e :=
  ⟨rfl, fun _ => rfl, fun _ => rfl, h⟩

protected theorem withTag {step : Step} (h : Meets (step :: later) e e')
    (hstep : step.isContent = false) (change : Tag → Tag) :
    Meets later (e.withTag (change e.tag)) (e'.withTag (change e'.tag)) := by
  have htext : step.isText = false :=
    Bool.eq_false_iff.mpr fun ht => by simp [Step.isContent_of_isText ht] at hstep
  obtain ⟨htag, hsame, hwhole, hbare⟩ := h
  simp only [List.any_cons, htext, hstep, Bool.false_or] at hsame hwhole hbare
  constructor
  case tag => rw [tag_withTag, tag_withTag, htag]
  case children => simpa only [children_withTag] using hsame
  case whole => exact fun hl => by rw [hwhole hl]
  case bare => simpa only [children_withTag] using hbare

protected theorem withText {text : String} (h : Meets (.setText text :: later) e e') :
    Meets later (if later.any Step.isContent then e else e.withText text) (e'.withText text) := by
  have hchildren : e.children = [] := h.bare rfl
  split
  next hcontent =>
    refine ⟨h.tag, fun _ => hchildren, fun hl => ?_, fun _ => hchildren⟩
    rw [hl] at hcontent
    cases hcontent
  next =>
    rw [withText, withText, h.tag]
    exact of_eq fun _ => rfl

protected theorem withChildren {step : Step} {children : List Element}
    (h : Meets (step :: later) e e') (hstep : step.isText = false) :
    Meets later (if later.any Step.isText then e else e.withChildren children)
      (e'.withChildren children) := by
  obtain ⟨htag, hsame, -, hbare⟩ := h
  simp only [List.any_cons, hstep, Bool.false_or] at hsame hbare
  split
  next htext =>
    refine ⟨htag, fun hl => ?_, fun hl => ?_, hbare⟩
    · rw [hl] at htext
      cases htext
    · obtain ⟨s, hs, ht⟩ := List.any_eq_true.mp htext
      exact absurd (Step.isContent_of_isText ht) (List.any_eq_false.mp hl s hs)
  next htext =>
    rw [Element.withChildren, Element.withChildren, htag, hsame (Bool.eq_false_iff.mpr htext)]
    exact of_eq fun ht => absurd ht htext

/-- A step that is dropped later need not be made at the first element. -/
theorem step {step : Step} (h : Meets (step :: later) e e') :
    Meets later (if step.droppedBy later then e else e.apply step) (e'.apply step) := by
  cases step with
  | setClass className =>
    exact h.withTag rfl fun tag =>
      { tag with className := if className.isEmpty then none else some className }
  | setId id => exact h.withTag rfl fun tag => { tag with id := some id }
  | setAttribute name value =>
    exact h.withTag rfl fun tag => { tag with attributes := tag.attributes ++ [(name, value)] }
  | setText text => exact h.withText
  | addChild child => exact h.withChildren rfl
  | addChildren children => exact h.withChildren rfl

theorem foldl_lasting {steps : List Step} (h : Meets steps e e') :
    (lasting steps).foldl apply e = steps.foldl apply e' := by
  induction steps generalizing e e' with
  | nil => exact h.whole rfl
  | cons step later ih =>
    have hmeets := h.step
    rw [lasting]
    split
    next hdropped =>
      rw [if_pos hdropped] at hmeets
      exact ih hmeets
    next hkept =>
      rw [if_neg hkept] at hmeets
      exact ih hmeets

end Meets

/--
The markup of an element tells its text, whatever stands in its texts and values; and what is
dropped while the element is built leaves nothing in either.
-/
theorem visible_text_agrees :
    (∀ e : Element, e.Enclosed →
      Html.unescape (Html.stripTags false e.toHtml.toList) = e.textContent.toList) ∧
    ∀ name steps, build name (lasting steps) = build name steps := by
  constructor
  · intro e he
    have hstrip := stripTags_html e he []
    rw [List.append_nil, Html.stripTags, List.append_nil] at hstrip
    rw [toHtml, String.toList_ofList, hstrip, Html.unescape_escape]
  · intro name steps
    exact (Meets.of_eq fun _ => rfl).foldl_lasting

theorem visible_text_agrees_hostile :
    let e := build "div" [.setText "<lost>", .setClass "\"><p>",
      .addChild (span.withText "a < b"), .setAttribute "title" "<i>",
      .addChild (paragraph.withText "&lt;")]
    e.Enclosed ∧ Html.unescape (Html.stripTags false e.toHtml.toList) = "a < b&lt;".toList := by
  intro e
  have he : e.Enclosed :=
    ⟨⟨by decide, by decide⟩, ⟨by decide, by decide⟩, ⟨by decide, by decide⟩, trivial⟩
  exact ⟨he, visible_text_agrees.1 e he⟩

end Element

end LiveFeed
