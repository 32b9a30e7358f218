import LiveFeed.Proofs.Outline
import LiveFeed.Proofs.Views

namespace LiveFeed

open Html (IsName)

/-- The names in a tag can stand in markup. -/
def Tag.Named (tag : Tag) : Prop := IsName tag.name ∧ ∀ a ∈ tag.attributes, IsName a.1

/-- What holds of the names of class, id and the other attributes holds of all that are written. -/
theorem Tag.forall_written {P : String → Prop} (hclass : P "class") (hid : P "id") {tag : Tag}
    (h : ∀ a ∈ tag.attributes, P a.1) : ∀ a ∈ tag.written, P a.1 := by
  intro a ha
  rw [written, List.mem_append, List.mem_append, Option.mem_toList, Option.mem_toList] at ha
  rcases ha with (ha | ha) | ha
  · obtain ⟨value, -, rfl⟩ := Option.map_eq_some_iff.mp ha
    exact hclass
  · obtain ⟨value, -, rfl⟩ := Option.map_eq_some_iff.mp ha
    exact hid
  · exact h a ha

theorem Tag.isName_of_mem_written {tag : Tag} (h : tag.Named) :
    ∀ a ∈ tag.written, IsName a.1 :=
  forall_written (by decide : IsName "class") (by decide) h.2

theorem Tag.opening_eq (tag : Tag) :
    tag.opening = '<' :: (tag.name.toList ++ Html.writeAttributes tag.written ++ ['>']) := by
  rw [opening, Html.writeAttributes, List.cons_append, List.cons_append]

namespace Element

mutual

/-- Every name in an element and its descendants can stand in markup. -/
def Named : Element → Prop
  | leaf tag _ => tag.Named
  | branch tag children => tag.Named ∧ AllNamed children

def AllNamed : List Element → Prop
  | [] => True
  | e :: es => e.Named ∧ AllNamed es

end

mutual

/-- The outline of an element: class and id are attributes in front of the others. -/
def outline : Element → Outline
  | leaf tag text => .node tag.name tag.written text []
  | branch tag children => .node tag.name tag.written "" (outlines children)

def outlines : List Element → List Outline
  | [] => []
  | e :: es => e.outline :: outlines es

end

mutual

theorem named_outline (e : Element) (h : e.Named) : e.outline.Named := by
  cases e with
  | leaf tag text => exact ⟨h.1, Tag.isName_of_mem_written h, trivial⟩
  | branch tag children =>
    exact ⟨h.1.1, Tag.isName_of_mem_written h.1, named_outlines children h.2⟩

theorem named_outlines (es : List Element) (h : AllNamed es) : Outline.AllNamed (outlines es) := by
  cases es with
  | nil => trivial
  | cons e es => exact ⟨named_outline e h.1, named_outlines es h.2⟩

end

mutual

theorem html_outline (e : Element) : e.outline.html = e.html := by
  cases e with
  | leaf tag text =>
    rw [outline, Outline.html, html, Tag.opening_eq, Tag.closing, Outline.htmlOfAll]
    simp
  | branch tag children =>
    have hchildren := htmlOfAll_outlines children
    rw [outline, Outline.html, html, Tag.opening_eq, Tag.closing, hchildren]
    simp [Html.escape]

theorem htmlOfAll_outlines (es : List Element) :
    Outline.htmlOfAll (outlines es) = htmlOfAll es := by
  cases es with
  | nil => rfl
  | cons e es =>
    have hfirst := html_outline e
    have hmore := htmlOfAll_outlines es
    rw [outlines, Outline.htmlOfAll, htmlOfAll, hfirst, hmore]

end

theorem parse?_toHtml {e : Element} (h : e.Named) : Outline.parse? e.toHtml = some e.outline := by
  have hparse := Outline.parse?_html e.outline (named_outline e h)
  rwa [html_outline] at hparse

theorem allNamed_iff {es : List Element} : AllNamed es ↔ ∀ e ∈ es, e.Named := by
  induction es with
  | nil => simp [AllNamed]
  | cons e es ih => rw [AllNamed, ih, List.forall_mem_cons]

theorem named_iff {e : Element} : e.Named ↔ e.tag.Named ∧ AllNamed e.children := by
  cases e with
  | leaf tag text => simp [Named, Element.tag, children, AllNamed]
  | branch tag children => simp [Named, Element.tag, Element.children]

theorem named_empty {name : String} (h : IsName name) : (empty name).Named :=
  ⟨⟨h, by simp⟩, trivial⟩

theorem named_div : div.Named := named_empty (by decide)

theorem named_span : span.Named := named_empty (by decide)

theorem named_paragraph : paragraph.Named := named_empty (by decide)

namespace Named

variable {e : Element}

protected theorem withTag (h : e.Named) {tag : Tag} (ht : tag.Named) : (e.withTag tag).Named := by
  cases e with
  | leaf _ text => exact ht
  | branch _ children => exact ⟨ht, h.2⟩

/-- A class or an id is a value, and may be any text. -/
protected theorem withClass (h : e.Named) (className : String) : (e.withClass className).Named :=
  h.withTag (named_iff.mp h).1

protected theorem withId (h : e.Named) (id : String) : (e.withId id).Named :=
  h.withTag (named_iff.mp h).1

protected theorem withAttribute (h : e.Named) {name : String} (hname : IsName name)
    (value : String) : (e.withAttribute name value).Named := by
  obtain ⟨htag, hattributes⟩ := (named_iff.mp h).1
  refine h.withTag ⟨htag, ?_⟩
  rw [List.forall_mem_append, List.forall_mem_singleton]
  exact ⟨hattributes, hname⟩

protected theorem withText (h : e.Named) (text : String) : (e.withText text).Named :=
  (named_iff.mp h).1

protected theorem withChildren (h : e.Named) {children : List Element}
    (hchildren : ∀ child ∈ children, child.Named) : (e.withChildren children).Named := by
  obtain ⟨htag, hold⟩ := named_iff.mp h
  refine ⟨htag, ?_⟩
  rw [allNamed_iff, List.forall_mem_append]
  exact ⟨allNamed_iff.mp hold, hchildren⟩

end Named

theorem named_spans (spans : List (String × String)) :
    ∀ e ∈ spans.map fun (className, text) => (span.withClass className).withText text,
      e.Named := by
  intro e he
  obtain ⟨⟨className, text⟩, -, rfl⟩ := List.mem_map.mp he
  exact (named_span.withClass className).withText text

end Element

/-- What is rendered for a record can be written, and this is its outline under its key. -/
def Layout.Draws {R : Type} (layout : Layout R) (outline : String → R → Outline) : Prop :=
  ∀ r node, layout.render r = .ok node →
    node.Named ∧ ∀ key, (node.withId key).outline = outline key r

/-- The key of a record in a region is the id of its element. -/
def Region.key (region : Region) (token : String) : String := region.mountId ++ "-" ++ token

/-- The outline of a region in which these elements stand. -/
def Region.page (region : Region) (children : List Outline) : Outline :=
  .node "div" [("id", region.mountId)] "" children

namespace Layout.Draws

variable {R : Type} {layout : Layout R} {outline : String → R → Outline} {region : Region}
  {records : List R}

theorem outlines (h : layout.Draws outline) {elements : List Element}
    (hdrawn : List.Forall₂ (fun r e => ∃ node, layout.render r = .ok node ∧
      e = node.withId (region.key (layout.token r))) records elements) :
    (∀ e ∈ elements, e.Named) ∧
      Element.outlines elements =
        records.map fun r => outline (region.key (layout.token r)) r := by
  induction hdrawn with
  | nil => exact ⟨by simp, rfl⟩
  | cons hfirst _ ih =>
    obtain ⟨node, hnode, rfl⟩ := hfirst
    obtain ⟨hnamed, houtline⟩ := h _ _ hnode
    rw [List.forall_mem_cons, Element.outlines, List.map_cons, houtline, ih.2]
    exact ⟨⟨hnamed.withId _, ih.1⟩, rfl⟩

theorem parse?_page (h : layout.Draws outline) {html : String}
    (hpage : layout.IsPage region records html) :
    Outline.parse? html =
      some (region.page (records.map fun r => outline (region.key (layout.token r)) r)) := by
  obtain ⟨elements, hdrawn, rfl⟩ := hpage
  obtain ⟨hnamed, houtlines⟩ := h.outlines hdrawn
  rw [Element.parse?_toHtml ((Element.named_div.withId _).withChildren hnamed), ← houtlines]
  rfl

end Layout.Draws

namespace Wallet

/-- An address is shown in full as long as it has no more than twenty characters. -/
def shownAddress (token : String) : String :=
  if token.length ≤ 20 then token else String.ofList (token.toList.take 20) ++ "..."

theorem abbreviate_eq (token : String) : abbreviate token = shownAddress token := by
  have hlength : token.toList.drop 20 = [] ↔ token.length ≤ 20 := by
    rw [List.drop_eq_nil_iff, String.length_toList]
  unfold abbreviate shownAddress
  split
  next hnil => rw [if_pos (hlength.mp hnil)]
  next hmore => rw [if_neg (mt hlength.mpr (by simp [hmore]))]

/-- A wallet as a child of its region. -/
def outline (key : String) (w : Wallet) : Outline :=
  .node "p" [("class", "walletdetails"), ("id", key)] "" [
    .node "span" [("class", "wallet")] (shownAddress w.token) [],
    .node "span" [("class", "walletbalance")] (Balance.display w.balance) []]

theorem draws_outline (order : SortOrder) : (layout order).Draws outline := by
  intro w node h
  simp only [layout, render, abbreviate_eq] at h
  split at h
  next => cases h
  next =>
    cases h
    have hspans := Element.named_spans [("wallet", shownAddress w.token),
      ("walletbalance", Balance.display w.balance)]
    exact ⟨(Element.named_paragraph.withClass _).withChildren hspans, fun key => rfl⟩

end Wallet

namespace Stage

def outline (key : String) (s : Stage) : Outline :=
  .node "p" [("class", "stage"), ("id", key)] "" [
    .node "span" [("class", "stageAuthor")] (s.author ++ ":") [],
    .node "span" [("class", "stageName")] s.caption [],
    .node "span" [("class", "stageCount")] (toString s.count.toNat) []]

theorem draws_outline : layout.Draws outline := by
  intro s node h
  simp only [layout, render] at h
  split at h
  next => cases h
  next =>
    cases h
    have hspans := Element.named_spans [("stageAuthor", s.author ++ ":"),
      ("stageName", s.caption), ("stageCount", toString s.count.toNat)]
    exact ⟨(Element.named_paragraph.withClass _).withChildren hspans, fun key => rfl⟩

end Stage

namespace Engagement

def outline (key : String) (e : Engagement) : Outline :=
  .node "p" [("class", "engagement"), ("id", key)] "" [
    .node "span" [("class", "engagementName")] e.name [],
    .node "span" [("class", "engagementCount")] (toString e.count.toNat) []]

theorem draws_outline : layout.Draws outline := by
  intro e node h
  simp only [layout, render] at h
  split at h
  next => cases h
  next =>
    cases h
    have hspans := Element.named_spans [("engagementName", e.name),
      ("engagementCount", toString e.count.toNat)]
    exact ⟨(Element.named_paragraph.withClass _).withChildren hspans, fun key => rfl⟩

end Engagement

namespace Post

/-- The status of a post is a class of its own. -/
def classes (p : Post) : String := p.status.elim "post" ("post " ++ ·)

theorem className_eq (p : Post) : p.className = p.classes := by
  unfold className classes
  cases p.status with
  | none => rfl
  | some status => rfl

/-- A post that waits has a button behind its content. -/
def outline (key : String) (p : Post) : Outline :=
  .node "div" [("class", p.classes), ("id", key)] "" <| [
    .node "span" [("class", "usercaption")] p.author [],
    .node "span" [("class", "timestamp")] p.timestamp [],
    .node "p" [("class", "postcontent")] p.content []] ++
    if p.moderation then
      [.node "p" [("class", "approve"), ("data-approve", p.token)] "Approve" []]
    else []

theorem isEmpty_className (p : Post) : p.className.isEmpty = false := by
  cases hstatus : p.status with
  | none => simp [className, hstatus]
  | some status => simp [className, hstatus]

theorem named_approval (p : Post) : ∀ e ∈ p.approval, e.Named := by
  unfold approval
  split
  next =>
    rw [List.forall_mem_singleton]
    exact ((Element.named_paragraph.withClass _).withAttribute (by decide) _).withText _
  next => simp

theorem outlines_approval (p : Post) :
    Element.outlines p.approval =
      if p.moderation then
        [.node "p" [("class", "approve"), ("data-approve", p.token)] "Approve" []]
      else [] := by
  unfold approval
  split
  next => rfl
  next => rfl

theorem draws_outline : layout.Draws outline := by
  intro p node h
  cases h
  have hspan (className text : String) := (Element.named_span.withClass className).withText text
  have hcontent := (Element.named_paragraph.withClass "postcontent").withText p.content
  constructor
  · refine (Element.named_div.withClass _).withChildren ?_
    simp only [List.forall_mem_append, List.forall_mem_cons]
    exact ⟨⟨hspan _ _, hspan _ _, hcontent, by simp⟩, p.named_approval⟩
  · intro key
    have hwritten : (Tag.mk "div" (if p.className.isEmpty then none else some p.className)
        (some key) []).written = [("class", p.className), ("id", key)] := by
      rw [isEmpty_className]
      rfl
    rw [outline, ← className_eq, ← outlines_approval, ← hwritten]
    rfl

end Post

namespace Dispatcher

variable {config : Config}

/-- What a region shows, by the records that its list holds. -/
def regionOutline (d : Dispatcher config) (region : Region) : Outline :=
  region.page <| match region with
    | .wallets => d.wallets.records.map fun w => w.outline (region.key w.token)
    | .stages => d.stages.records.map fun s => s.outline (region.key s.token)
    | .moderations => d.moderations.records.map fun s => s.outline (region.key s.token)
    | .engagements => d.engagements.records.map fun e => e.outline (region.key e.token)
    | .posts => d.posts.records.map fun p => p.outline (region.key p.token)

theorem Mirrored.parse?_regionHtml {d : Dispatcher config} (h : d.Mirrored) (region : Region) :
    Outline.parse? (d.regionHtml region) = some (d.regionOutline region) := by
  cases region with
  | wallets => exact (Wallet.draws_outline _).parse?_page h.wallets.isPage
  | stages => exact Stage.draws_outline.parse?_page h.stages.isPage
  | moderations => exact Stage.draws_outline.parse?_page h.moderations.isPage
  | engagements => exact Engagement.draws_outline.parse?_page h.engagements.isPage
  | posts => exact Post.draws_outline.parse?_page h.posts.isPage

end Dispatcher

end LiveFeed
