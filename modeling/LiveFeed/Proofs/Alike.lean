import LiveFeed.Proofs.Upserts
import LiveFeed.Proofs.Views

namespace LiveFeed

/-- The same answer from two sides, which are alike after it. -/
structure Concur {α σ : Type} (alike : σ → σ → Prop) (told told' : α × σ) : Prop where
  answer : told.1 = told'.1
  alike : alike told.2 told'.2

theorem Concur.map {α β σ : Type} {alike : σ → σ → Prop} {told told' : α × σ}
    (h : Concur alike told told') (f : α → β) :
    Concur alike (f told.1, told.2) (f told'.1, told'.2) :=
  ⟨congrArg f h.answer, h.alike⟩

theorem Concur.ofView {α σ : Type} {alike : σ → σ → Prop} {told told' : Answer α × σ}
    (h : Concur alike told told') {region : Region} :
    Outcome.ofView region told.1.result = Outcome.ofView region told'.1.result :=
  (h.map fun answer => Outcome.ofView region answer.result).answer

variable {R : Type} {layout : Layout R}

/-- The records of a region leave nothing open about its HTML. -/
theorem Layout.IsPage.unique {region : Region} {records : List R} {html html' : String}
    (h : layout.IsPage region records html) (h' : layout.IsPage region records html') :
    html = html' := by
  obtain ⟨elements, hdrawn, rfl⟩ := h
  obtain ⟨elements', hdrawn', rfl⟩ := h'
  have hsame : elements = elements' := by
    refine List.right_unique_forall₂' ?_ hdrawn hdrawn'
    rintro r e e' ⟨node, hn, rfl⟩ ⟨node', hn', rfl⟩
    rw [Except.ok.inj (hn.symm.trans hn')]
  rw [hsame]

namespace OrderedList

/-- Two lists in a region that hold the same records; the handles of their children may differ. -/
structure Alike (region : Region) (l l' : OrderedList layout) : Prop where
  left : l.Mirrored region.mountId
  right : l'.Mirrored region.mountId
  records : l.records = l'.records

namespace Alike

variable {region : Region} {l l' : OrderedList layout}

theorem tokens (h : Alike region l l') : l.tokens = l'.tokens :=
  congrArg (List.map layout.token) h.records

theorem get? (h : Alike region l l') (token : String) : l.get? token = l'.get? token :=
  congrArg (List.find? (layout.token · = token)) h.records

theorem key (h : Alike region l l') : l.key = l'.key :=
  funext fun token => (h.left.key_eq token).trans (h.right.key_eq token).symm

theorem toHtml (h : Alike region l l') : l.toHtml = l'.toHtml :=
  h.left.isPage.unique (h.records ▸ h.right.isPage)

theorem insert (h : Alike region l l') (r : R) :
    Concur (Alike region) (l.insert r) (l'.insert r) := by
  by_cases hr : layout.token r ∈ l.tokens
  · have hr' : layout.token r ∈ l'.tokens := h.tokens ▸ hr
    rw [insert_of_mem hr, insert_of_mem hr']
    exact ⟨rfl, h⟩
  · have hr' : layout.token r ∉ l'.tokens := h.tokens ▸ hr
    cases hn : layout.render r with
    | error reason =>
      rw [h.left.insert_of_render_error hr hn, h.right.insert_of_render_error hr' hn]
      exact ⟨rfl, h⟩
    | ok node =>
      obtain ⟨m, hl, hm, hrecords⟩ := h.left.insert_of_render_ok hr hn
      obtain ⟨m', hl', hm', hrecords'⟩ := h.right.insert_of_render_ok hr' hn
      rw [hl, hl', h.key, h.records]
      exact ⟨rfl, hm, hm', by rw [hrecords, hrecords', h.records]⟩

theorem update (h : Alike region l l') (r : R) :
    Concur (Alike region) (l.update r) (l'.update r) := by
  by_cases hr : layout.token r ∈ l.tokens
  · have hr' : layout.token r ∈ l'.tokens := h.tokens ▸ hr
    cases hn : layout.render r with
    | error reason =>
      rw [h.left.update_of_render_error hr hn, h.right.update_of_render_error hr' hn]
      exact ⟨rfl, h⟩
    | ok node =>
      obtain ⟨before, old, after, hs, ho⟩ := exists_split hr
      have hs' : l'.records = before ++ old :: after := h.records ▸ hs
      by_cases hp : layout.place r before after = before.length
      · obtain ⟨m, hl, hm, hrecords⟩ := h.left.update_in_place hs ho hn hp
        obtain ⟨m', hl', hm', hrecords'⟩ := h.right.update_in_place hs' ho hn hp
        rw [hl, hl', h.key]
        exact ⟨rfl, hm, hm', hrecords.trans hrecords'.symm⟩
      · obtain ⟨m, hl, hm, hrecords⟩ := h.left.update_moved hs ho hn hp
        obtain ⟨m', hl', hm', hrecords'⟩ := h.right.update_moved hs' ho hn hp
        rw [hl, hl', h.key]
        exact ⟨rfl, hm, hm', hrecords.trans hrecords'.symm⟩
  · have hr' : layout.token r ∉ l'.tokens := h.tokens ▸ hr
    rw [update_of_not_mem hr, update_of_not_mem hr']
    exact ⟨rfl, h⟩

theorem upsert (h : Alike region l l') (r : R) :
    Concur (Alike region) (l.upsert r) (l'.upsert r) := by
  rw [OrderedList.upsert, OrderedList.upsert, h.get?]
  split
  next => exact h.update r
  next => exact h.insert r

theorem remove (h : Alike region l l') (token : String) :
    Concur (Alike region) (l.remove token) (l'.remove token) := by
  by_cases ht : token ∈ l.tokens
  · obtain ⟨before, old, after, hs, rfl⟩ := exists_split ht
    have hs' : l'.records = before ++ old :: after := h.records ▸ hs
    obtain ⟨m, hl, hm, hrecords⟩ := h.left.remove_of_mem hs
    obtain ⟨m', hl', hm', hrecords'⟩ := h.right.remove_of_mem hs'
    rw [hl, hl', h.key]
    exact ⟨rfl, hm, hm', hrecords.trans hrecords'.symm⟩
  · have ht' : token ∉ l'.tokens := h.tokens ▸ ht
    rw [remove_of_not_mem ht, remove_of_not_mem ht']
    exact ⟨rfl, h⟩

theorem reset (h : Alike region l l') : Alike region l.reset l'.reset where
  left := h.left.reset
  right := h.right.reset
  records := rfl

theorem bump (h : Alike region l l') (token : String) (grow : R → Option R) :
    Concur (Alike region) (l.bump region token grow) (l'.bump region token grow) := by
  rw [OrderedList.bump, OrderedList.bump, h.get?]
  split
  next => exact ⟨rfl, h⟩
  next r _ =>
    split
    next => exact ⟨rfl, h⟩
    next r _ => exact (h.update r).map fun answer => Outcome.ofView region answer.result

theorem removeIfPresent (h : Alike region l l') (token : String) :
    Concur (Alike region) (l.removeIfPresent token) (l'.removeIfPresent token) := by
  rw [OrderedList.removeIfPresent, OrderedList.removeIfPresent, h.get?]
  split
  next => exact (h.remove token).map fun answer => (fun _ => true) <$> answer.result
  next => exact ⟨rfl, h⟩

/-- An emptied list is like one that has never held anything. -/
theorem of_emptied (h : l.Mirrored region.mountId) :
    Alike region l.reset (ofRegion layout region) where
  left := h.reset
  right := mirrored_ofRegion layout region
  records := rfl

end Alike

end OrderedList

end LiveFeed
