import Mathlib.Data.List.Induction
import Mathlib.Data.List.Nodup
import LiveFeed.Proofs.Mount

namespace LiveFeed

/-- What a mount may be asked to do, by the owner of its children and by others. -/
inductive Request where
  | append (key : String) (node : Element)
  | insertBefore (key : String) (node : Element) (before : Handle)
  | replace (h : Handle) (node : Element)
  | detach (h : Handle)
  | take (key : String)
  | clear

namespace Mount

/-- The mount after a request, granted or not. -/
def grant (m : Mount) : Request → Mount
  | .append key node => (m.append key node).2
  | .insertBefore key node before => (m.insertBefore key node before).2
  | .replace h node => (m.replace h node).2
  | .detach h => (m.detach h).2
  | .take key => (m.takeByKey key).2
  | .clear => m.clear

def grantAll (m : Mount) (requests : List Request) : Mount := requests.foldl grant m

/-- The handle that a request gives out, and the key that it was given out for. -/
def issue? (m : Mount) : Request → Option (Handle × String)
  | .append key node => some ((m.append key node).1, key)
  | .insertBefore key node before => (m.insertBefore key node before).1.toOption.map (·, key)
  | .replace _ _ | .detach _ | .take _ | .clear => none

/-- The handles whose children a request takes away. -/
def removal (m : Mount) : Request → List Handle
  | .detach h => if (m.detach h).1.isOk then [h] else []
  | .take key => ((m.children.find? (·.element.tag.id = some key)).map (·.handle)).toList
  | .clear => m.handles
  | .append _ _ | .insertBefore _ _ _ | .replace _ _ => []

/-- All handles that were ever given out, with their keys. -/
def issued (m : Mount) : List Request → List (Handle × String)
  | [] => []
  | request :: requests => (m.issue? request).toList ++ (m.grant request).issued requests

/-- All handles whose children were ever taken away. -/
def removed (m : Mount) : List Request → List Handle
  | [] => []
  | request :: requests => m.removal request ++ (m.grant request).removed requests

variable {m : Mount}

theorem grantAll_concat (m : Mount) (requests : List Request) (request : Request) :
    m.grantAll (requests ++ [request]) = (m.grantAll requests).grant request :=
  List.foldl_append

theorem issued_concat (m : Mount) (requests : List Request) (request : Request) :
    m.issued (requests ++ [request]) =
      m.issued requests ++ ((m.grantAll requests).issue? request).toList := by
  induction requests generalizing m with
  | nil => simp [issued, grantAll]
  | cons first requests ih =>
    rw [List.cons_append, issued, ih, issued, List.append_assoc]
    rfl

theorem removed_concat (m : Mount) (requests : List Request) (request : Request) :
    m.removed (requests ++ [request]) =
      m.removed requests ++ (m.grantAll requests).removal request := by
  induction requests generalizing m with
  | nil => simp [removed, grantAll]
  | cons first requests ih =>
    rw [List.cons_append, removed, ih, removed, List.append_assoc]
    rfl

theorem unlessRefused_of_willing {α : Type} (hw : m.refusing = none) (call : Refusable)
    (run : Except NotAttached α × Mount) : m.unlessRefused call run = run := by
  simp [unlessRefused, hw]

theorem insertBefore_of_stale (hw : m.refusing = none) {h : Handle} (hh : h ∉ m.handles)
    (key : String) (node : Element) : m.insertBefore key node h = (.error ⟨m.base⟩, m) := by
  have hno : ¬ m.contains h = true := mt contains_iff.mp hh
  rw [insertBefore, unlessRefused_of_willing hw, if_neg hno]

theorem replace_of_stale (hw : m.refusing = none) {h : Handle} (hh : h ∉ m.handles)
    (node : Element) : m.replace h node = (.error ⟨m.base⟩, m) := by
  have hno : ¬ m.contains h = true := mt contains_iff.mp hh
  rw [replace, unlessRefused_of_willing hw, if_neg hno]

theorem get?_isSome_iff {h : Handle} : (m.get? h).isSome = true ↔ h ∈ m.handles := by
  simp [get?, handles]

theorem detach_of_stale (hw : m.refusing = none) {h : Handle} (hh : h ∉ m.handles) :
    m.detach h = (.error ⟨m.base⟩, m) := by
  have hnone : m.get? h = none := by
    rw [← Option.not_isSome_iff_eq_none]
    exact mt get?_isSome_iff.mp hh
  rw [detach, unlessRefused_of_willing hw, hnone]

/-- The first child with a key is taken, and nothing happens where there is none. -/
theorem takeByKey_of_first {key : String} {front back : List Child} {c : Child}
    (hc : m.children = front ++ c :: back) (hkey : c.element.tag.id = some key)
    (hfront : ∀ x ∈ front, x.element.tag.id ≠ some key) :
    m.children.find? (·.element.tag.id = some key) = some c ∧
      m.takeByKey key = (some c.element, { m with children := front ++ back }) := by
  have hfind : m.children.find? (·.element.tag.id = some key) = some c := by
    rw [hc, List.find?_append, List.find?_eq_none.mpr (by simpa using hfront)]
    simp [hkey]
  have herase : m.children.eraseP (·.element.tag.id = some key) = front ++ back := by
    rw [hc, List.eraseP_append_right _ (by simpa using hfront)]
    simp [hkey]
  have hchild : m.childByKey? key = some c.element := by
    have hmap : m.childByKey? key =
        (m.children.find? (·.element.tag.id = some key)).map (·.element) := by
      rw [childByKey?, elements, List.find?_map]
      rfl
    rw [hmap, hfind]
    rfl
  exact ⟨hfind, by rw [takeByKey, hchild, herase]⟩

theorem takeByKey_of_absent {key : String} (h : ∀ c ∈ m.children, c.element.tag.id ≠ some key) :
    m.children.find? (·.element.tag.id = some key) = none ∧ m.takeByKey key = (none, m) := by
  have hfind : m.children.find? (·.element.tag.id = some key) = none :=
    List.find?_eq_none.mpr (by simpa using h)
  have herase : m.children.eraseP (·.element.tag.id = some key) = m.children :=
    List.eraseP_of_forall_not (by simpa using h)
  have hchild : m.childByKey? key = none := by
    rw [childByKey?, elements, List.find?_map, Option.map_eq_none_iff]
    exact hfind
  exact ⟨hfind, by rw [takeByKey, hchild, herase]⟩

/-- All that a request can do, with the handle that it gives out and those that it takes back. -/
inductive Effect (m : Mount) : Mount → Option (Handle × String) → List Handle → Prop
  | nothing : Effect m m none []
  | attached {front back : List Child} (key : String) (node : Element)
      (children : m.children = front ++ back) :
      Effect m
        { m with
          children := front ++ ⟨m.next, node.withId key⟩ :: back
          next := m.next + 1 } (some (m.next, key)) []
  | redrawn {front back : List Child} {c : Child} (node : Element)
      (children : m.children = front ++ c :: back) :
      Effect m
        { m with
          children := front ++
            { c with element := node.withId (c.element.tag.id.getD "") } :: back } none []
  | removed {front back : List Child} {c : Child} (children : m.children = front ++ c :: back) :
      Effect m { m with children := front ++ back } none [c.handle]
  | cleared : Effect m m.clear none m.handles

theorem effect_take (m : Mount) (key : String) :
    m.Effect (m.grant (.take key)) (m.issue? (.take key)) (m.removal (.take key)) := by
  by_cases hthere : ∃ c ∈ m.children, c.element.tag.id = some key
  · obtain ⟨x, hx, hxkey⟩ := hthere
    obtain ⟨c, front, back, hfront, hc, hsplit, -⟩ :=
      List.exists_of_eraseP (p := (·.element.tag.id = some key)) hx (by simpa using hxkey)
    have hkey : c.element.tag.id = some key := by simpa using hc
    obtain ⟨hfind, htake⟩ := takeByKey_of_first hsplit hkey (by simpa using hfront)
    rw [grant, removal, htake, hfind]
    exact .removed hsplit
  · have habsent : ∀ c ∈ m.children, c.element.tag.id ≠ some key := by simpa using hthere
    obtain ⟨hfind, htake⟩ := takeByKey_of_absent habsent
    rw [grant, removal, htake, hfind]
    exact .nothing

theorem effect (hd : m.handles.Nodup) (hw : m.refusing = none) (request : Request) :
    m.Effect (m.grant request) (m.issue? request) (m.removal request) := by
  cases request with
  | append key node => exact .attached key node (List.append_nil m.children).symm
  | insertBefore key node before =>
    by_cases hh : before ∈ m.handles
    · obtain ⟨front, c, back, hc, rfl⟩ := exists_child (contains_iff.mpr hh)
      rw [grant, issue?, insertBefore_eq hc hd (by simp [hw])]
      exact .attached key node hc
    · rw [grant, issue?, insertBefore_of_stale hw hh]
      exact .nothing
  | replace h node =>
    by_cases hh : h ∈ m.handles
    · obtain ⟨front, c, back, hc, rfl⟩ := exists_child (contains_iff.mpr hh)
      rw [grant, replace_eq hc hd (by simp [hw])]
      exact .redrawn node hc
    · rw [grant, replace_of_stale hw hh]
      exact .nothing
  | detach h =>
    by_cases hh : h ∈ m.handles
    · obtain ⟨front, c, back, hc, rfl⟩ := exists_child (contains_iff.mpr hh)
      rw [grant, removal, detach_eq hc hd (by simp [hw])]
      exact .removed hc
    · rw [grant, removal, detach_of_stale hw hh]
      exact .nothing
  | take key => exact effect_take m key
  | clear => exact .cleared

/-- What the children of a mount have to do with the handles that were given out and taken back. -/
structure Accounted (base : String) (issued : List (Handle × String)) (removed : List Handle)
    (m : Mount) : Prop where
  base_eq : m.base = base
  willing : m.refusing = none
  handles_nodup : m.handles.Nodup
  issued_nodup : (issued.map Prod.fst).Nodup
  issued_lt : ∀ h ∈ issued.map Prod.fst, h < m.next
  removed_issued : ∀ h ∈ removed, h ∈ issued.map Prod.fst
  mem_handles_iff : ∀ h, h ∈ m.handles ↔ h ∈ issued.map Prod.fst ∧ h ∉ removed
  keyed : ∀ c ∈ m.children, ∃ key, c.element.tag.id = some key ∧ (c.handle, key) ∈ issued

variable {base : String} {issued : List (Handle × String)} {removed : List Handle}

theorem accounted_new (base : String) : (new base).Accounted base [] [] where
  base_eq := rfl
  willing := rfl
  handles_nodup := List.nodup_nil
  issued_nodup := List.nodup_nil
  issued_lt := by simp
  removed_issued := by simp
  mem_handles_iff := by simp [new, handles]
  keyed := by simp [new]

namespace Accounted

theorem next_notMem (h : m.Accounted base issued removed) : m.next ∉ issued.map Prod.fst :=
  fun hm => Nat.lt_irrefl _ (h.issued_lt _ hm)

theorem attached (h : m.Accounted base issued removed) {front back : List Child} (key : String)
    (node : Element) (hc : m.children = front ++ back) :
    Accounted base (issued ++ [(m.next, key)]) removed
      { m with
        children := front ++ ⟨m.next, node.withId key⟩ :: back
        next := m.next + 1 } := by
  have hfresh := h.next_notMem
  have hhandles : m.handles = (front ++ back).map Child.handle := by rw [handles, hc]
  have hnotMem : m.next ∉ m.handles := fun hm => hfresh ((h.mem_handles_iff _).mp hm).1
  have hmem (i : Handle) : i ∈ (front ++ ⟨m.next, node.withId key⟩ :: back).map Child.handle ↔
      i = m.next ∨ i ∈ m.handles := by
    rw [hhandles]
    exact mem_map_append_cons
  have hissued (i : Handle) : i ∈ (issued ++ [(m.next, key)]).map Prod.fst ↔
      i ∈ issued.map Prod.fst ∨ i = m.next := by
    rw [List.map_append, List.mem_append]
    exact or_congr_right List.mem_singleton
  refine ⟨h.base_eq, h.willing, ?_, ?_, ?_, ?_, ?_, ?_⟩
  · rw [handles, List.map_append, List.map_cons, List.nodup_middle, ← List.map_append, ← hhandles]
    exact List.nodup_cons.mpr ⟨hnotMem, h.handles_nodup⟩
  · rw [List.map_append, List.nodup_append]
    refine ⟨h.issued_nodup, List.nodup_singleton _, fun i hi j hj => ?_⟩
    obtain rfl : j = m.next := List.mem_singleton.mp hj
    exact fun he => hfresh (he ▸ hi)
  · intro i hi
    rcases (hissued i).mp hi with hi | rfl
    · exact Nat.lt_succ_of_lt (h.issued_lt i hi)
    · exact Nat.lt_succ_self _
  · intro i hi
    exact (hissued i).mpr (.inl (h.removed_issued i hi))
  · intro i
    have hold := h.mem_handles_iff i
    rw [handles, hmem, hissued, hold]
    constructor
    · rintro (rfl | ⟨hi, hno⟩)
      · exact ⟨.inr rfl, fun hr => hfresh (h.removed_issued _ hr)⟩
      · exact ⟨.inl hi, hno⟩
    · rintro ⟨hi | rfl, hno⟩
      · exact .inr ⟨hi, hno⟩
      · exact .inl rfl
  · intro c hm
    have hcases : c = ⟨m.next, node.withId key⟩ ∨ c ∈ front ++ back := by
      simpa [or_left_comm] using hm
    rcases hcases with rfl | hm
    · exact ⟨key, Element.id_withId node key, by simp⟩
    · obtain ⟨old, hid, hold⟩ := h.keyed c (hc ▸ hm)
      exact ⟨old, hid, List.mem_append_left _ hold⟩

theorem redrawn (h : m.Accounted base issued removed) {front back : List Child} {c : Child}
    (node : Element) (hc : m.children = front ++ c :: back) :
    Accounted base issued removed
      { m with
        children := front ++
          { c with element := node.withId (c.element.tag.id.getD "") } :: back } := by
  have hhandles : handles
      { m with
        children := front ++
          { c with element := node.withId (c.element.tag.id.getD "") } :: back } = m.handles := by
    simp [handles, hc]
  refine ⟨h.base_eq, h.willing, hhandles ▸ h.handles_nodup, h.issued_nodup, h.issued_lt,
    h.removed_issued, ?_, ?_⟩
  · intro i
    rw [hhandles]
    exact h.mem_handles_iff i
  · intro x hx
    have hcases : x = { c with element := node.withId (c.element.tag.id.getD "") } ∨
        x ∈ front ++ back := by
      simpa [or_left_comm] using hx
    rcases hcases with rfl | hx
    · obtain ⟨key, hid, hmem⟩ := h.keyed c (by simp [hc])
      exact ⟨key, by simp [hid], hmem⟩
    · exact h.keyed x (hc ▸ (sublist_append_cons front back c).mem hx)

/-- Children may go if their handles are counted as taken back. -/
theorem without (h : m.Accounted base issued removed) {children : List Child} {gone : List Handle}
    (hsub : children.Sublist m.children) (hgone : ∀ i ∈ gone, i ∈ m.handles)
    (hleft : ∀ i, i ∈ children.map Child.handle ↔ i ∈ m.handles ∧ i ∉ gone) :
    Accounted base issued (removed ++ gone) { m with children } := by
  refine ⟨h.base_eq, h.willing, h.handles_nodup.sublist (hsub.map Child.handle), h.issued_nodup,
    h.issued_lt, ?_, ?_, fun c hc => h.keyed c (hsub.mem hc)⟩
  · intro i hi
    rcases List.mem_append.mp hi with hi | hi
    · exact h.removed_issued i hi
    · exact ((h.mem_handles_iff i).mp (hgone i hi)).1
  · intro i
    rw [handles, hleft, h.mem_handles_iff, List.mem_append, not_or, and_assoc]

theorem effect (h : m.Accounted base issued removed) {m' : Mount}
    {issue? : Option (Handle × String)} {gone : List Handle} (he : m.Effect m' issue? gone) :
    m'.Accounted base (issued ++ issue?.toList) (removed ++ gone) := by
  cases he with
  | nothing =>
    rw [Option.toList_none, List.append_nil, List.append_nil]
    exact h
  | attached key node hc =>
    rw [List.append_nil]
    exact h.attached key node hc
  | redrawn node hc =>
    rw [Option.toList_none, List.append_nil, List.append_nil]
    exact h.redrawn node hc
  | @removed front back c hc =>
    rw [Option.toList_none, List.append_nil]
    refine h.without (hc ▸ sublist_append_cons front back c) ?_ ?_
    · intro i hi
      obtain rfl := List.mem_singleton.mp hi
      simp [handles, hc]
    · intro i
      have hno := handle_not_mem hc h.handles_nodup
      rw [handles, hc, List.mem_singleton, mem_map_append_cons]
      constructor
      · exact fun hi => ⟨.inr hi, fun heq => hno (heq ▸ hi)⟩
      · exact fun hi => hi.1.resolve_left hi.2
  | cleared =>
    rw [Option.toList_none, List.append_nil]
    exact h.without (List.nil_sublist _) (fun _ hi => hi) (by simp)

theorem grant (h : m.Accounted base issued removed) (request : Request) :
    (m.grant request).Accounted base (issued ++ (m.issue? request).toList)
      (removed ++ m.removal request) :=
  h.effect (m.effect h.handles_nodup h.willing request)

end Accounted

theorem accounted_grantAll (base : String) (requests : List Request) :
    ((new base).grantAll requests).Accounted base ((new base).issued requests)
      ((new base).removed requests) := by
  -- from the end, since what a request may use is known from all that came before it
  induction requests using List.reverseRecOn with
  | nil => exact accounted_new base
  | append_singleton requests request ih =>
    rw [grantAll_concat, issued_concat, removed_concat]
    exact ih.grant request

/--
What the handles of a mount are worth, after some were given out and the children of some taken
away. Children are told by what stands around them.
-/
structure Disciplined (base : String) (issued : List (Handle × String)) (removed : List Handle)
    (m : Mount) : Prop where
  distinct : (issued.map Prod.fst).Nodup
  contains_iff : ∀ h, m.contains h = true ↔ h ∈ issued.map Prod.fst ∧ h ∉ removed
  get?_iff : ∀ h, (m.get? h).isSome = true ↔ h ∈ issued.map Prod.fst ∧ h ∉ removed
  /-- The keys are those for which the handles of the children were given out. -/
  keys : List.Forall₂ (fun c key => c.element.tag.id = some key ∧ (c.handle, key) ∈ issued)
    m.children m.keys
  stale : ∀ h, ¬ (h ∈ issued.map Prod.fst ∧ h ∉ removed) → ∀ key node,
    m.insertBefore key node h = (.error ⟨base⟩, m) ∧ m.replace h node = (.error ⟨base⟩, m) ∧
      m.detach h = (.error ⟨base⟩, m)
  append : ∀ key node, ∃ h ∉ issued.map Prod.fst, (m.append key node).1 = h ∧
    (m.append key node).2.children = m.children ++ [⟨h, node.withId key⟩]
  insertBefore : ∀ front c back, m.children = front ++ c :: back → ∀ key node,
    ∃ h ∉ issued.map Prod.fst, (m.insertBefore key node c.handle).1 = .ok h ∧
      (m.insertBefore key node c.handle).2.children = front ++ ⟨h, node.withId key⟩ :: c :: back
  replace : ∀ front c back, m.children = front ++ c :: back → ∀ key, (c.handle, key) ∈ issued →
    ∀ node, (m.replace c.handle node).1 = .ok () ∧
      (m.replace c.handle node).2.children = front ++ ⟨c.handle, node.withId key⟩ :: back
  detach : ∀ front c back, m.children = front ++ c :: back →
    (m.detach c.handle).1 = .ok c.element ∧ (m.detach c.handle).2.children = front ++ back
  take : ∀ front c back key, m.children = front ++ c :: back → c.element.tag.id = some key →
    (∀ x ∈ front, x.element.tag.id ≠ some key) →
      (m.takeByKey key).1 = some c.element ∧ (m.takeByKey key).2.children = front ++ back
  take_absent : ∀ key, (∀ c ∈ m.children, c.element.tag.id ≠ some key) →
    m.takeByKey key = (none, m)
  clear : m.clear.children = []

theorem forall₂_keys {P : Child → String → Prop} {cs : List Child}
    (h : ∀ c ∈ cs, ∃ key, c.element.tag.id = some key ∧ P c key) :
    List.Forall₂ (fun c key => c.element.tag.id = some key ∧ P c key) cs
      ((cs.map (·.element)).filterMap (·.tag.id)) := by
  induction cs with
  | nil => exact .nil
  | cons c cs ih =>
    obtain ⟨key, hid, hkey⟩ := h c List.mem_cons_self
    have hrest := ih fun x hx => h x (List.mem_cons_of_mem c hx)
    have hkeys : ((c :: cs).map (·.element)).filterMap (·.tag.id) =
        key :: (cs.map (·.element)).filterMap (·.tag.id) := List.filterMap_cons_some hid
    rw [hkeys]
    exact .cons ⟨hid, hkey⟩ hrest

/-- A handle stands for one key. -/
theorem Accounted.key_eq (h : m.Accounted base issued removed) {c : Child} {key : String}
    (hc : c ∈ m.children) (hkey : (c.handle, key) ∈ issued) : c.element.tag.id = some key := by
  obtain ⟨other, hid, hother⟩ := h.keyed c hc
  have hpair : (c.handle, other) = (c.handle, key) :=
    List.inj_on_of_nodup_map h.issued_nodup hother hkey rfl
  rw [hid, (Prod.mk.inj hpair).2]

theorem Accounted.disciplined (h : m.Accounted base issued removed) :
    m.Disciplined base issued removed where
  distinct := h.issued_nodup
  contains_iff i := Mount.contains_iff.trans (h.mem_handles_iff i)
  get?_iff i := get?_isSome_iff.trans (h.mem_handles_iff i)
  keys := forall₂_keys h.keyed
  stale i hi key node := by
    have hstale := mt (h.mem_handles_iff i).mp hi
    rw [insertBefore_of_stale h.willing hstale, replace_of_stale h.willing hstale,
      detach_of_stale h.willing hstale, h.base_eq]
    exact ⟨rfl, rfl, rfl⟩
  append key node := ⟨m.next, h.next_notMem, rfl, rfl⟩
  insertBefore front c back hc key node := by
    rw [insertBefore_eq hc h.handles_nodup (by simp [h.willing])]
    exact ⟨m.next, h.next_notMem, rfl, rfl⟩
  replace front c back hc key hkey node := by
    have hid := h.key_eq (by simp [hc]) hkey
    rw [replace_eq hc h.handles_nodup (by simp [h.willing]), hid]
    exact ⟨rfl, rfl⟩
  detach front c back hc := by
    rw [detach_eq hc h.handles_nodup (by simp [h.willing])]
    exact ⟨rfl, rfl⟩
  take front c back key hc hkey hfront := by
    rw [(takeByKey_of_first hc hkey hfront).2]
    exact ⟨rfl, rfl⟩
  take_absent key habsent := (takeByKey_of_absent habsent).2
  clear := rfl

/--
Whatever is asked of a new mount, a handle is given out only once and leads to its child, under the
key that it was given out for, until that child is taken away.
-/
theorem disciplined_run (base : String) (requests : List Request) :
    ((new base).grantAll requests).Disciplined base ((new base).issued requests)
      ((new base).removed requests) :=
  (accounted_grantAll base requests).disciplined

end Mount

end LiveFeed
