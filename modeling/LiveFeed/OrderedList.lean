import LiveFeed.Mount

namespace LiveFeed

/-- How a list shows its records: what names one, how it is drawn, and what goes before what. -/
structure Layout (R : Type) where
  token : R → String
  /-- The element of a record, or the reason why it has none. -/
  render : R → Except String Element
  precedes : R → R → Bool

inductive ViewError where
  | duplicateToken (token : String)
  | unknownToken (token : String)
  /-- The element drawn for a record is gone from the mount. -/
  | missingMountNode (key : String)
  | render (token reason : String)
  deriving DecidableEq, Repr

def ViewError.message : ViewError → String
  | duplicateToken token => "Duplicate token: " ++ token
  | unknownToken token => "Unknown token: " ++ token
  | missingMountNode key => "Missing mount node: " ++ key
  | render token reason => "Render failed for " ++ token ++ ": " ++ reason

/-- The handles of the children drawn for records, each under the token of its record. -/
structure Nodes where
  entries : List (String × Handle) := []
  deriving DecidableEq, Repr

namespace Nodes

def get? (n : Nodes) (token : String) : Option Handle :=
  (n.entries.find? (·.1 = token)).map (·.2)

def erase (n : Nodes) (token : String) : Nodes := ⟨n.entries.filter (·.1 ≠ token)⟩

def insert (n : Nodes) (token : String) (h : Handle) : Nodes :=
  ⟨(token, h) :: (n.erase token).entries⟩

theorem get?_empty (token : String) : ({} : Nodes).get? token = none := rfl

theorem get?_erase (n : Nodes) (token other : String) :
    (n.erase token).get? other = if other = token then none else n.get? other := by
  unfold erase get?
  induction n.entries with
  | nil => simp
  | cons e entries ih =>
    by_cases he : e.1 = token
    · subst he
      rw [List.filter_cons_of_neg (by simp), ih, List.find?_cons]
      by_cases ho : other = e.1
      · simp [ho]
      · simp [ho, Ne.symm ho]
    · rw [List.filter_cons_of_pos (by simp [he]), List.find?_cons, List.find?_cons]
      by_cases ho : e.1 = other
      · subst ho
        simp [he]
      · simpa [ho] using ih

theorem get?_insert (n : Nodes) (token other : String) (h : Handle) :
    (n.insert token h).get? other = if other = token then some h else n.get? other := by
  have he := get?_erase n token other
  unfold get? insert at *
  rw [List.find?_cons]
  by_cases ho : other = token
  · simp [ho]
  · simpa [ho, Ne.symm ho] using he

end Nodes

/-- A child that a list believes to be attached. -/
structure Anchor where
  handle : Handle
  key : String
  deriving DecidableEq, Repr

inductive Edit where
  | append (key : String) (node : Element)
  | insertBefore (key : String) (node : Element) (before : Anchor)
  | replace (target : Anchor) (node : Element)
  | detach (target : Anchor)
  deriving DecidableEq, Repr

/-- The trace that a change leaves: which mount call was made, on which keys. -/
inductive Call where
  | append (key : String)
  | insertBefore (key before : String)
  | replace (key : String)
  | detach (key : String)
  | clear
  | refused (call : Refusable)
  deriving DecidableEq, Repr

namespace Edit

/-- An element goes before an anchor, or to the end where there is none. -/
def place (key : String) (node : Element) : Option Anchor → Edit
  | none => append key node
  | some before => insertBefore key node before

def call : Edit → Call
  | append key _ => .append key
  | insertBefore key _ before => .insertBefore key before.key
  | replace target _ => .replace target.key
  | detach target => .detach target.key

/-- The kind of a change that can be turned down, and the child that it depends on. -/
def dependence? : Edit → Option (Refusable × Anchor)
  | append _ _ => none
  | insertBefore _ _ before => some (.insertBefore, before)
  | replace target _ => some (.replace, target)
  | detach target => some (.detach, target)

end Edit

namespace Mount

def perform (m : Mount) : Edit → Bool × Mount
  | .append key node => (true, (m.append key node).2)
  | .insertBefore key node before =>
    let (answer, m) := m.insertBefore key node before.handle
    (answer.isOk, m)
  | .replace target node =>
    let (answer, m) := m.replace target.handle node
    (answer.isOk, m)
  | .detach target =>
    let (answer, m) := m.detach target.handle
    (answer.isOk, m)

structure Run where
  mount : Mount
  calls : List Call := []
  /-- The child that the change turned down depends on. -/
  failed : Option Anchor := none

/-- Makes the changes in order and stops at the first that is turned down. -/
def performAll (m : Mount) : List Edit → Run
  | [] => { mount := m }
  | e :: es =>
    let (agreed, m') := m.perform e
    if agreed then
      let run := m'.performAll es
      { run with calls := e.call :: run.calls }
    else
      match e.dependence? with
      | some (call, anchor) => { mount := m', calls := [.refused call], failed := some anchor }
      | none => { mount := m' }

end Mount

structure Answer (α : Type) where
  result : Except ViewError α
  calls : List Call

/-- Records in order, each drawn as a child of a mount. -/
structure OrderedList {R : Type} (layout : Layout R) where
  mount : Mount
  records : List R
  nodes : Nodes

/--
What a scan has found out about a changed record: where it stands, and which place it will have
among the other records.
-/
structure Scan where
  current : Option Nat := none
  target : Option Nat := none
  deriving DecidableEq, Repr

namespace Scan

variable {R : Type}

/--
Looks at the record with that index. In front of its old place a record passes those that it does
not precede, and behind it those that precede it; records of equal rank keep their side. The target
is counted without the record itself.
-/
def step (layout : Layout R) (r : R) (s : Scan) (index : Nat) (existing : R) : Scan :=
  if layout.token existing = layout.token r then { s with current := some index }
  else
    match s.target, s.current with
    | some _, _ => s
    | none, none => if layout.precedes r existing then { s with target := some index } else s
    | none, some _ =>
      if layout.precedes existing r then s else { s with target := some (index - 1) }

def run (layout : Layout R) (r : R) (s : Scan) (index : Nat) : List R → Scan
  | [] => s
  | existing :: records =>
    let s := s.step layout r index existing
    if s.current.isSome && s.target.isSome then s else run layout r s (index + 1) records

end Scan

namespace OrderedList

variable {R : Type} {layout : Layout R}

/-- An empty list over a mount, which loses whatever children it had. -/
def new (layout : Layout R) (mount : Mount) : OrderedList layout := ⟨mount.clear, [], {}⟩

def tokens (l : OrderedList layout) : List String := l.records.map layout.token

def size (l : OrderedList layout) : Nat := l.records.length

def isEmpty (l : OrderedList layout) : Bool := l.records.isEmpty

def get? (l : OrderedList layout) (token : String) : Option R :=
  l.records.find? (layout.token · = token)

def key (l : OrderedList layout) (token : String) : String := l.mount.base ++ "-" ++ token

/-- The child drawn for a token, if the mount still has it. -/
def attached (l : OrderedList layout) (token : String) : Except ViewError Anchor :=
  match (l.nodes.get? token).filter l.mount.contains with
  | some handle => .ok ⟨handle, l.key token⟩
  | none => .error (.missingMountNode (l.key token))

/-- The child that a record has to stand before, if another record follows it. -/
def anchor (l : OrderedList layout) : Option R → Except ViewError (Option Anchor)
  | some next => some <$> l.attached (layout.token next)
  | none => .ok none

def render (layout : Layout R) (r : R) : Except ViewError Element :=
  (layout.render r).mapError (.render (layout.token r))

/-- The changes that an operation needs, and what it stores once they are made. -/
structure Plan (R : Type) where
  edits : List Edit
  records : List R
  nodes : Nodes

def planInsert (l : OrderedList layout) (r : R) : Except ViewError (Plan R) := do
  let token := layout.token r
  if l.tokens.contains token then
    throw (.duplicateToken token)
  let position := l.records.findIdx (layout.precedes r)
  let before ← l.anchor l.records[position]?
  let node ← render layout r
  return {
    edits := [.place (l.key token) node before]
    records := l.records.insertIdx position r
    nodes := l.nodes.insert token l.mount.next }

/-- A known record is drawn anew, in its old place or where its new rank puts it. -/
def planUpdate (l : OrderedList layout) (r : R) : Except ViewError (Plan R) := do
  let token := layout.token r
  let found := Scan.run layout r {} 0 l.records
  match found.current with
  | none => throw (.unknownToken token)
  | some current =>
    let target := found.target.getD (l.records.length - 1)
    let child ← l.attached token
    if target = current then
      let node ← render layout r
      return {
        edits := [.replace child node]
        records := l.records.set current r
        nodes := l.nodes }
    else
      -- the record behind the target, counted with the old place still taken
      let before ← l.anchor l.records[if target < current then target else target + 1]?
      let node ← render layout r
      return {
        edits := [.detach child, .place (l.key token) node before]
        records := (l.records.eraseIdx current).insertIdx target r
        nodes := l.nodes.insert token l.mount.next }

def planRemove (l : OrderedList layout) (token : String) : Except ViewError (R × Plan R) :=
  match l.get? token with
  | none => .error (.unknownToken token)
  | some r => do
    let child ← l.attached token
    return (r, {
      edits := [.detach child]
      records := l.records.eraseP (layout.token · = token)
      nodes := l.nodes.erase token })

/-- Makes the changes of a plan; the records stay as they were if one is turned down. -/
def carryOut (l : OrderedList layout) (plan : Plan R) (value : α) :
    Answer α × OrderedList layout :=
  let run := l.mount.performAll plan.edits
  match run.failed with
  | none => (⟨.ok value, run.calls⟩, ⟨run.mount, plan.records, plan.nodes⟩)
  | some anchor =>
    (⟨.error (.missingMountNode anchor.key), run.calls⟩, { l with mount := run.mount })

def insert (l : OrderedList layout) (r : R) : Answer Unit × OrderedList layout :=
  match l.planInsert r with
  | .error e => (⟨.error e, []⟩, l)
  | .ok plan => l.carryOut plan ()

def update (l : OrderedList layout) (r : R) : Answer Unit × OrderedList layout :=
  match l.planUpdate r with
  | .error e => (⟨.error e, []⟩, l)
  | .ok plan => l.carryOut plan ()

def upsert (l : OrderedList layout) (r : R) : Answer Unit × OrderedList layout :=
  if (l.get? (layout.token r)).isSome then l.update r else l.insert r

def remove (l : OrderedList layout) (token : String) : Answer R × OrderedList layout :=
  match l.planRemove token with
  | .error e => (⟨.error e, []⟩, l)
  | .ok (r, plan) => l.carryOut plan r

def reset (l : OrderedList layout) : OrderedList layout := ⟨l.mount.clear, [], {}⟩

def toHtml (l : OrderedList layout) : String := l.mount.toHtml

end OrderedList

end LiveFeed
