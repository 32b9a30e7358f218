import LiveFeed.Element.Html

namespace LiveFeed

/-- Names a child of a mount for as long as it is attached; a number is given out only once. -/
abbrev Handle := Nat

structure Child where
  handle : Handle
  element : Element
  deriving DecidableEq, Repr

inductive Refusable where
  | insertBefore
  | replace
  | detach
  deriving DecidableEq, Repr

/-- A container element whose children carry a key, their `id`, and a handle. -/
structure Mount where
  base : String
  children : List Child := []
  next : Handle := 0
  /-- A call that will be turned down once, whatever it asks for. -/
  refusing : Option Refusable := none
  deriving DecidableEq, Repr

/-- The handle names no child, or the mount turned the call down. -/
structure NotAttached where
  base : String
  deriving DecidableEq, Repr

def NotAttached.message (e : NotAttached) : String :=
  "Node is not attached to mount " ++ e.base

namespace Mount

def new (base : String) : Mount := { base }

def size (m : Mount) : Nat := m.children.length

def isEmpty (m : Mount) : Bool := m.children.isEmpty

def elements (m : Mount) : List Element := m.children.map (·.element)

def handles (m : Mount) : List Handle := m.children.map (·.handle)

def keys (m : Mount) : List String := m.elements.filterMap (·.tag.id)

def contains (m : Mount) (h : Handle) : Bool := m.handles.contains h

def get? (m : Mount) (h : Handle) : Option Element :=
  (m.children.find? (·.handle = h)).map (·.element)

def childByKey? (m : Mount) (key : String) : Option Element :=
  m.elements.find? (·.tag.id = some key)

/-- Takes the first child with that key away without asking its owner. -/
def takeByKey (m : Mount) (key : String) : Option Element × Mount :=
  (m.childByKey? key,
    { m with children := m.children.eraseP (·.element.tag.id = some key) })

/-- Turns down the next call of that kind; an earlier request of this sort lapses. -/
def refuse (m : Mount) (call : Refusable) : Mount := { m with refusing := some call }

/-- Runs a call unless it is to be turned down, which uses the refusal up. -/
def unlessRefused (m : Mount) (call : Refusable) (run : Except NotAttached α × Mount) :
    Except NotAttached α × Mount :=
  if m.refusing = some call then (.error ⟨m.base⟩, { m with refusing := none }) else run

def append (m : Mount) (key : String) (node : Element) : Handle × Mount :=
  (m.next,
    { m with
      children := m.children ++ [⟨m.next, node.withId key⟩]
      next := m.next + 1 })

def insertBefore (m : Mount) (key : String) (node : Element) (before : Handle) :
    Except NotAttached Handle × Mount :=
  m.unlessRefused .insertBefore <|
    if m.contains before then
      (.ok m.next,
        { m with
          children := m.children.takeWhile (·.handle ≠ before) ++
            ⟨m.next, node.withId key⟩ :: m.children.dropWhile (·.handle ≠ before)
          next := m.next + 1 })
    else (.error ⟨m.base⟩, m)

/-- Exchanges the element of a child, which keeps its place, handle and key. -/
def replace (m : Mount) (h : Handle) (node : Element) : Except NotAttached Unit × Mount :=
  m.unlessRefused .replace <|
    if m.contains h then
      (.ok (),
        { m with
          children := m.children.map fun c =>
            if c.handle = h then
              { c with element := node.withId (c.element.tag.id.getD "") }
            else c })
    else (.error ⟨m.base⟩, m)

def detach (m : Mount) (h : Handle) : Except NotAttached Element × Mount :=
  m.unlessRefused .detach <|
    match m.get? h with
    | some element => (.ok element, { m with children := m.children.eraseP (·.handle = h) })
    | none => (.error ⟨m.base⟩, m)

def clear (m : Mount) : Mount := { m with children := [] }

def toElement (m : Mount) : Element := (Element.div.withId m.base).withChildren m.elements

def toHtml (m : Mount) : String := m.toElement.toHtml

end Mount

end LiveFeed
