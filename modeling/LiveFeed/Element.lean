namespace LiveFeed

/-- What stands between the angle brackets of an element. -/
structure Tag where
  name : String
  className : Option String := none
  id : Option String := none
  attributes : List (String × String) := []
  deriving DecidableEq, Repr

/-- A rendered element holds either text or child elements, never both. -/
inductive Element where
  | leaf (tag : Tag) (text : String)
  | branch (tag : Tag) (children : List Element)
  deriving Repr

namespace Element

def tag : Element → Tag
  | leaf tag _ => tag
  | branch tag _ => tag

def children : Element → List Element
  | leaf _ _ => []
  | branch _ children => children

def withTag (e : Element) (tag : Tag) : Element :=
  match e with
  | leaf _ text => leaf tag text
  | branch _ children => branch tag children

def empty (name : String) : Element := branch { name } []

def div : Element := empty "div"

def span : Element := empty "span"

def paragraph : Element := empty "p"

/-- Sets the class list; the empty list of classes is no class at all. -/
def withClass (e : Element) (className : String) : Element :=
  e.withTag { e.tag with className := if className.isEmpty then none else some className }

def withId (e : Element) (id : String) : Element :=
  e.withTag { e.tag with id := some id }

@[simp] theorem id_withId (e : Element) (id : String) : (e.withId id).tag.id = some id := by
  cases e <;> rfl

def withAttribute (e : Element) (name value : String) : Element :=
  e.withTag { e.tag with attributes := e.tag.attributes ++ [(name, value)] }

def withText (e : Element) (text : String) : Element := leaf e.tag text

/-- Adds child elements at the end; a text held before is dropped. -/
def withChildren (e : Element) (children : List Element) : Element :=
  branch e.tag (e.children ++ children)

def withChild (e : Element) (child : Element) : Element := e.withChildren [child]

/-- The value of the first attribute of that name, class and id left aside. -/
def attribute? (e : Element) (name : String) : Option String :=
  (e.tag.attributes.find? (·.1 = name)).map (·.2)

mutual

def textContent : Element → String
  | leaf _ text => text
  | branch _ children => textOfAll children

def textOfAll : List Element → String
  | [] => ""
  | e :: es => e.textContent ++ textOfAll es

end

mutual

def decEq : (a b : Element) → Decidable (a = b)
  | leaf s x, leaf t y => decidable_of_iff (s = t ∧ x = y) (by simp)
  | branch s xs, branch t ys =>
    have : Decidable (xs = ys) := decEqAll xs ys
    decidable_of_iff (s = t ∧ xs = ys) (by simp)
  | leaf .., branch .. => isFalse nofun
  | branch .., leaf .. => isFalse nofun

def decEqAll : (as bs : List Element) → Decidable (as = bs)
  | [], [] => isTrue rfl
  | a :: as, b :: bs =>
    have : Decidable (a = b) := a.decEq b
    have : Decidable (as = bs) := decEqAll as bs
    decidable_of_iff (a = b ∧ as = bs) (by simp)
  | [], _ :: _ => isFalse nofun
  | _ :: _, [] => isFalse nofun

end

instance : DecidableEq Element := decEq

end Element

end LiveFeed
