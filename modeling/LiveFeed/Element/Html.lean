import LiveFeed.Element

namespace LiveFeed

namespace Html

/-- The entity that stands for a character with a meaning of its own in markup. -/
def entity? (c : Char) : Option String :=
  match c with
  | '&' => some "&amp;"
  | '<' => some "&lt;"
  | '>' => some "&gt;"
  | '"' => some "&quot;"
  | '\'' => some "&#39;"
  | _ => none

def escapeChar (c : Char) : List Char :=
  match entity? c with
  | some entity => entity.toList
  | none => [c]

def escape (text : List Char) : List Char := text.flatMap escapeChar

/-- One attribute, with the blank that sets it off from what stands before. -/
def writeAttribute (name value : String) : List Char :=
  ' ' :: name.toList ++ '=' :: '"' :: escape value.toList ++ ['"']

end Html

namespace Tag

/-- Every attribute in the order in which it is written: class, id, then the others. -/
def written (tag : Tag) : List (String × String) :=
  (tag.className.map ("class", ·)).toList ++ (tag.id.map ("id", ·)).toList ++ tag.attributes

def opening (tag : Tag) : List Char :=
  '<' :: tag.name.toList
    ++ tag.written.flatMap (fun (name, value) => Html.writeAttribute name value) ++ ['>']

def closing (tag : Tag) : List Char :=
  '<' :: '/' :: tag.name.toList ++ ['>']

end Tag

namespace Element

mutual

/-- The markup of an element; every element has a closing tag. -/
def html : Element → List Char
  | leaf tag text => tag.opening ++ Html.escape text.toList ++ tag.closing
  | branch tag children => tag.opening ++ htmlOfAll children ++ tag.closing

def htmlOfAll : List Element → List Char
  | [] => []
  | e :: es => e.html ++ htmlOfAll es

end

def toHtml (e : Element) : String := String.ofList e.html

end Element

instance : ToString Element := ⟨Element.toHtml⟩

end LiveFeed
