import LiveFeed.OrderedList
import LiveFeed.Wire.Schema

namespace LiveFeed

/-- A message on a stage. -/
structure Post where
  token : String
  author : String
  timestamp : String := ""
  content : String
  /-- A class to show the post in, such as `pending`. -/
  status : Option String := none
  /-- Whether the post waits for approval. -/
  moderation : Bool := false
  deriving DecidableEq, Repr

namespace Post

@[reducible] def fields : List Field :=
  [{ name := "token", Content := String, form := Form.text },
    { name := "author", Content := String, form := Form.text },
    { name := "timestamp", Content := String, form := Form.text, default? := some "" },
    { name := "content", Content := String, form := Form.text },
    { name := "status", Content := Option String, form := Form.optionalText, default? := some none,
      omits := Option.isNone },
    { name := "moderation", Content := Bool, form := Form.flag, default? := some false }]

def schema : Schema Post where
  title := "struct Post"
  fields := fields
  ofRow := fun (token, author, timestamp, content, status, moderation, ()) =>
    ⟨token, author, timestamp, content, status, moderation⟩
  toRow p := (p.token, p.author, p.timestamp, p.content, p.status, p.moderation, ())

def className (p : Post) : String :=
  match p.status with
  | some status => "post " ++ status
  | none => "post"

/-- The button that approves a post, for as long as it waits. -/
def approval (p : Post) : List Element :=
  if p.moderation then
    [((Element.paragraph.withClass "approve").withAttribute "data-approve" p.token).withText
      "Approve"]
  else []

def render (p : Post) : Except String Element :=
  .ok <| (Element.div.withClass p.className).withChildren <| [
    (Element.span.withClass "usercaption").withText p.author,
    (Element.span.withClass "timestamp").withText p.timestamp,
    (Element.paragraph.withClass "postcontent").withText p.content] ++ p.approval

/-- Posts keep the order in which they arrive. -/
def layout : Layout Post where
  token := token
  render := render
  precedes _ _ := false

end Post

end LiveFeed
