import LiveFeed.OrderedList
import LiveFeed.Wire.Schema

namespace LiveFeed

/-- A place where posts are published, also as an entry of the moderation queue. -/
structure Stage where
  token : String
  caption : String
  author : String := ""
  /-- Whether posts on the stage wait for approval. -/
  moderation : Bool := false
  /-- The posts seen since the stage was listed. -/
  count : UInt64 := 0
  deriving DecidableEq, Repr

namespace Stage

@[reducible] def fields : List Field :=
  [{ name := "token", Content := String, form := Form.text },
    { name := "caption", Content := String, form := Form.text },
    { name := "author", Content := String, form := Form.text, default? := some "" },
    { name := "moderation", Content := Bool, form := Form.flag, default? := some false },
    { name := "count", Content := UInt64, form := Form.count, default? := some 0 }]

def schema : Schema Stage where
  title := "struct Stage"
  fields := fields
  ofRow := fun (token, caption, author, moderation, count, ()) =>
    ⟨token, caption, author, moderation, count⟩
  toRow s := (s.token, s.caption, s.author, s.moderation, s.count, ())

def render (s : Stage) : Except String Element :=
  if s.caption.isEmpty then .error "stage has no caption"
  else .ok <| (Element.paragraph.withClass "stage").withChildren [
    (Element.span.withClass "stageAuthor").withText (s.author ++ ":"),
    (Element.span.withClass "stageName").withText s.caption,
    (Element.span.withClass "stageCount").withText (toString s.count.toNat)]

/-- Stages are ordered by caption. -/
def layout : Layout Stage where
  token := token
  render := render
  precedes a b := a.caption < b.caption

end Stage

end LiveFeed
