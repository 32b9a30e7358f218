import LiveFeed.OrderedList
import LiveFeed.Wire.Schema

namespace LiveFeed

/-- A stage that the user takes part in; the token is that of the stage. -/
structure Engagement where
  token : String
  name : String
  count : UInt64 := 0
  deriving DecidableEq, Repr

namespace Engagement

@[reducible] def fields : List Field :=
  [{ name := "token", Content := String, form := Form.text },
    { name := "name", Content := String, form := Form.text },
    { name := "count", Content := UInt64, form := Form.count, default? := some 0 }]

def schema : Schema Engagement where
  title := "struct Engagement"
  fields := fields
  ofRow := fun (token, name, count, ()) => ⟨token, name, count⟩
  toRow e := (e.token, e.name, e.count, ())

def render (e : Engagement) : Except String Element :=
  if e.name.isEmpty then .error "engagement has no name"
  else .ok <| (Element.paragraph.withClass "engagement").withChildren [
    (Element.span.withClass "engagementName").withText e.name,
    (Element.span.withClass "engagementCount").withText (toString e.count.toNat)]

/-- Engagements are ordered by name. -/
def layout : Layout Engagement where
  token := token
  render := render
  precedes a b := a.name < b.name

end Engagement

end LiveFeed
