namespace LiveFeed

inductive SortOrder where
  | ascending
  | descending
  deriving DecidableEq, Repr

namespace SortOrder

def name : SortOrder → String
  | ascending => "ascending"
  | descending => "descending"

/-- The order of exactly that name. -/
def ofName? (name : String) : Option SortOrder :=
  if name = "ascending" then some ascending
  else if name = "descending" then some descending
  else none

/-- The order that a word stands for; it may be short, and its letters large or small. -/
def parse? (word : String) : Option SortOrder :=
  let word := word.toLower
  if word = "ascending" || word = "asc" then some ascending
  else if word = "descending" || word = "desc" then some descending
  else none

end SortOrder

end LiveFeed
