namespace LiveFeed

/-- The parts of the page that the feed fills. -/
inductive Region where
  | wallets
  | stages
  | moderations
  | engagements
  | posts
  deriving DecidableEq, Repr

namespace Region

/-- Every region in the order in which the page shows them. -/
def all : List Region := [wallets, stages, moderations, engagements, posts]

/-- The `id` of the element that a region is mounted on. -/
def mountId : Region → String
  | wallets => "wallets"
  | stages => "mystages"
  | moderations => "mymoderation"
  | engagements => "myengagements"
  | posts => "posts"

theorem mem_all (r : Region) : r ∈ all := by cases r <;> decide

end Region

end LiveFeed
