import Mathlib.Data.List.DropRight
import LiveFeed.Proofs.History

namespace LiveFeed

namespace Message

/-- The stage that an event puts into the queue: a moderated one that can be drawn. -/
def queued? : Message → Option Stage
  | newStage s => if s.moderation && !s.caption.isEmpty then some s else none
  | newWalletBalance _ | walletRemoved _ | stageEngaged _ | newStagePost _ _ | stageClosed _
  | openStage _ => none

/-- The engagement that an event lists, if it can be drawn. -/
def engaged? : Message → Option Engagement
  | stageEngaged e => if e.name.isEmpty then none else some e
  | newWalletBalance _ | walletRemoved _ | newStage _ | newStagePost _ _ | stageClosed _
  | openStage _ => none

end Message

namespace Step

def closes (token : String) (s : Step) : Bool := s.message? = some (.stageClosed token)

/-- Whether nothing can stand under the token of a stage after a step. -/
def clears (config : Config) (token : String) (s : Step) : Bool :=
  s.empties config || s.closes token

/-- Whether a step brings a post on a stage. -/
def postsOn (token : String) (s : Step) : Bool :=
  match s.message? with
  | some (.newStagePost stage _) => stage = token
  | _ => false

end Step

/-- How the records of a list count the posts on their stages. -/
structure Counter (R : Type) where
  token : R → String
  /-- The record that an event lists. -/
  listed? : Message → Option R
  count : R → UInt64
  withCount : R → UInt64 → R
  listed?_post : ∀ stage post, listed? (.newStagePost stage post) = none
  listed?_close : ∀ token, listed? (.stageClosed token) = none
  count_withCount : ∀ r n, count (withCount r n) = n
  withCount_withCount : ∀ r m n, withCount (withCount r m) n = withCount r n

def Stage.counter : Counter Stage where
  token := token
  listed? := Message.queued?
  count := count
  withCount s n := { s with count := n }
  listed?_post := fun _ _ => rfl
  listed?_close := fun _ => rfl
  count_withCount := fun _ _ => rfl
  withCount_withCount := fun _ _ _ => rfl

def Engagement.counter : Counter Engagement where
  token := token
  listed? := Message.engaged?
  count := count
  withCount e n := { e with count := n }
  listed?_post := fun _ _ => rfl
  listed?_close := fun _ => rfl
  count_withCount := fun _ _ => rfl
  withCount_withCount := fun _ _ _ => rfl

namespace Counter

variable {R : Type} (C : Counter R) (config : Config) (token : String)

/-- The record that a step lists under a token. -/
def listing? (s : Step) : Option R := (s.message?.bind C.listed?).filter (C.token · = token)

/-- The steps of a run since the token was last taken out of the list. -/
def since (steps : List Step) : List Step := steps.rtakeWhile (!·.clears config token)

/-- The records listed under a token since it was last taken out. -/
def listings (steps : List Step) : List R :=
  (since config token steps).filterMap (C.listing? token)

/--
What a step makes of a count. The first listing gives it, no later one lowers it, and each post
adds one.
-/
def tell (n? : Option Nat) (s : Step) : Option Nat :=
  match C.listing? token s with
  | some r => some (n?.elim (C.count r).toNat (max (C.count r).toNat))
  | none => if s.postsOn token then n?.map (· + 1) else n?

def tally (steps : List Step) : Option Nat :=
  (since config token steps).foldl (C.tell token) none

/--
What the steps of a run leave under a token: the last record listed there, with the count told of
it, or nothing where none was listed.
-/
inductive Accounts (steps : List Step) : Option R → Prop
  | absent (unlisted : C.listings config token steps = []) : Accounts steps none
  | present {r : R} {n : UInt64} (last : (C.listings config token steps).getLast? = some r)
      (counted : C.tally config token steps = some n.toNat) :
      Accounts steps (some (C.withCount r n))

/-- What a step makes of the record under a token. -/
def next (s : Step) (known? : Option R) : Option R :=
  if s.clears config token then none
  else
    match C.listing? token s with
    | some r => some (C.withCount r (known?.elim (C.count r) fun k => max (C.count r) (C.count k)))
    | none => if s.postsOn token then known?.map fun k => C.withCount k (C.count k + 1) else known?

variable {C config token} {steps : List Step} {s : Step}

theorem since_of_clears (h : s.clears config token = true) :
    since config token (steps ++ [s]) = [] := by
  apply List.rtakeWhile_concat_neg
  simp [h]

theorem since_of_not_clears (h : s.clears config token = false) :
    since config token (steps ++ [s]) = since config token steps ++ [s] := by
  apply List.rtakeWhile_concat_pos
  simp [h]

theorem tally_of_unlisted (h : C.listings config token steps = []) :
    C.tally config token steps = none := by
  unfold listings at h
  unfold tally
  generalize since config token steps = recent at h
  induction recent with
  | nil => rfl
  | cons first recent ih =>
    cases hl : C.listing? token first with
    | some r => simp [hl] at h
    | none =>
      rw [List.filterMap_cons_none hl] at h
      have hfirst : C.tell token none first = none := by simp [tell, hl]
      rw [List.foldl_cons, hfirst]
      exact ih h

theorem tally_concat (hc : s.clears config token = false) :
    C.tally config token (steps ++ [s]) = C.tell token (C.tally config token steps) s := by
  rw [tally, since_of_not_clears hc, List.foldl_append]
  rfl

theorem listings_concat (hc : s.clears config token = false) :
    C.listings config token (steps ++ [s]) =
      C.listings config token steps ++ (C.listing? token s).toList := by
  rw [listings, since_of_not_clears hc, List.filterMap_append, listings]
  cases hl : C.listing? token s with
  | none => simp [hl]
  | some r => simp [hl]

theorem Accounts.of_clears (hc : s.clears config token = true) (known? : Option R) :
    C.Accounts config token (steps ++ [s]) (C.next config token s known?) := by
  have hnext : C.next config token s known? = none := by simp [next, hc]
  rw [hnext]
  exact .absent (by rw [listings, since_of_clears hc, List.filterMap_nil])

theorem Accounts.of_listing {known? : Option R} (h : C.Accounts config token steps known?)
    (hc : s.clears config token = false) {r : R} (hl : C.listing? token s = some r) :
    C.Accounts config token (steps ++ [s]) (C.next config token s known?) := by
  have hlast : (C.listings config token (steps ++ [s])).getLast? = some r := by
    rw [listings_concat hc, hl, Option.toList_some, List.getLast?_concat]
  cases h with
  | absent unlisted =>
    have hnext : C.next config token s none = some (C.withCount r (C.count r)) := by
      simp [next, hc, hl]
    rw [hnext]
    refine .present hlast ?_
    rw [tally_concat hc, tally_of_unlisted unlisted]
    simp [tell, hl]
  | @present old n last counted =>
    have hnext : C.next config token s (some (C.withCount old n)) =
        some (C.withCount r (max (C.count r) n)) := by
      simp [next, hc, hl, C.count_withCount]
    rw [hnext]
    refine .present hlast ?_
    rw [tally_concat hc, counted]
    simp [tell, hl, toNat_max]

theorem Accounts.of_post {known? : Option R} (h : C.Accounts config token steps known?)
    (hc : s.clears config token = false) (hl : C.listing? token s = none)
    (hp : s.postsOn token = true) (room : ∀ k ∈ known?, (C.count k).toNat + 1 < 2 ^ 64) :
    C.Accounts config token (steps ++ [s]) (C.next config token s known?) := by
  have hlistings : C.listings config token (steps ++ [s]) = C.listings config token steps := by
    rw [listings_concat hc, hl, Option.toList_none, List.append_nil]
  cases h with
  | absent unlisted =>
    have hnext : C.next config token s none = none := by simp [next, hc, hl]
    rw [hnext]
    exact .absent (hlistings.trans unlisted)
  | @present old n last counted =>
    have hroom := room _ rfl
    rw [C.count_withCount] at hroom
    have hadd : (n + 1).toNat = n.toNat + 1 := by
      rw [UInt64.toNat_add, UInt64.toNat_one]
      exact Nat.mod_eq_of_lt hroom
    have hnext : C.next config token s (some (C.withCount old n)) =
        some (C.withCount old (n + 1)) := by
      simp [next, hc, hl, hp, C.count_withCount, C.withCount_withCount]
    rw [hnext]
    refine .present (hlistings ▸ last) ?_
    rw [tally_concat hc, counted, hadd]
    simp [tell, hl, hp]

theorem Accounts.of_other {known? : Option R} (h : C.Accounts config token steps known?)
    (hc : s.clears config token = false) (hl : C.listing? token s = none)
    (hp : s.postsOn token = false) :
    C.Accounts config token (steps ++ [s]) (C.next config token s known?) := by
  have hlistings : C.listings config token (steps ++ [s]) = C.listings config token steps := by
    rw [listings_concat hc, hl, Option.toList_none, List.append_nil]
  have hnext : C.next config token s known? = known? := by simp [next, hc, hl, hp]
  have htally : C.tally config token (steps ++ [s]) = C.tally config token steps := by
    rw [tally_concat hc]
    simp [tell, hl, hp]
  rw [hnext]
  cases h with
  | absent unlisted => exact .absent (hlistings.trans unlisted)
  | present last counted => exact .present (hlistings ▸ last) (htally.trans counted)

/-- Each step keeps the account, if there is room to count a post that it brings. -/
theorem Accounts.concat {known? : Option R} (h : C.Accounts config token steps known?)
    (room : s.postsOn token = true → ∀ k ∈ known?, (C.count k).toNat + 1 < 2 ^ 64) :
    C.Accounts config token (steps ++ [s]) (C.next config token s known?) := by
  cases hc : s.clears config token with
  | true => exact .of_clears hc known?
  | false =>
    cases hl : C.listing? token s with
    | some r => exact h.of_listing hc hl
    | none =>
      cases hp : s.postsOn token with
      | true => exact h.of_post hc hl hp (room hp)
      | false => exact h.of_other hc hl hp

theorem next_of_empties {known? : Option R} (h : s.empties config = true) :
    C.next config token s known? = none := by
  simp [next, Step.clears, h]

theorem next_of_neither {known? : Option R} (he : s.empties config = false)
    (hm : s.message? = none) : C.next config token s known? = known? := by
  simp [next, Step.clears, Step.closes, Step.postsOn, listing?, he, hm]

theorem next_of_message {known? : Option R} {m : Message} (h : s.message? = some m) :
    C.next config token s known? = C.next config token (.message m) known? := by
  have he : s.empties config = false := Step.empties_of_message h
  have hm : (Step.message m).message? = some m := rfl
  simp only [next, Step.clears, Step.closes, Step.postsOn, listing?, he, h, hm]
  rfl

theorem next_listed {known? : Option R} {m : Message} {r : R} (h : C.listed? m = some r) :
    C.next config token (.message m) known? =
      if C.token r = token then
        some (C.withCount r (known?.elim (C.count r) fun k => max (C.count r) (C.count k)))
      else known? := by
  have hopen : m ≠ .stageClosed token := by
    rintro rfl
    rw [C.listed?_close] at h
    simp at h
  have hpost : (Step.message m).postsOn token = false := by
    cases m with
    | newStagePost stage post =>
      rw [C.listed?_post] at h
      simp at h
    | newWalletBalance _ | walletRemoved _ | newStage _ | stageEngaged _ | stageClosed _
    | openStage _ => rfl
  by_cases ht : C.token r = token
  · simp [next, Step.clears, Step.closes, Step.empties, Step.message?, listing?, hopen, h, ht,
      Option.filter_some]
  · simp [next, Step.clears, Step.closes, Step.empties, Step.message?, listing?, hopen, h, ht,
      hpost, Option.filter_some]

theorem next_post (stage : String) (post : Post) (known? : Option R) :
    C.next config token (.message (.newStagePost stage post)) known? =
      if stage = token then known?.map fun k => C.withCount k (C.count k + 1) else known? := by
  simp [next, Step.clears, Step.closes, Step.empties, Step.message?, Step.postsOn, listing?,
    C.listed?_post]

theorem next_close (stage : String) (known? : Option R) :
    C.next config token (.message (.stageClosed stage)) known? =
      if stage = token then none else known? := by
  simp [next, Step.clears, Step.closes, Step.empties, Step.message?, Step.postsOn, listing?,
    C.listed?_close]

theorem next_unlisted {known? : Option R} {m : Message} (h : C.listed? m = none)
    (hopen : m ≠ .stageClosed token) (hpost : (Step.message m).postsOn token = false) :
    C.next config token (.message m) known? = known? := by
  simp [next, Step.clears, Step.closes, Step.empties, Step.message?, listing?, hopen, h, hpost]

theorem bind_grow {grow : R → Option R}
    (hg : ∀ k, grow k = (increment? (C.count k)).map (C.withCount k)) {known? : Option R}
    (room : ∀ k ∈ known?, (C.count k).toNat ≠ 2 ^ 64 - 1) :
    known?.bind grow = known?.map fun k => C.withCount k (C.count k + 1) := by
  cases known? with
  | none => rfl
  | some k =>
    rw [Option.bind_some, hg, increment?_of_room (room k rfl)]
    rfl

end Counter

end LiveFeed
