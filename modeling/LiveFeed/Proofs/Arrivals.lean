import LiveFeed.Proofs.Counter

namespace LiveFeed

namespace Step

/-- The stage that a step turns the main view to. -/
def opens? (s : Step) : Option String :=
  match s.message? with
  | some (.openStage token) => some token
  | _ => none

/-- The post that a step brings to the main view while a stage is open. -/
def arrival? (opened? : Option String) (s : Step) : Option Post :=
  match s.message? with
  | some (.newStagePost stage post) => if opened? = some stage then some post else none
  | _ => none

/-- Whether the main view begins anew with a step that meets some stage open. -/
def renews (config : Config) (opened? : Option String) (s : Step) : Bool :=
  s.empties config || s.opens?.isSome || opened?.any (s.closes ·)

/-- The stage that a step leaves open. -/
def openAfter (opened? : Option String) (s : Step) : Option String :=
  s.opens?.or (opened?.filter (!s.closes ·))

/-- What a step that meets some stage open makes of the main view. -/
def turn (config : Config) (opened? : Option String) (s : Step) (posts : OrderedList Post.layout) :
    OrderedList Post.layout :=
  if s.renews config opened? then posts.reset
  else
    match s.arrival? opened? with
    | some post => (posts.upsert post).2
    | none => posts

/-- A step that opens and closes nothing leaves open what is open. -/
theorem openAfter_eq_self {s : Step} (hopens : s.opens? = none)
    (hcloses : ∀ token, s.closes token = false) (opened? : Option String) :
    s.openAfter opened? = opened? := by
  cases opened? with
  | none => simp [openAfter, hopens]
  | some token => simp [openAfter, hopens, hcloses, Option.filter_some]

theorem openAfter_of_not_renews {config : Config} {s : Step} {opened? : Option String}
    (h : s.renews config opened? = false) : s.openAfter opened? = opened? := by
  cases opened? with
  | none =>
    have hopens : s.empties config = false ∧ s.opens? = none := by simpa [renews] using h
    simp [openAfter, hopens.2]
  | some token =>
    have hquiet : s.empties config = false ∧ s.opens? = none ∧ s.closes token = false := by
      simpa [renews, and_assoc] using h
    simp [openAfter, hquiet.2.1, hquiet.2.2, Option.filter_some]

/-- A post arrives while its stage is open, and with it nothing begins anew. -/
theorem of_arrival (config : Config) {s : Step} {opened? : Option String} {post : Post}
    (h : s.arrival? opened? = some post) : s.renews config opened? = false ∧ opened? ≠ none := by
  unfold arrival? at h
  split at h
  next stage _ hm =>
    split at h
    next ho =>
      have he : s.empties config = false := empties_of_message hm
      subst ho
      refine ⟨?_, by simp⟩
      simp [renews, he, opens?, closes, hm]
    next => cases h
  next => cases h

end Step

namespace MainView

variable (config : Config)

/-- The stage that was opened last, or at the start, unless it was closed since. -/
def opened? (steps : List Step) : Option String :=
  ((steps.filterMap Step.opens?).getLast?.or config.views.openStage).filter fun token =>
    !(steps.rtakeWhile (·.opens?.isNone)).any (·.closes token)

/-- Each step of a run with the stage that is open when it comes; `before` came earlier. -/
def moments (before : List Step) : List Step → List (Option String × Step)
  | [] => []
  | s :: steps => (opened? config before, s) :: moments (before ++ [s]) steps

/-- The posts that came to the main view since it last began anew. -/
def arrivals (steps : List Step) : List Post :=
  ((moments config [] steps).rtakeWhile fun (open?, s) => !s.renews config open?).filterMap
    fun (open?, s) => s.arrival? open?

variable {config} {steps : List Step} {s : Step}

theorem moments_concat (before steps : List Step) (s : Step) :
    moments config before (steps ++ [s]) =
      moments config before steps ++ [(opened? config (before ++ steps), s)] := by
  induction steps generalizing before with
  | nil => simp [moments]
  | cons first steps ih =>
    rw [List.cons_append, moments, ih, moments, List.append_assoc]
    rfl

theorem arrivals_of_renews (h : s.renews config (opened? config steps) = true) :
    arrivals config (steps ++ [s]) = [] := by
  rw [arrivals, moments_concat, List.rtakeWhile_concat_neg]
  · rfl
  · simpa using h

theorem arrivals_concat (h : s.renews config (opened? config steps) = false) :
    arrivals config (steps ++ [s]) =
      arrivals config steps ++ (s.arrival? (opened? config steps)).toList := by
  rw [arrivals, moments_concat, List.rtakeWhile_concat_pos, List.filterMap_append, arrivals]
  · cases ha : s.arrival? (opened? config steps) with
    | none => simp [ha]
    | some post => simp [ha]
  · simpa using h

/-- A step opens a stage, closes the open one, or leaves open what is open. -/
theorem opened?_concat (steps : List Step) (s : Step) :
    opened? config (steps ++ [s]) = s.openAfter (opened? config steps) := by
  rw [Step.openAfter]
  cases ho : s.opens? with
  | some token =>
    have hnew : (steps ++ [s]).rtakeWhile (·.opens?.isNone) = [] := by
      apply List.rtakeWhile_concat_neg
      simp [ho]
    simp [opened?, hnew, ho, List.filterMap_append]
  | none =>
    have hold : (steps ++ [s]).rtakeWhile (·.opens?.isNone) =
        steps.rtakeWhile (·.opens?.isNone) ++ [s] := by
      apply List.rtakeWhile_concat_pos
      simp [ho]
    have hlast : (steps ++ [s]).filterMap Step.opens? = steps.filterMap Step.opens? := by
      simp [List.filterMap_append, ho]
    rw [opened?, hold, hlast, Option.none_or, opened?, Option.filter_filter]
    simp [Bool.and_comm]

end MainView

end LiveFeed
