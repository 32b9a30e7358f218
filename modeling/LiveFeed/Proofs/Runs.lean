import LiveFeed.OrderedList

namespace LiveFeed

variable {R : Type} {layout : Layout R}

/-- What the owner of a list asks of it. -/
inductive Operation (R : Type) where
  | insert (r : R)
  | update (r : R)
  | remove (token : String)
  | reset

/-- What others do to the mount of a list. -/
inductive Interference where
  | take (key : String)
  | attach (key : String) (node : Element)
  | refuse (call : Refusable)

inductive Event (R : Type) where
  | asked (op : Operation R)
  | disturbed (i : Interference)

namespace OrderedList

def apply (l : OrderedList layout) : Operation R → OrderedList layout
  | .insert r => (l.insert r).2
  | .update r => (l.update r).2
  | .remove token => (l.remove token).2
  | .reset => l.reset

def run (l : OrderedList layout) (ops : List (Operation R)) : OrderedList layout :=
  ops.foldl apply l

def disturb (l : OrderedList layout) : Interference → OrderedList layout
  | .take key => { l with mount := (l.mount.takeByKey key).2 }
  | .attach key node => { l with mount := (l.mount.append key node).2 }
  | .refuse call => { l with mount := l.mount.refuse call }

def meet (l : OrderedList layout) : Event R → OrderedList layout
  | .asked op => l.apply op
  | .disturbed i => l.disturb i

def live (l : OrderedList layout) (events : List (Event R)) : OrderedList layout :=
  events.foldl meet l

/-- What every operation keeps, every run keeps. -/
theorem run_keeps {P : OrderedList layout → Prop} (step : ∀ l op, P l → P (l.apply op))
    {l : OrderedList layout} (h : P l) (ops : List (Operation R)) : P (l.run ops) := by
  induction ops generalizing l with
  | nil => exact h
  | cons op ops ih => exact ih (step l op h)

theorem live_keeps {P : OrderedList layout → Prop} (step : ∀ l e, P l → P (l.meet e))
    {l : OrderedList layout} (h : P l) (events : List (Event R)) : P (l.live events) := by
  induction events generalizing l with
  | nil => exact h
  | cons e events ih => exact ih (step l e h)

end OrderedList

end LiveFeed
