/-!
# `CatalogOperator.Activity`: computations that may be suspended

An activity works on a shared state. It either finishes, or it goes to sleep for some seconds and is
resumed later on whatever the state has become by then. A sleeping activity may also be cancelled,
which it learns on being resumed.

* `Run`: what an activity does from a given state on. `Activity` is a computation from any state.
* `Activity.bind`: two activities in sequence. `Activity.bind_assoc` and the two unit laws hold.
* `Activity.within`: an activity under a deadline. The first sleep that reaches the deadline is cut
  short there and the activity is cancelled; whether that happened is part of the result.
* `Activity.zoom`: an activity on a part of a larger state.
-/

set_option autoImplicit false

namespace CatalogOperator

/-- The time that a sleep of some seconds takes, none if their number is negative. -/
def sleepTime (seconds : Rat) : Rat :=
  if seconds ≤ 0 then 0 else seconds

/-- Why a sleeping activity is resumed. -/
inductive Wake where
  | elapsed
  | cancelled
  deriving DecidableEq, Repr, Inhabited

/-- What an activity does: it finishes with a state and a result, or it sleeps from a state on for a
number of seconds. -/
inductive Run (σ α : Type) where
  | finished (state : σ) (result : α)
  | asleep (state : σ) (seconds : Rat) (resume : Wake → σ → Run σ α)

/-- A computation that may be suspended. -/
def Activity (σ α : Type) : Type :=
  σ → Run σ α

namespace Run

variable {σ τ α β γ : Type}

/-- A run followed by an activity that depends on its result. -/
def bind : Run σ α → (α → Activity σ β) → Run σ β
  | finished s a, f => f a s
  | asleep s d resume, f => asleep s d fun w s' => bind (resume w s') f

/-- Three runs in a row do not depend on how they are taken together. -/
theorem bind_assoc (r : Run σ α) (f : α → Activity σ β) (g : β → Activity σ γ) :
    (r.bind f).bind g = r.bind fun a s => (f a s).bind g := by
  induction r with
  | finished s a => rfl
  | asleep s d resume ih =>
    simp only [bind]
    congr
    funext w s'
    exact ih w s'

/-- A run that goes on with nothing is the run itself. -/
theorem bind_finished (r : Run σ α) : r.bind (fun a s => finished s a) = r := by
  induction r with
  | finished s a => rfl
  | asleep s d resume ih =>
    simp only [bind]
    congr
    funext w s'
    exact ih w s'

/-- A run on a part of a larger state. -/
def zoom (get : τ → σ) (set : σ → τ → τ) (whole : τ) : Run σ α → Run τ α
  | finished s a => finished (set s whole) a
  | asleep s d resume =>
    asleep (set s whole) d fun w whole' => zoom get set whole' (resume w (get whole'))

/-- A run with the given number of seconds left. The result tells whether they were used up. -/
def within (left : Option Rat) : Run σ α → Run σ (α × Bool)
  | finished s a => finished s (a, false)
  | asleep s d resume =>
    match left with
    | none => asleep s d fun w s' => within none (resume w s')
    | some l =>
      if l ≤ sleepTime d then
        asleep s (sleepTime l) fun w s' =>
          match w with
          | .elapsed => (resume .cancelled s').bind fun a s'' => finished s'' (a, true)
          | .cancelled => within none (resume .cancelled s')
      else asleep s d fun w s' => within (some (l - sleepTime d)) (resume w s')

end Run

namespace Activity

variable {σ τ α β γ : Type}

/-- The activity that finishes at once. -/
def pure (a : α) : Activity σ α :=
  fun s => .finished s a

/-- Two activities in sequence. -/
def bind (p : Activity σ α) (f : α → Activity σ β) : Activity σ β :=
  fun s => (p s).bind f

instance : Monad (Activity σ) where
  pure := Activity.pure
  bind := Activity.bind

/-- A step that never sleeps. -/
def step (f : σ → σ × α) : Activity σ α :=
  fun s => .finished (f s).1 (f s).2

/-- A look at the state. -/
def read (f : σ → α) : Activity σ α :=
  fun s => .finished s (f s)

/-- Sleeps for some seconds and tells why it was resumed. -/
def sleep (seconds : Rat) : Activity σ Wake :=
  fun s => .asleep s seconds fun w s' => .finished s' w

/-- An activity under a deadline. -/
def within (limit : Option Rat) (p : Activity σ α) : Activity σ (α × Bool) :=
  fun s => (p s).within limit

/-- An activity on a part of a larger state. -/
def zoom (get : τ → σ) (set : σ → τ → τ) (p : Activity σ α) : Activity τ α :=
  fun whole => (p (get whole)).zoom get set whole

/-- An activity that is done at once leaves what follows. -/
theorem pure_bind (a : α) (f : α → Activity σ β) : bind (pure a) f = f a :=
  rfl

/-- An activity that goes on with nothing is the activity itself. -/
theorem bind_pure (p : Activity σ α) : bind p pure = p :=
  funext fun s => Run.bind_finished (p s)

/-- Three activities in a row do not depend on how they are taken together. -/
theorem bind_assoc (p : Activity σ α) (f : α → Activity σ β) (g : β → Activity σ γ) :
    bind (bind p f) g = bind p fun a => bind (f a) g :=
  funext fun s => Run.bind_assoc (p s) f g

end Activity

end CatalogOperator
