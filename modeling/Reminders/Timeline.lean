/-!
# Systems in time

A system has parts that act as soon as they can and otherwise wait, for one another or for a moment.
Its clock moves only when every part waits, and then to the earliest of the moments waited for.  A
system may act for ever at one moment, so loops are cut off after more turns than a run can need.
-/

namespace Reminders

/-- A system whose parts wait for one another or for moments in time. -/
class Timeline (σ : Type) where
  now : σ → Nat
  /-- Gives every part a turn and tells whether any could do something. -/
  round : σ → Bool × σ
  /-- The earliest moment that a part waits for. -/
  wake? : σ → Option Nat
  /-- Sets the clock. -/
  moveTo : Nat → σ → σ

namespace Timeline

variable {σ : Type} [Timeline σ]

/-- The number of turns after which a loop is cut off. -/
def patience : Nat := 100000000

def settleFor : Nat → σ → σ
  | 0, s => s
  | turns + 1, s =>
    match round s with
    | (true, s) => settleFor turns s
    | (false, s) => s

/-- Lets every part act until all wait. -/
def settle (s : σ) : σ := settleFor patience s

def advanceFor (target : Nat) : Nat → σ → σ
  | 0, s => s
  | turns + 1, s =>
    let s := settle s
    match wake? s with
    | some w => if w < target then advanceFor target turns (moveTo w s) else moveTo target s
    | none => moveTo target s

/-- Lets time pass until `target`.  What happens at that moment is not done yet. -/
def advance (target : Nat) (s : σ) : σ := advanceFor target patience s

/-- An activity that is awaited: it is given turns until it answers. -/
structure Activity (σ α : Type) where
  State : Type
  state : State
  /-- A turn: the answer, or the activity as it goes on. -/
  turn : State → σ → Except State α × σ
  /-- The moment that it waits for. -/
  wake? : State → Option Nat

def awaitFor {α τ : Type} (turn : τ → σ → Except τ α × σ) (activityWake? : τ → Option Nat) :
    Nat → τ → σ → Option α × σ
  | 0, _, s => (none, s)
  | turns + 1, t, s =>
    match turn t s with
    | (.ok a, s) => (some a, s)
    | (.error t, s) =>
      match round s with
      | (true, s) => awaitFor turn activityWake? turns t s
      | (false, s) =>
        match earliest (activityWake? t) (wake? s) with
        | some w => awaitFor turn activityWake? turns t (moveTo w s)
        | none => (none, s)
where
  earliest : Option Nat → Option Nat → Option Nat
    | some a, some b => some (min a b)
    | some a, none => some a
    | none, b => b

/-- Gives an activity turns until it answers, and time to the system while it waits.  There is no
answer if everything waits for ever. -/
def Activity.await {α : Type} (a : Activity σ α) (s : σ) : Option α × σ :=
  awaitFor a.turn a.wake? patience a.state s

end Timeline

end Reminders
