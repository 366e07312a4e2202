import Pseudocode.State

/-!
# Loops

The three loops of the language, for any condition and body. A loop is given a
number of passes and is unfinished if they are not enough, so every definition
here ends. A loop that ends with some number of passes ends in the same way with
any larger number.

A counting loop takes its counter from its bounds alone. It writes the counter to
its variable before each pass, and what the body does to the variable has no
effect on the counter. It also ends when the counter would leave the range of
the integers.
-/

set_option autoImplicit false

namespace Pseudocode.Loop

variable [Memory] [Writer]

/-- Runs the body as long as the test holds. -/
def whileHolds (test : Run Bool) (body : Run Unit) : Nat → State → Outcome Unit
  | 0, state => .error .unfinished state
  | passes + 1, state =>
    match test state with
    | .error stop state => .error stop state
    | .ok false state => .ok () state
    | .ok true state =>
      match body state with
      | .error stop state => .error stop state
      | .ok _ state => whileHolds test body passes state

/-- Runs the body until the test holds after it. -/
def untilHolds (test : Run Bool) (body : Run Unit) : Nat → State → Outcome Unit
  | 0, state => .error .unfinished state
  | passes + 1, state =>
    match body state with
    | .error stop state => .error stop state
    | .ok _ state =>
      match test state with
      | .error stop state => .error stop state
      | .ok true state => .ok () state
      | .ok false state => untilHolds test body passes state

/-- Runs the body with the variable at the counter, as long as the counter is
not above the last value. -/
def counting (name : String) (last step : Integer) (body : Run Unit) :
    Nat → Integer → State → Outcome Unit
  | 0, _, state => .error .unfinished state
  | passes + 1, counter, state =>
    if counter.val ≤ last.val then
      match Run.assign name (.integer counter) state with
      | .error stop state => .error stop state
      | .ok _ state =>
        match body state with
        | .error stop state => .error stop state
        | .ok _ state =>
          match counter.add? step with
          | some next => counting name last step body passes next state
          | none => .ok () state
    else .ok () state

end Pseudocode.Loop
