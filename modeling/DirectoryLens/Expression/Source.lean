/-
Where the value of an assertion comes from.

* `Deferred`: a value that is asked for when it is needed, and may differ from call to call;
* `CallLog`, `Calling`: the record of such calls, and computations that make them;
* `Source`: a value given at once, or a deferred one;
* `Source.evaluate`: the value of a source;
* `evaluate_literal`: a value given at once makes no call.
-/
import DirectoryLens.Value.Basic

namespace DirectoryLens

/-- A value that is asked for when it is needed: its label, and the answer to each call, counted
from zero. -/
structure Deferred where
  label : Nat
  answer : Nat → Value

/-- The labels of the deferred values that were asked for, the latest first. -/
abbrev CallLog := List Nat

/-- A computation that may ask for deferred values. -/
abbrev Calling := StateM CallLog

/-- Asks for a deferred value. -/
def Deferred.call (d : Deferred) : Calling Value := fun log =>
  (d.answer (log.count d.label), d.label :: log)

/-- Where a value comes from. -/
inductive Source
  | literal (v : Value)
  | deferred (d : Deferred)

namespace Source

/-- The value of a source; a deferred one is asked for. -/
def evaluate : Source → Calling Value
  | .literal v => pure v
  | .deferred d => d.call

/-- The value of a source that has been asked for already or needs no call. -/
def settled? : Source → Option Value
  | .literal v => some v
  | .deferred _ => none

/-- A value given at once makes no call. -/
@[simp] theorem evaluate_literal (v : Value) (log : CallLog) :
    (Source.literal v).evaluate.run log = (v, log) :=
  rfl

/-- A deferred value is asked for once. -/
@[simp] theorem evaluate_deferred (d : Deferred) (log : CallLog) :
    (Source.deferred d).evaluate.run log = (d.answer (log.count d.label), d.label :: log) :=
  rfl

end Source

end DirectoryLens
