import RetrySchedule.Reading
import RetrySchedule.Selection

namespace RetrySchedule

structure Plan where
  expression : Text
  schedule : Schedule
  deriving DecidableEq

namespace Plan

def read (policy : Policy) (expression : Text) : Outcome Plan := do
  return ⟨expression, ← Schedule.read policy expression⟩

/-- Reads an argument of any kind: one that is empty or zero is blank, and any other that is not a
text is refused. -/
def ofArgument (policy : Policy) : Argument → Outcome Plan
  | .text expression => read policy expression
  | other =>
      Outcome.fail (if other.isVoid then .blankArgument other else .notAnExpression other.kind)

/-- The number of attempts that are covered, or nothing if there is no end. -/
def maxAttempts (plan : Plan) : Option Nat :=
  if plan.schedule.hasOpenEnd then none else some plan.schedule.budget

def waitFor (plan : Plan) (attempt : Int) : Outcome Wait :=
  plan.schedule.waitFor attempt

def dueAfter (plan : Plan) (attempt : Int) (start : Instant) : Outcome Instant := do
  (← plan.waitFor attempt).after start

def inspect (plan : Plan) : Text :=
  "DelayExpression(".toList ++ Text.quoted plan.expression ++ [')']

end Plan
end RetrySchedule
