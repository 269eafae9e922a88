import RetrySchedule.Plan

namespace RetrySchedule

/-- A plan for retries, which are counted from zero. The cap bounds the seconds to wait; `none`
stands for no cap. -/
structure Backoff where
  plan : Plan
  cap : Argument

namespace Backoff

/-- A cap must be positive; of the kinds that are no number only the absent one is accepted. -/
def checkCap (cap : Argument) : Except Fault Unit :=
  match cap with
  | .none => .ok ()
  | .number bound =>
      if bound.le (.int 0) then .error (.showing bound.write .capRange) else .ok ()
  | _ => .error (.operands .lessOrEqual cap.kind "int")

/-- The cap is checked before the expression is read. -/
def ofExpression (policy : Policy) (cap : Argument) (expression : Argument) : Outcome Backoff := do
  checkCap cap
  return ⟨← Plan.ofArgument policy expression, cap⟩

def ofPlan (cap : Argument) (plan : Plan) : Except Fault Backoff := do
  checkCap cap
  return ⟨plan, cap⟩

def exceeded? (cap : Argument) (seconds : Binary64) : Except Fault (Option Number) :=
  match cap with
  | .none => .ok none
  | .number bound => .ok (if bound.lt (.real seconds) then some bound else none)
  | _ => .error (.operands .greater "float" cap.kind)

def secondsFor (b : Backoff) (retry : Int) : Outcome Number := do
  let wait ← b.plan.waitFor (retry + 1)
  let seconds ← wait.seconds?
  match ← exceeded? b.cap seconds with
  | some bound =>
      Outcome.leave (.capped seconds bound)
      return bound
  | none => return .real seconds

def retryOf : Argument → Except Fault Int
  | .number (.real x) => .error (.attemptKind (Number.real x).kind)
  | .number x => .ok (x.whole?.getD 0)
  | .text _ => .error (.joinedWith "str" "int")
  | .list _ => .error (.joinedWith "list" "int")
  | other => .error (.operands .add other.kind "int")

def spanFor (b : Backoff) (retry : Int) : Outcome Span := do
  Scale.seconds.spanOf (.number (← b.secondsFor retry))

def inspect (b : Backoff) : Except NumeralFault Text := do
  return "ExpressionBackoff(expression=".toList ++ Text.quoted b.plan.expression ++
    ", max_delay=".toList ++ (← b.cap.display) ++ [')']

end Backoff
end RetrySchedule
