import RetrySchedule.Fault

namespace RetrySchedule

inductive Complaint
  | general (details : List Argument)
  | malformed (subject message : Argument)
  | blank (subject : Argument)
  | exhausted (budget attempt : Argument)

inductive Family
  | any
  | malformed
  | blank
  | exhausted
  | badValue
  | badState
  deriving DecidableEq, Repr

namespace Complaint

def ofMalformed : List Argument → Except Fault Complaint
  | [] => .error (.missingArguments "FormatError" ["text"])
  | [subject] => .ok (.malformed subject .none)
  | [subject, message] => .ok (.malformed subject message)
  | more => .error (.extraArguments "FormatError" 2 3 (more.length + 1))

def ofBlank : List Argument → Except Fault Complaint
  | [] => .ok (.blank (.text []))
  | [subject] => .ok (.blank subject)
  | more => .error (.extraArguments "EmptyExpressionError" 1 2 (more.length + 1))

def ofExhausted : List Argument → Except Fault Complaint
  | [] => .error (.missingArguments "CalculationError" ["budget", "invocation"])
  | [_] => .error (.missingArguments "CalculationError" ["invocation"])
  | [budget, attempt] => .ok (.exhausted budget attempt)
  | more => .error (.extraArguments "CalculationError" 3 3 (more.length + 1))

/-- The text of a complaint. A message that is empty or zero counts as absent. -/
def message : Complaint → Except NumeralFault String
  | general [] => .ok ""
  | general [detail] => detail.display.map String.ofList
  | general details => (Argument.inspectAll details).map fun shown =>
      String.ofList (Argument.listed '(' ')' shown)
  | malformed subject message =>
      if message.isVoid then subject.inspect.map ReadingFault.malformedMessage
      else message.display.map String.ofList
  | blank _ => .ok ReadingFault.blankMessage
  | exhausted budget attempt => do
      return Fault.exhaustedMessage (← budget.display) (← attempt.display)

def families : Complaint → List Family
  | general _ => [.any]
  | malformed _ _ => [.any, .malformed, .badValue]
  | blank _ => [.any, .malformed, .blank, .badValue]
  | exhausted _ _ => [.any, .exhausted, .badState]

end Complaint
end RetrySchedule
