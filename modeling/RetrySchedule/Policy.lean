import RetrySchedule.Fault

namespace RetrySchedule

/-- Whether a marker on a term that others follow is an error, or is ignored. -/
structure Policy where
  strict : Bool := true
  deriving DecidableEq, Repr

namespace Policy

def optionName : Text := "strict_unbounded".toList

def ofArgument : Argument → Except Fault Policy
  | .number (.flag strict) => .ok ⟨strict⟩
  | other => .error (.flagKind other.kind)

def reservedName : Text := "self".toList

/-- The policy with some options replaced; absent values replace nothing. Names are looked at
before values. -/
def revise (policy : Policy) (options : List (Text × Argument)) : Except Fault Policy := do
  if options.any fun (name, _) => name == reservedName then throw (.reservedOption reservedName)
  let given := options.filter fun (_, value) => match value with | .none => false | _ => true
  match given.find? fun (name, _) => name != optionName with
  | some (name, _) => throw (.unknownOption name)
  | none =>
      match given.getLast? with
      | some (_, value) => ofArgument value
      | none => return policy

def inspect (policy : Policy) : Text :=
  "ParserConfig(strict_unbounded=".toList ++ (if policy.strict then "True)" else "False)").toList

end Policy
end RetrySchedule
