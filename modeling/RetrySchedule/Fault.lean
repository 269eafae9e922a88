import RetrySchedule.Argument

namespace RetrySchedule

inductive ReadingFault
  | blank (expression : Text)
  | outline (expression : Text)
  | emptyTerm
  | repeatCount (term rate : Text)
  | noScale (term : Text)
  | malformedTerm (term : Text) (cause : Option NumeralFault)
  | misplacedMarker (term expression : Text)
  deriving DecidableEq, Repr

inductive Operation
  | add
  | multiply
  | divide
  | less
  | lessOrEqual
  | greater
  deriving DecidableEq, Repr

inductive Fault
  | numeral (fault : NumeralFault)
  | reading (fault : ReadingFault)
  | blankArgument (given : Argument)
  | notAnExpression (kind : String)
  | exhausted (budget : Number) (attempt : Int)
  | attemptKind (kind : String)
  | attemptBelowOne (attempt : Int)
  | flagKind (kind : String)
  | unknownOption (name : Text)
  | reservedOption (name : Text)
  | fixedField (name : Text)
  | unknownScale (shown : Text)
  | unknownExtent (shown : Text)
  | magnitudeRange (magnitude : Text)
  | countRange (count : Text)
  | unhashable (kind : String)
  | noTiers
  | openBeforeEnd (position : Nat) (tier : Text) (followers : Nat)
  | indexKind (kind : String)
  | indexWidth
  | indexRange
  | zeroStride
  | capRange (cap : Text)
  | operands (operation : Operation) (left right : String)
  | joinedWith (left right : String)
  | spanKind (component kind : String)
  | spanDays (days : Int)
  | spanWidth
  | infiniteSpan
  | undefinedSpan
  | secondsRange
  | realRange
  | dateRange
  | missingArguments (callee : String) (names : List String)
  | extraArguments (callee : String) (least most given : Nat)

namespace Operation

def symbol : Operation → String
  | add => "+"
  | multiply => "*"
  | divide => "/"
  | less => "<"
  | lessOrEqual => "<="
  | greater => ">"

def isComparison : Operation → Bool
  | less | lessOrEqual | greater => true
  | _ => false

end Operation

namespace ReadingFault

def subject : ReadingFault → Text
  | blank expression => expression
  | outline expression => expression
  | emptyTerm => []
  | repeatCount term _ => term
  | noScale term => term
  | malformedTerm term _ => term
  | misplacedMarker term _ => term

def cause? : ReadingFault → Option NumeralFault
  | malformedTerm _ cause => cause
  | _ => none

def blankMessage : String :=
  "expression must not be blank"

def malformedMessage (subject : Text) : String :=
  String.ofList subject ++ " is not a valid delay term"

def message : ReadingFault → String
  | blank _ => blankMessage
  | outline expression =>
      String.ofList (Text.quoted expression) ++ " is not a valid delay expression"
  | emptyTerm => "expression contains an empty term"
  | repeatCount term rate =>
      String.ofList (Text.quoted term) ++ " has an invalid repeat count " ++
        String.ofList (Text.quoted rate)
  | noScale term => String.ofList (Text.quoted term) ++ " has no valid time unit suffix"
  | malformedTerm term _ => malformedMessage (Text.quoted term)
  | misplacedMarker term expression =>
      String.ofList (Text.quoted term) ++ " is unbounded but is not the last term of " ++
        String.ofList (Text.quoted expression)

end ReadingFault

namespace Fault

/-- A fault whose message states a number is raised only if the number can be written. -/
def stating (x : Number) (fault : Fault) : Fault :=
  if x.fits then fault else .numeral .tooLongToWrite

def ofNumeral {α : Type} (result : Except NumeralFault α) : Except Fault α :=
  result.mapError numeral

def showing (shown : Except NumeralFault Text) (fault : Text → Fault) : Fault :=
  match shown with
  | .ok text => fault text
  | .error refused => .numeral refused

def exhaustedMessage (budget attempt : Text) : String :=
  "invocation " ++ String.ofList attempt ++ " exceeds the expression budget of " ++
    String.ofList budget ++ " invocations"

def joinNames : List String → String
  | [] => ""
  | [name] => s!"'{name}'"
  | [name, last] => s!"'{name}' and '{last}'"
  | name :: rest => s!"'{name}', " ++ joinNames rest

def message : Fault → String
  | numeral fault => fault.message
  | reading fault => fault.message
  | blankArgument _ => ReadingFault.blankMessage
  | notAnExpression kind => s!"'{kind}' object has no attribute 'isspace'"
  | exhausted budget attempt => exhaustedMessage budget.text (Numeral.ofInt attempt)
  | attemptKind kind => s!"invocation must be an int, got {kind}"
  | attemptBelowOne attempt =>
      "invocation must be >= 1, got " ++ String.ofList (Numeral.ofInt attempt)
  | flagKind kind => s!"strict_unbounded must be a bool, got {kind}"
  | unknownOption name =>
      "ParserConfig.__init__() got an unexpected keyword argument '" ++ String.ofList name ++ "'"
  | reservedOption name =>
      "ParserConfig.merge() got multiple values for argument '" ++ String.ofList name ++ "'"
  | fixedField name => "cannot assign to field " ++ String.ofList (Text.quoted name)
  | unknownScale shown => String.ofList shown ++ " is not a valid TimeUnit"
  | unknownExtent shown => String.ofList shown ++ " is not a valid RateStrategy"
  | magnitudeRange magnitude => "magnitude must be >= 0, got " ++ String.ofList magnitude
  | countRange count => "repeat_count must be >= 1, got " ++ String.ofList count
  | unhashable kind => s!"unhashable type: '{kind}'"
  | noTiers => "a tier sequence needs at least one tier"
  | openBeforeEnd position tier followers =>
      s!"only the last tier may be unbounded, but tier {position} (" ++ String.ofList tier ++
        s!") is followed by {followers} other tier(s)"
  | indexKind kind => s!"tuple indices must be integers or slices, not {kind}"
  | indexWidth => "cannot fit 'int' into an index-sized integer"
  | indexRange => "tuple index out of range"
  | zeroStride => "slice step cannot be zero"
  | capRange cap => "max_delay must be positive if specified, got " ++ String.ofList cap
  | operands operation left right =>
      if operation.isComparison then
        "'" ++ operation.symbol ++ "' not supported between instances of '" ++ left ++ "' and '" ++
          right ++ "'"
      else
        "unsupported operand type(s) for " ++ operation.symbol ++ ": '" ++ left ++ "' and '" ++
          right ++ "'"
  | joinedWith left right => s!"can only concatenate {left} (not \"{right}\") to {left}"
  | spanKind component kind => s!"unsupported type for timedelta {component} component: {kind}"
  | spanDays days => s!"days={days}; must have magnitude <= 999999999"
  | spanWidth => "Python int too large to convert to C int"
  | infiniteSpan => "cannot convert float infinity to integer"
  | undefinedSpan => "cannot convert float NaN to integer"
  | secondsRange => "integer division result too large for a float"
  | realRange => "int too large to convert to float"
  | dateRange => "date value out of range"
  | missingArguments callee names =>
      let count := names.length
      let plural := if count = 1 then "" else "s"
      s!"{callee}.__init__() missing {count} required positional argument{plural}: " ++
        joinNames names
  | extraArguments callee least most given =>
      let expected := if least = most then s!"{most}" else s!"from {least} to {most}"
      s!"{callee}.__init__() takes {expected} positional arguments but {given} were given"

end Fault
end RetrySchedule
