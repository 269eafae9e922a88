import RetrySchedule.Span

namespace RetrySchedule

inductive Scale
  | milliseconds
  | seconds
  | minutes
  | hours
  | days
  deriving DecidableEq, Repr

namespace Scale

/-- The order in which a suffix is looked up: `ms` stands before `s`, which ends it. -/
def all : List Scale :=
  [milliseconds, seconds, minutes, hours, days]

def symbol : Scale → Text
  | milliseconds => ['m', 's']
  | seconds => ['s']
  | minutes => ['m']
  | hours => ['h']
  | days => ['d']

def name : Scale → String
  | milliseconds => "milliseconds"
  | seconds => "seconds"
  | minutes => "minutes"
  | hours => "hours"
  | days => "days"

/-- The milliseconds of one unit, used for the conversion to seconds. -/
def millis : Scale → Nat
  | milliseconds => 1
  | seconds => 1000
  | minutes => 60000
  | hours => 3600000
  | days => 86400000

/-- The microseconds of one unit, used for the conversion to a span. -/
def micros : Scale → Nat
  | milliseconds => 1000
  | seconds => Span.microsPerSecond
  | minutes => 60 * Span.microsPerSecond
  | hours => 60 * 60 * Span.microsPerSecond
  | days => Span.microsPerDay

def ofSymbol? (t : Text) : Option Scale :=
  all.find? fun scale => scale.symbol == t

def ofSuffix? (t : Text) : Option Scale :=
  all.find? fun scale => scale.symbol.isSuffixOf t

def ofArgument (symbol : Argument) : Except Fault Scale :=
  let found? :=
    match symbol with
    | .text t => ofSymbol? t
    | _ => none
  match found? with
  | some scale => .ok scale
  | none => .error (.showing symbol.inspect .unknownScale)

def label (scale : Scale) : Text :=
  scale.name.toList.map Char.toUpper

def inspect (scale : Scale) : Text :=
  "<TimeUnit.".toList ++ scale.label ++ ": ".toList ++ Text.quoted scale.symbol ++ ['>']

def span (scale : Scale) (amount : Int) : Except Fault Span :=
  Span.ofMicros (amount * scale.micros)

/-- The seconds of a number of units: the exact quotient, rounded once. -/
def seconds? (scale : Scale) (amount : Int) : Except Fault Binary64 :=
  match Binary64.ofRatio (amount < 0) (amount.natAbs * scale.millis) 1000 with
  | .infinite _ => .error .secondsRange
  | rounded => .ok rounded

def spanOf (scale : Scale) (amount : Argument) : Except Fault Span :=
  match amount with
  | .number (.real x) => Span.ofReal scale.micros x
  | .number x => scale.span (x.whole?.getD 0)
  | _ => .error (.spanKind scale.name amount.kind)

/-- The seconds of an argument. A real amount is multiplied and divided with a rounding each. -/
def secondsOf (scale : Scale) (amount : Argument) : Except Fault Binary64 :=
  match amount with
  | .number (.real x) => .ok ((x.mul (Binary64.ofInt scale.millis)).divNat 1000)
  | .number x => scale.seconds? (x.whole?.getD 0)
  | .text _ | .list _ => .error (.operands .divide amount.kind "int")
  | .none | .table _ => .error (.operands .multiply amount.kind "int")

end Scale
end RetrySchedule
