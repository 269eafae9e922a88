import RetrySchedule.Binary64.Decimal

namespace RetrySchedule

/-- The three kinds of numbers that callers mix. Comparison is exact across kinds. Sums are exact
among integers; with a double in them both sides are made doubles. -/
inductive Number
  | flag (b : Bool)
  | int (n : Int)
  | real (x : Binary64)
  deriving DecidableEq, Repr

/-- A point of the line of exact values, in the units of the least positive double, closed by the
two infinities. -/
inductive Extended
  | bottom
  | units (n : Int)
  | top
  deriving DecidableEq, Repr

namespace Extended

def le : Extended → Extended → Bool
  | bottom, _ => true
  | _, top => true
  | units m, units n => m ≤ n
  | _, _ => false

def lt (x y : Extended) : Bool :=
  !le y x

end Extended

namespace Number

def kind : Number → String
  | flag _ => "bool"
  | int _ => "int"
  | real _ => "float"

/-- The value of a number that is no double; flags count as zero and one. -/
def whole? : Number → Option Int
  | flag b => some (if b then 1 else 0)
  | int n => some n
  | real _ => none

def extended? (x : Number) : Option Extended :=
  match x with
  | real (.infinite negative) => some (if negative then .bottom else .top)
  | real y => y.units?.map .units
  | flag _ | int _ => x.whole?.map fun n => .units (n * Binary64.unitsPerOne)

/-- Exact comparison; a NaN compares with nothing. -/
def le (x y : Number) : Bool :=
  match x.extended?, y.extended? with
  | some a, some b => a.le b
  | _, _ => false

def lt (x y : Number) : Bool :=
  match x.extended?, y.extended? with
  | some a, some b => a.lt b
  | _, _ => false

def eq (x y : Number) : Bool :=
  x.le y && y.le x

def toReal? (x : Number) : Option Binary64 :=
  match x with
  | real y => some y
  | flag _ | int _ =>
      match x.whole?.map Binary64.ofInt with
      | some (.infinite _) => none
      | rounded? => rounded?

/-- The sum, or nothing if an integer that has to be made a double is beyond them. -/
def add? (x y : Number) : Option Number :=
  match x.whole?, y.whole? with
  | some m, some n => some (.int (m + n))
  | _, _ => do
      let a ← x.toReal?
      let b ← y.toReal?
      return .real (a.add b)

def neg (x : Number) : Number :=
  match x with
  | real y => .real y.neg
  | flag _ | int _ => .int (-(x.whole?.getD 0))

def sub? (x y : Number) : Option Number :=
  x.add? y.neg

def text : Number → Text
  | flag b => if b then "True".toList else "False".toList
  | int n => Numeral.ofInt n
  | real x => x.text

def fits : Number → Bool
  | int n => Numeral.fits n
  | _ => true

def write (x : Number) : Except NumeralFault Text :=
  if x.fits then .ok x.text else .error .tooLongToWrite

end Number
end RetrySchedule
