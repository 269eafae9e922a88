import RetrySchedule.Schedule
import RetrySchedule.Text.Pattern

namespace RetrySchedule.Term

def separator : Char := ','

def rateSign : Char := '/'

def openSign : Char := '+'

def zeroAmount : Text := ['0']

def counting : Text.Pattern :=
  .seq (.one fun c => '1' ≤ c && c ≤ '9') (.many Char.isDigit)

def isCounting (t : Text) : Bool :=
  counting.covers t

def amount : Text.Pattern :=
  .choice (.words [zeroAmount]) (.seq counting (.words (Scale.all.map Scale.symbol)))

def splitMarker (t : Text) : Text × Bool :=
  if t.getLast? == some openSign then (t.dropLast, true) else (t, false)

/-- The part before the first slash and, if there is a slash, the part after it. -/
def splitRate (t : Text) : Text × Option Text :=
  match t.dropWhile (· != rateSign) with
  | [] => (t, none)
  | _ :: rate => (t.takeWhile (· != rateSign), some rate)

structure Parts where
  amount : Text
  rate : Option Text
  marked : Bool
  deriving DecidableEq, Repr

def divide (t : Text) : Parts :=
  let (body, marked) := splitMarker t
  let (amount, rate) := splitRate body
  ⟨amount, rate, marked⟩

/-- An amount (a zero, or a counting numeral and a unit), a slash and a counting numeral if there is
a rate, and a plus sign if there is a marker. -/
def shape (rated marked : Bool) : Text.Pattern :=
  let unmarked :=
    if rated then amount.seq (.seq (.words [[rateSign]]) counting) else amount
  if marked then unmarked.seq (.words [[openSign]]) else unmarked

def hasShape (rated marked : Bool) (t : Text) : Bool :=
  (shape rated marked).covers t

def mayEnd (c : Char) : Bool :=
  c.isDigit || c == openSign || Scale.all.any fun scale => scale.symbol.contains c

/-- The outline of an expression, looked at before it is divided: it starts with a digit, and its
last character may end an expression. -/
def hasOutline (expression : Text) : Bool :=
  expression.head?.any Char.isDigit && expression.getLast?.any mayEnd

end RetrySchedule.Term
