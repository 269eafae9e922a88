import RetrySchedule.Wait

namespace RetrySchedule.Loose

/-- A wait with a magnitude of any kind. It can be shown and compared whatever the kind is; what
the conversions refuse depends on it. -/
structure Wait where
  magnitude : Argument
  scale : Scale

namespace Wait

def text (w : Wait) : Except NumeralFault Text := do
  return (← w.magnitude.display) ++ w.scale.symbol

def inspect (w : Wait) : Except NumeralFault Text := do
  return "Delay(magnitude=".toList ++ (← w.magnitude.inspect) ++ ", unit=".toList ++
    w.scale.inspect ++ [')']

def span (w : Wait) : Except Fault Span :=
  w.scale.spanOf w.magnitude

def seconds? (w : Wait) : Except Fault Binary64 :=
  w.scale.secondsOf w.magnitude

def after (w : Wait) (start : Instant) : Except Fault Instant := do
  start.shift (← w.span)

/-- Whether two waits are equal. Equal waits must have equal hashes, so they must have hashes. -/
def same (a b : Wait) : Except Fault Bool :=
  if !(a.magnitude.same b.magnitude && a.scale == b.scale) then .ok false
  else if a.magnitude.hashable then .ok true
  else .error (.unhashable a.magnitude.kind)

end Wait
end RetrySchedule.Loose
