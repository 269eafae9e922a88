import RetrySchedule.Calendar.Instant
import RetrySchedule.Scale

namespace RetrySchedule

structure Wait where
  magnitude : Int
  scale : Scale
  deriving DecidableEq, Repr

namespace Wait

def span (wait : Wait) : Except Fault Span :=
  wait.scale.span wait.magnitude

def seconds? (wait : Wait) : Except Fault Binary64 :=
  wait.scale.seconds? wait.magnitude

def after (wait : Wait) (start : Instant) : Except Fault Instant := do
  start.shift (← wait.span)

end Wait
end RetrySchedule
