import RetrySchedule.Fault

namespace RetrySchedule

namespace Span

def microsPerSecond : Nat := 1000000

def microsPerDay : Nat := 86400 * microsPerSecond

def maxDays : Nat := 999999999

/-- Day counts are 32-bit numbers before they are compared with `maxDays`. -/
def dayWidth : Nat := Nat.pow 2 31

end Span

/-- A signed length of time. Only the days carry the sign; they are the floor of the length. -/
structure Span where
  days : Int
  seconds : Nat
  micros : Nat
  days_le : days.natAbs ≤ Span.maxDays
  seconds_lt : seconds < 86400
  micros_lt : micros < Span.microsPerSecond
  deriving DecidableEq

namespace Span

def toMicros (s : Span) : Int :=
  (s.days * 86400 + s.seconds) * microsPerSecond + s.micros

def ofMicros (total : Int) : Except Fault Span :=
  let days := total / microsPerDay
  let inDay := (total % microsPerDay).toNat
  if days < -(dayWidth : Int) || dayWidth ≤ days then .error .spanWidth
  else if h : days.natAbs ≤ maxDays then
    .ok ⟨days, inDay / microsPerSecond, inDay % microsPerSecond, h, by
      simp only [inDay, microsPerDay, microsPerSecond]; omega, by
      exact Nat.mod_lt _ (by decide)⟩
  else .error (.spanDays days)

/-- The microseconds of a magnitude given in units of the least double, `factor` microseconds to
one. The whole part is multiplied exactly. The product of the fraction is first rounded to a
double; what it has below a microsecond rounds the total, a half to the even total. -/
def microsOfUnits (factor units : Nat) : Nat :=
  let whole := units / Binary64.unitsPerOne
  let fraction := units % Binary64.unitsPerOne
  let product := Binary64.unitsOfRank (Binary64.nearestRank (factor * fraction) 1)
  divEven (whole * factor * Binary64.unitsPerOne + product) Binary64.unitsPerOne

def ofReal (factor : Nat) : Binary64 → Except Fault Span
  | .nan => .error .undefinedSpan
  | .infinite _ => .error .infiniteSpan
  | .finite negative rank =>
      let micros : Int := microsOfUnits factor (Binary64.unitsOfRank rank)
      ofMicros (if negative then -micros else micros)

end Span
end RetrySchedule
