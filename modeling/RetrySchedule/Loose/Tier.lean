import RetrySchedule.Loose.Wait
import RetrySchedule.Tier

namespace RetrySchedule.Loose

/-- A tier with numbers of any kind: a count need not be whole, and a NaN is not out of range. -/
structure Tier where
  magnitude : Number
  scale : Scale
  count : Number
  extent : Extent
  deriving DecidableEq

namespace Tier

def readField (least : Int) (fault : Text → Fault) : Argument → Except Fault Number
  | .number x => if x.lt (.int least) then .error (.showing x.write fault) else .ok x
  | other => .error (.operands .less other.kind "int")

/-- The tier with the given fields; the magnitude is looked at before the count. -/
def ofArguments (magnitude : Argument) (scale : Scale) (count : Argument) (extent : Extent) :
    Except Fault Tier := do
  let magnitude ← readField 0 .magnitudeRange magnitude
  let count ← readField 1 .countRange count
  return ⟨magnitude, scale, count, extent⟩

def ofTier (tier : RetrySchedule.Tier) : Tier :=
  ⟨.int tier.magnitude, tier.scale, .int tier.count, tier.extent⟩

def toTier? (tier : Tier) : Option RetrySchedule.Tier :=
  match tier.magnitude, tier.count with
  | .int magnitude, .int count =>
      (RetrySchedule.Tier.ofInts magnitude tier.scale count tier.extent).toOption
  | _, _ => none

def isOpen (tier : Tier) : Bool :=
  tier.extent == .unbounded

def wait (tier : Tier) : Wait :=
  ⟨.number tier.magnitude, tier.scale⟩

def write (tier : Tier) : Except NumeralFault Text := do
  let amount ← if tier.magnitude.eq (.int 0) then pure ['0'] else tier.wait.text
  let count? ← if tier.count.eq (.int 1) then pure none else some <$> tier.count.write
  return RetrySchedule.Tier.assemble amount count? tier.extent

def inspect (tier : Tier) : Except NumeralFault Text := do
  return "Tier(magnitude=".toList ++ (← tier.magnitude.write) ++ ", unit=".toList ++
    tier.scale.inspect ++ ", repeat_count=".toList ++ (← tier.count.write) ++
    ", strategy=".toList ++ tier.extent.inspect ++ [')']

def same (a b : Tier) : Bool :=
  a.magnitude.eq b.magnitude && a.scale == b.scale && a.count.eq b.count && a.extent == b.extent

end Tier
end RetrySchedule.Loose
