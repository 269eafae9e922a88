import RetrySchedule.Wait

namespace RetrySchedule

inductive Extent
  | bounded
  | unbounded
  deriving DecidableEq, Repr

namespace Extent

def word : Extent → Text
  | bounded => "bounded".toList
  | unbounded => "unbounded".toList

def ofWord? (t : Text) : Option Extent :=
  [bounded, unbounded].find? fun extent => extent.word == t

def ofArgument (word : Argument) : Except Fault Extent :=
  let found? :=
    match word with
    | .text t => ofWord? t
    | _ => none
  match found? with
  | some extent => .ok extent
  | none => .error (.showing word.inspect .unknownExtent)

def label (extent : Extent) : Text :=
  extent.word.map Char.toUpper

def inspect (extent : Extent) : Text :=
  "<RateStrategy.".toList ++ extent.label ++ ": ".toList ++ Text.quoted extent.word ++ ['>']

end Extent

structure Tier where
  magnitude : Nat
  scale : Scale
  count : Nat
  extent : Extent
  count_pos : 0 < count
  deriving DecidableEq

namespace Tier

def ofInts (magnitude : Int) (scale : Scale) (count : Int) (extent : Extent) :
    Except Fault Tier :=
  if magnitude < 0 then
    .error (.showing (Numeral.write magnitude) .magnitudeRange)
  else if h : count < 1 then .error (.showing (Numeral.write count) .countRange)
  else .ok ⟨magnitude.toNat, scale, count.toNat, extent, by omega⟩

def isOpen (tier : Tier) : Bool :=
  tier.extent == .unbounded

def wait (tier : Tier) : Wait :=
  ⟨tier.magnitude, tier.scale⟩

/-- How the parts of a tier are joined. A single attempt is not written. -/
def assemble (amount : Text) (count? : Option Text) (extent : Extent) : Text :=
  amount ++ (match count? with | some count => '/' :: count | none => []) ++
    (match extent with | .unbounded => ['+'] | .bounded => [])

/-- The term that stands for a tier. A wait of zero has one spelling, whatever its scale. -/
def text (tier : Tier) : Text :=
  assemble
    (if tier.magnitude = 0 then ['0'] else Numeral.ofNat tier.magnitude ++ tier.scale.symbol)
    (if tier.count = 1 then none else some (Numeral.ofNat tier.count)) tier.extent

def fits (tier : Tier) : Bool :=
  Numeral.fits tier.magnitude && Numeral.fits tier.count

def write (tier : Tier) : Except NumeralFault Text :=
  if tier.fits then .ok tier.text else .error .tooLongToWrite

end Tier
end RetrySchedule
