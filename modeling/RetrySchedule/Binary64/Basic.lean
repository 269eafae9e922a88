namespace RetrySchedule

namespace Binary64

def binade : Nat := Nat.pow 2 52

/-- The number of finite magnitudes; as a rank it would be the one of infinity. -/
def rankCount : Nat := 2047 * binade

/-- The magnitude of a rank in units of 2 ^ (-1074), the least positive magnitude. -/
def unitsOfRank (rank : Nat) : Nat :=
  if rank < binade then rank
  else (binade + rank % binade) * Nat.pow 2 (rank / binade - 1)

def unitsPerOne : Nat := Nat.pow 2 1074

end Binary64

/-- Double-precision numbers without an opaque arithmetic. A finite value is its sign and its rank:
the place of its magnitude among all finite magnitudes, counted from zero. The rank is also the
number that the 63 low bits of the encoding spell, so order, neighbours and encoding are facts of
natural numbers. -/
inductive Binary64
  | nan
  | infinite (negative : Bool)
  | finite (negative : Bool) (rank : Fin Binary64.rankCount)
  deriving DecidableEq, Repr

namespace Binary64

def zero : Binary64 :=
  .finite false ⟨0, by decide⟩

def units? : Binary64 → Option Int
  | .finite negative rank =>
      let units : Int := unitsOfRank rank
      some (if negative then -units else units)
  | _ => none

/-- The 64 bits of the interchange encoding, read as a number. Every NaN is given the quiet one. -/
def bits : Binary64 → Nat
  | .nan => rankCount + binade / 2
  | .infinite negative => (if negative then Nat.pow 2 63 else 0) + rankCount
  | .finite negative rank => (if negative then Nat.pow 2 63 else 0) + rank

def neg : Binary64 → Binary64
  | .nan => .nan
  | .infinite negative => .infinite !negative
  | .finite negative rank => .finite (!negative) rank

def isNegative : Binary64 → Bool
  | .nan => false
  | .infinite negative => negative
  | .finite negative _ => negative

def isZero : Binary64 → Bool
  | .finite _ rank => rank.val == 0
  | _ => false

end Binary64
end RetrySchedule
