import RetrySchedule.Binary64.Basic

namespace RetrySchedule

/-- The quotient rounded to the nearest integer; a half goes to the even one. -/
def divEven (num den : Nat) : Nat :=
  let quotient := num / den
  let twice := 2 * (num % den)
  if twice < den || (twice == den && quotient % 2 == 0) then quotient else quotient + 1

namespace Binary64

/-- How many halvings bring a number of units below `2 ^ 53`, the greatest odd significand plus
one. -/
def excess (units : Nat) : Nat :=
  units.log2 - 52

/-- The rank nearest to `num / den` units. A significand that rounds up to `2 ^ 53` lands on the
first rank of the next exponent, because ranks continue across exponents. -/
def nearestRank (num den : Nat) : Nat :=
  let shift := excess (num / den)
  shift * binade + divEven num (den * Nat.pow 2 shift)

/-- The magnitude of a rank with a sign; ranks past the last finite one stand for infinity. -/
def ofRank (negative : Bool) (rank : Nat) : Binary64 :=
  if h : rank < rankCount then .finite negative ⟨rank, h⟩ else .infinite negative

def ofRatio (negative : Bool) (num den : Nat) : Binary64 :=
  ofRank negative (nearestRank (num * unitsPerOne) den)

def ofInt (n : Int) : Binary64 :=
  ofRatio (n < 0) n.natAbs 1

/-- The exact sum, rounded once. Only two negative zeros sum to a negative zero. -/
def add : Binary64 → Binary64 → Binary64
  | .nan, _ => .nan
  | _, .nan => .nan
  | .infinite s, .infinite t => if s = t then .infinite s else .nan
  | .infinite s, _ => .infinite s
  | _, .infinite t => .infinite t
  | .finite s a, .finite t b =>
      let signed (negative : Bool) (rank : Nat) : Int :=
        if negative then -(unitsOfRank rank : Int) else unitsOfRank rank
      let sum := signed s a + signed t b
      ofRank (if sum = 0 then s && t else sum < 0) (nearestRank sum.natAbs 1)

def mul : Binary64 → Binary64 → Binary64
  | .nan, _ => .nan
  | _, .nan => .nan
  | .infinite s, y => if y.isZero then .nan else .infinite (s != y.isNegative)
  | x, .infinite t => if x.isZero then .nan else .infinite (x.isNegative != t)
  | .finite s a, .finite t b =>
      ofRatio (s != t) (unitsOfRank a * unitsOfRank b) (unitsPerOne * unitsPerOne)

def divNat : Binary64 → Nat → Binary64
  | .finite s a, d => ofRatio s (unitsOfRank a) (unitsPerOne * d)
  | x, _ => x

end Binary64
end RetrySchedule
