import RetrySchedule.Binary64.Rounding
import RetrySchedule.Numeral

namespace RetrySchedule.Binary64

def nearestRankOfDecimal (digits : Nat) (exponent : Int) : Nat :=
  nearestRank (digits * Nat.pow 10 exponent.toNat * unitsPerOne) (Nat.pow 10 (-exponent).toNat)

/-- The double nearest to `± digits * 10 ^ exponent`. Exponents far outside the range are settled
without a power of ten. -/
def ofDecimal (negative : Bool) (digits : Nat) (exponent : Int) : Binary64 :=
  if digits == 0 || exponent + (Numeral.ofNat digits).length < -400 then ofRank negative 0
  else if 400 < exponent then .infinite negative
  else ofRank negative (nearestRankOfDecimal digits exponent)

/-- A decimal place below that of the least magnitude. -/
def lowestPlace : Nat := 350

/-- The least `k` for which the magnitude is below `10 ^ k`. -/
def pointOf (units : Nat) : Int :=
  (Numeral.ofNat (units * Nat.pow 10 lowestPlace / unitsPerOne)).length - (lowestPlace : Int)

def floorAt (units : Nat) (exponent : Int) : Nat :=
  units * Nat.pow 10 (-exponent).toNat / (unitsPerOne * Nat.pow 10 exponent.toNat)

/-- Whether the magnitude lies nearer to `(low + 1) * 10 ^ exponent` than to `low * 10 ^ exponent`;
from the middle the even count is taken. -/
def nearerAbove (units low : Nat) (exponent : Int) : Bool :=
  let twice := 2 * (units * Nat.pow 10 (-exponent).toNat)
  let middle := (2 * low + 1) * (unitsPerOne * Nat.pow 10 exponent.toNat)
  middle < twice || (middle == twice && low % 2 == 1)

/-- The neighbour of the magnitude on the grid of `10 ^ exponent` that reads back as the rank. -/
def readsBackAt? (rank units : Nat) (exponent : Int) : Option Nat :=
  let low := floorAt units exponent
  let below := nearestRankOfDecimal low exponent == rank
  let above := nearestRankOfDecimal (low + 1) exponent == rank
  if below && above then some (if nearerAbove units low exponent then low + 1 else low)
  else if below then some low
  else if above then some (low + 1)
  else none

def shortestFrom (rank units : Nat) (point : Int) (count : Nat) : Nat → Nat × Int
  | 0 => (floorAt units (point - count), point - count)
  | fuel + 1 =>
      match readsBackAt? rank units (point - count) with
      | some digits => (digits, point - count)
      | none => shortestFrom rank units point (count + 1) fuel

/-- Seventeen digits tell any two doubles apart. -/
def maxDigits : Nat := 17

def shortest (rank : Nat) : Nat × Int :=
  let units := unitsOfRank rank
  shortestFrom rank units (pointOf units) 1 maxDigits

/-- Exponents from here up to `plainEnd` are written without an exponent. -/
def plainStart : Int := -4

def plainEnd : Int := 16

def positional (digits : Text) (point : Int) : Text :=
  if point ≤ 0 then '0' :: '.' :: (List.replicate (-point).toNat '0' ++ digits)
  else
    let whole := point.toNat
    let padded := digits ++ List.replicate (whole + 1 - digits.length) '0'
    padded.take whole ++ '.' :: padded.drop whole

def exponentText (exponent : Int) : Text :=
  let written := Numeral.ofNat exponent.natAbs
  (if exponent < 0 then '-' else '+') :: (List.replicate (2 - written.length) '0' ++ written)

def scientific (digits : Text) (exponent : Int) : Text :=
  match digits with
  | [] => []
  | [only] => only :: 'e' :: exponentText exponent
  | first :: rest => first :: '.' :: (rest ++ 'e' :: exponentText exponent)

def magnitudeText (rank : Nat) : Text :=
  if rank = 0 then ['0', '.', '0']
  else
    let (count, exponent) := shortest rank
    let written := Numeral.ofNat count
    let digits := (written.reverse.dropWhile (· == '0')).reverse
    let point := exponent + written.length
    if plainStart ≤ point - 1 && point - 1 < plainEnd then positional digits point
    else scientific digits (point - 1)

def signText (negative : Bool) : Text :=
  if negative then ['-'] else []

def text : Binary64 → Text
  | .nan => "nan".toList
  | .infinite negative => signText negative ++ "inf".toList
  | .finite negative rank => signText negative ++ magnitudeText rank

/-- The value with two places, rounded to even from its exact decimal expansion. -/
def twoPlaces : Binary64 → Text
  | .nan => "nan".toList
  | .infinite negative => signText negative ++ "inf".toList
  | .finite negative rank =>
      let hundredths := divEven (unitsOfRank rank * 100) unitsPerOne
      let cents := Numeral.ofNat (hundredths % 100)
      signText negative ++ Numeral.ofNat (hundredths / 100) ++
        '.' :: (List.replicate (2 - cents.length) '0' ++ cents)

def readExponent? : Text → Option Int
  | [] => some 0
  | mark :: rest =>
      let (negative, digits) := Numeral.splitSign rest
      if (mark == 'e' || mark == 'E') && !digits.isEmpty && digits.all Char.isDigit then
        let n : Int := Nat.ofDigitChars 10 digits 0
        some (if negative then -n else n)
      else none

def readPlain? (t : Text) : Option Binary64 :=
  let (negative, body) := Numeral.splitSign t
  let name := body.map Char.toLower
  if name == "nan".toList then some .nan
  else if name == "inf".toList || name == "infinity".toList then some (.infinite negative)
  else
    let whole := body.takeWhile Char.isDigit
    let afterWhole := body.dropWhile Char.isDigit
    let (fraction, afterFraction) :=
      match afterWhole with
      | '.' :: rest => (rest.takeWhile Char.isDigit, rest.dropWhile Char.isDigit)
      | rest => ([], rest)
    if whole.isEmpty && fraction.isEmpty then none
    else (readExponent? afterFraction).map fun exponent =>
      ofDecimal negative (Nat.ofDigitChars 10 (whole ++ fraction) 0) (exponent - fraction.length)

def read? (t : Text) : Option Binary64 :=
  (Text.ungroup? false (Text.trimAscii (Text.plain t))).bind readPlain?

end RetrySchedule.Binary64
