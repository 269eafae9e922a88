import RetrySchedule.Text.Plain
import RetrySchedule.Text.Quoted

namespace RetrySchedule

inductive NumeralFault
  | notANumeral (text : Text)
  | tooLongToRead (digits : Nat)
  | tooLongToWrite
  deriving DecidableEq, Repr

namespace Numeral

/-- The most digits of a numeral that is read or written. -/
def digitLimit : Nat := 4300

def ofNat (n : Nat) : Text :=
  Nat.toDigits 10 n

def ofInt (n : Int) : Text :=
  if n < 0 then '-' :: ofNat n.natAbs else ofNat n.natAbs

def fits (n : Int) : Bool :=
  n.natAbs < Nat.pow 10 digitLimit

def write (n : Int) : Except NumeralFault Text :=
  if fits n then .ok (ofInt n) else .error .tooLongToWrite

def inRun (c : Char) : Bool :=
  c == '_' || c.isDigit

/-- Reads what follows the sign of a plain numeral. The digits are counted before anything after
them is looked at; a count is the fault of too many, its absence that of another form. -/
def readUnsigned (t : Text) : Except (Option Nat) Nat :=
  match Text.ungroup? false (t.takeWhile inRun) with
  | none | some [] => .error none
  | some digits =>
      if digitLimit < digits.length then .error (some digits.length)
      else if (t.dropWhile inRun).all Text.asciiBlank then .ok (Nat.ofDigitChars 10 digits 0)
      else .error none

/-- Splits off a sign; the flag says whether it is a minus. -/
def splitSign : Text → Bool × Text
  | '-' :: rest => (true, rest)
  | '+' :: rest => (false, rest)
  | rest => (false, rest)

/-- Outer white space, a sign, single underscores between digits and digits of any script are
accepted. -/
def read (t : Text) : Except NumeralFault Int :=
  let (negative, body) := splitSign ((Text.plain t).dropWhile Text.asciiBlank)
  match readUnsigned body with
  | .ok n => .ok (if negative then -(n : Int) else n)
  | .error (some count) => .error (.tooLongToRead count)
  | .error none => .error (.notANumeral t)

end Numeral

namespace NumeralFault

def overLimit : String :=
  s!"Exceeds the limit ({Numeral.digitLimit} digits) for integer string conversion"

def remedy : String :=
  "; use sys.set_int_max_str_digits() to increase the limit"

/-- The quoted text of a refused numeral is cut to its first 200 characters. -/
def message : NumeralFault → String
  | .notANumeral text =>
      "invalid literal for int() with base 10: " ++ String.ofList ((Text.quoted text).take 200)
  | .tooLongToRead digits =>
      overLimit ++ s!": value has {digits} digits" ++ remedy
  | .tooLongToWrite => overLimit ++ remedy

end NumeralFault

end RetrySchedule
