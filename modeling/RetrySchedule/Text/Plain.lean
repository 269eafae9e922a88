import RetrySchedule.Text.Digit

namespace RetrySchedule.Text

/-- The ASCII character that stands for one of any script in a numeral: digits keep their value,
white space becomes a space, and what has no counterpart becomes a question mark. -/
def plainChar (c : Char) : Char :=
  if c.toNat < 128 then c
  else if blank c then ' '
  else
    match digitValue? c with
    | some digit => Nat.digitChar digit
    | none => '?'

def plain (t : Text) : Text :=
  t.map plainChar

def trimAscii (t : Text) : Text :=
  ((t.dropWhile asciiBlank).reverse.dropWhile asciiBlank).reverse

/-- Leaves out underscores, if each of them stands alone between two digits. The flag says whether
a digit came just before. -/
def ungroup? : Bool → Text → Option Text
  | _, [] => some []
  | afterDigit, c :: rest =>
      if c = '_' then
        if afterDigit && rest.head?.any Char.isDigit then ungroup? false rest else none
      else (ungroup? c.isDigit rest).map (c :: ·)

end RetrySchedule.Text
