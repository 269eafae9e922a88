import RetrySchedule.Text.Unprintable

namespace RetrySchedule.Text

def hex (width n : Nat) : Text :=
  let written := Nat.toDigits 16 n
  List.replicate (width - written.length) '0' ++ written

/-- Double quotes are used only where they spare an escape: the text holds a single quote and no
double one. -/
def quoteMark (t : Text) : Char :=
  if t.contains '\'' && !t.contains '"' then '"' else '\''

/-- One character between the given quotes. Characters without a visible form are written by
their code point, in the shortest of three widths. -/
def escaped (quote c : Char) : Text :=
  if c = quote || c = '\\' then ['\\', c]
  else if c = '\t' then ['\\', 't']
  else if c = '\n' then ['\\', 'n']
  else if c = '\r' then ['\\', 'r']
  else if unprintable c then
    let n := c.toNat
    if n ≤ 0xff then '\\' :: 'x' :: hex 2 n
    else if n ≤ 0xffff then '\\' :: 'u' :: hex 4 n
    else '\\' :: 'U' :: hex 8 n
  else [c]

def quoted (t : Text) : Text :=
  let quote := quoteMark t
  quote :: (t.flatMap (escaped quote) ++ [quote])

end RetrySchedule.Text
