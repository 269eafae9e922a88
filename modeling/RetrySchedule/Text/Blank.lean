namespace RetrySchedule

/-- A text is the sequence of its characters; lengths and positions count code points. -/
abbrev Text := List Char

namespace Text

def asciiBlank (c : Char) : Bool :=
  c == ' ' || ('\t' ≤ c && c ≤ '\r')

/-- White space in any script. Four information separators count as well. -/
def blank (c : Char) : Bool :=
  asciiBlank c || ('\x1c' ≤ c && c ≤ '\x1f') || c == '\u0085' || c == '\u00a0' ||
  c == '\u1680' || ('\u2000' ≤ c && c ≤ '\u200a') || c == '\u2028' || c == '\u2029' ||
  c == '\u202f' || c == '\u205f' || c == '\u3000'

def trimStart (t : Text) : Text :=
  t.dropWhile blank

def trimEnd (t : Text) : Text :=
  (t.reverse.dropWhile blank).reverse

def trim (t : Text) : Text :=
  trimEnd (trimStart t)

end Text
end RetrySchedule
