import RetrySchedule.Calendar.Date
import RetrySchedule.Span

namespace RetrySchedule

/-- How far a clock is ahead of universal time, in microseconds. It is told from what the clock
shows, in microseconds since the first midnight of the calendar, and, as a clock that is put back
shows some of them twice, from whether it shows them again. A zone may leave it open. -/
structure Zone where
  ahead? : Nat → Bool → Option Int

def Zone.fixed (ahead : Int) : Zone :=
  ⟨fun _ _ => some ahead⟩

structure Instant where
  date : Date
  /-- Microseconds since midnight. -/
  time : Nat
  time_lt : time < Span.microsPerDay
  again : Bool
  zone : Option Zone

namespace Instant

def localMicros (i : Instant) : Nat :=
  i.date.dayNumber * Span.microsPerDay + i.time

def ahead? (i : Instant) : Option Int :=
  i.zone.bind fun zone => zone.ahead? i.localMicros i.again

/-- The instant at which a clock shows a number of microseconds for the first time. -/
def ofLocalMicros (zone : Option Zone) (micros : Int) : Except Fault Instant :=
  if micros < 0 then .error .dateRange
  else
    match Date.ofDayNumber? (micros.toNat / Span.microsPerDay) with
    | some date =>
        .ok ⟨date, micros.toNat % Span.microsPerDay, Nat.mod_lt _ (by decide), false, zone⟩
    | none => .error .dateRange

/-- The clock advances by the span; the zone is kept, but not how far it is ahead. -/
def shift (i : Instant) (s : Span) : Except Fault Instant :=
  ofLocalMicros i.zone (i.localMicros + s.toMicros)

/-- The same instant on the clock of universal time; one without a distance is taken to be on it. -/
def toUniversal (i : Instant) : Except Fault Instant :=
  ofLocalMicros (some (.fixed 0)) (i.localMicros - i.ahead?.getD 0)

def padded (width n : Nat) : Text :=
  let written := Numeral.ofNat n
  List.replicate (width - written.length) '0' ++ written

def fractionText (micros : Nat) : Text :=
  if micros = 0 then [] else '.' :: padded 6 micros

def aheadText (ahead : Int) : Text :=
  let seconds := ahead.natAbs / Span.microsPerSecond
  let micros := ahead.natAbs % Span.microsPerSecond
  (if ahead < 0 then '-' else '+') :: (padded 2 (seconds / 3600) ++
    ':' :: (padded 2 (seconds / 60 % 60) ++
      if seconds % 60 = 0 && micros = 0 then []
      else ':' :: (padded 2 (seconds % 60) ++ fractionText micros)))

def timeText (time : Nat) : Text :=
  let seconds := time / Span.microsPerSecond
  padded 2 (seconds / 3600) ++ ':' :: (padded 2 (seconds / 60 % 60) ++
    ':' :: (padded 2 (seconds % 60) ++ fractionText (time % Span.microsPerSecond)))

def text (i : Instant) : Text :=
  padded 4 i.date.year ++ '-' :: (padded 2 i.date.month ++ '-' :: (padded 2 i.date.day ++
    'T' :: (timeText i.time ++ (i.ahead?.map aheadText).getD [])))

def readDigits? (width : Nat) (t : Text) : Option (Nat × Text) :=
  let digits := t.take width
  if digits.length = width && digits.all Char.isDigit then
    some (Nat.ofDigitChars 10 digits 0, t.drop width)
  else none

def expect? (c : Char) : Text → Option Text
  | d :: rest => if d = c then some rest else none
  | [] => none

/-- Reads a decimal fraction of a second in microseconds; without a point it is zero. -/
def readFraction? : Text → Option (Nat × Text)
  | '.' :: rest =>
      let digits := rest.takeWhile Char.isDigit
      if digits.isEmpty || 6 < digits.length then none
      else some (Nat.ofDigitChars 10 digits 0 * Nat.pow 10 (6 - digits.length),
        rest.dropWhile Char.isDigit)
  | t => some (0, t)

def readDistance? (t : Text) : Option Nat := do
  let (hours, t) ← readDigits? 2 t
  let (minutes, t) ← (expect? ':' t).bind (readDigits? 2)
  if t.isEmpty then return hours * 3600 + minutes * 60
  let (seconds, t) ← (expect? ':' t).bind (readDigits? 2)
  if t.isEmpty then return hours * 3600 + minutes * 60 + seconds
  none

def readZone? : Text → Option (Option Zone)
  | [] => some none
  | '+' :: t => (readDistance? t).map fun n => some (.fixed (n * Span.microsPerSecond))
  | '-' :: t => (readDistance? t).map fun n => some (.fixed (-(n * Span.microsPerSecond)))
  | _ => none

def read? (t : Text) : Option Instant := do
  let (year, t) ← readDigits? 4 t
  let (month, t) ← (expect? '-' t).bind (readDigits? 2)
  let (day, t) ← (expect? '-' t).bind (readDigits? 2)
  let (hour, t) ← (expect? 'T' t).bind (readDigits? 2)
  let (minute, t) ← (expect? ':' t).bind (readDigits? 2)
  let (second, t) ← (expect? ':' t).bind (readDigits? 2)
  let (micros, t) ← readFraction? t
  let zone ← readZone? t
  let date ← Date.ofFields? year month day
  let time := ((hour * 60 + minute) * 60 + second) * Span.microsPerSecond + micros
  if h : minute < 60 ∧ second < 60 ∧ time < Span.microsPerDay then
    return ⟨date, time, h.2.2, false, zone⟩
  none

end Instant
end RetrySchedule
