namespace RetrySchedule

namespace Date

def maxYear : Nat := 9999

def isLeap (year : Nat) : Bool :=
  year % 4 == 0 && (year % 100 != 0 || year % 400 == 0)

def yearLength (year : Nat) : Nat :=
  if isLeap year then 366 else 365

def monthLength (year : Nat) : Nat → Nat
  | 2 => if isLeap year then 29 else 28
  | 4 | 6 | 9 | 11 => 30
  | _ => 31

end Date

structure Date where
  year : Nat
  month : Nat
  day : Nat
  year_mem : 1 ≤ year ∧ year ≤ Date.maxYear
  month_mem : 1 ≤ month ∧ month ≤ 12
  day_mem : 1 ≤ day ∧ day ≤ Date.monthLength year month
  deriving DecidableEq, Repr

namespace Date

def ofFields? (year month day : Nat) : Option Date :=
  if h : (1 ≤ year ∧ year ≤ maxYear) ∧ (1 ≤ month ∧ month ≤ 12) ∧
      (1 ≤ day ∧ day ≤ monthLength year month) then
    some ⟨year, month, day, h.1, h.2.1, h.2.2⟩
  else none

def daysBeforeYear (year : Nat) : Nat :=
  let past := year - 1
  365 * past + past / 4 - past / 100 + past / 400

def daysBeforeMonth (year month : Nat) : Nat :=
  (List.range (month - 1)).foldl (fun days i => days + monthLength year (i + 1)) 0

def dayNumber (d : Date) : Nat :=
  daysBeforeYear d.year + daysBeforeMonth d.year d.month + (d.day - 1)

/-- The days of four hundred years, after which the calendar repeats. -/
def cycleDays : Nat := 146097

/-- Walks over whole blocks of days, from the start of one; leaves the block reached and the days
into it. -/
def walk (length : Nat → Nat) : Nat → Nat → Nat → Nat × Nat
  | 0, block, days => (block, days)
  | fuel + 1, block, days =>
      if days < length block then (block, days)
      else walk length fuel (block + 1) (days - length block)

def ofDayNumber? (number : Nat) : Option Date :=
  let (year, inYear) := walk yearLength 400 (1 + 400 * (number / cycleDays)) (number % cycleDays)
  let (month, inMonth) := walk (monthLength year) 11 1 inYear
  ofFields? year month (inMonth + 1)

end Date
end RetrySchedule
