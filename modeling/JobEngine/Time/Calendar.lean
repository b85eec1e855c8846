/-! The Gregorian calendar, extended to all years: dates and the number of days since 1970-01-01.
Years are counted from March inside a cycle of 400, so that the leap day comes last. -/

namespace JobEngine

structure Date where
  year : Int
  month : Nat
  day : Nat
  deriving DecidableEq, Inhabited

namespace Date

def isLeapYear (year : Int) : Bool :=
  year % 4 == 0 && (year % 100 != 0 || year % 400 == 0)

def daysInMonth (year : Int) (month : Nat) : Nat :=
  match month with
  | 1 | 3 | 5 | 7 | 8 | 10 | 12 => 31
  | 4 | 6 | 9 | 11 => 30
  | 2 => if isLeapYear year then 29 else 28
  | _ => 0

def isValid (d : Date) : Bool :=
  1 ≤ d.day && d.day ≤ daysInMonth d.year d.month

/-- Days in a cycle of 400 years. -/
def cycleDays : Int := 146097

/-- Days from March 1 of the year 0 to 1970-01-01. -/
def epochOffset : Int := 719468

def toDays (d : Date) : Int :=
  let year := if d.month ≤ 2 then d.year - 1 else d.year
  let inCycle := year % 400
  let fromMarch : Int := (d.month + 9) % 12
  let dayOfYear := (153 * fromMarch + 2) / 5 + d.day - 1
  year / 400 * cycleDays + (inCycle * 365 + inCycle / 4 - inCycle / 100 + dayOfYear) - epochOffset

def ofDays (days : Int) : Date :=
  let shifted := days + epochOffset
  let inCycle := shifted % cycleDays
  let yearInCycle := (inCycle - inCycle / 1460 + inCycle / 36524 - inCycle / 146096) / 365
  let dayOfYear := inCycle - (365 * yearInCycle + yearInCycle / 4 - yearInCycle / 100)
  let fromMarch := (5 * dayOfYear + 2) / 153
  let month := if fromMarch < 10 then fromMarch + 3 else fromMarch - 9
  let year := yearInCycle + shifted / cycleDays * 400
  { year := if month ≤ 2 then year + 1 else year
    month := month.toNat
    day := (dayOfYear - (153 * fromMarch + 2) / 5 + 1).toNat }

end Date

end JobEngine
