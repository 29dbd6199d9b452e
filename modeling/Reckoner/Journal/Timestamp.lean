import Reckoner.Double.Arithmetic
import Reckoner.Fault

/-!
# Timestamps

An instant is a number of seconds since the beginning of 1970 and a number of microseconds. It is
written as a date and a time of day in the proleptic Gregorian calendar, the microseconds only if there
are any.
-/

namespace Reckoner

structure Instant where
  seconds : Int
  micros : Nat
deriving DecidableEq

namespace Instant

/-- The number of microseconds in a second. -/
def million : Nat := 1000000

def ofSeconds (seconds : Int) : Instant := { seconds, micros := 0 }

/-- The instant of a double. The part after the point is turned into microseconds by one rounded
multiplication and then rounded to a whole number, a tie to the even one. -/
def ofDouble : Double → Except Misuse Instant
  | .nan => .error .instantOfNaN
  | .ranked s r _ =>
    let part := Double.ofRatio s (Double.units r % Double.one) 1 * .ofInt million
    let micros := match part with
      | .nan => 0
      | .ranked t q _ => Double.signed t (Double.halfEven (Double.units q) Double.one)
    let whole := Double.signed s (Double.units r / Double.one)
    .ok { seconds := whole + Int.fdiv micros million, micros := (Int.fmod micros million).toNat }

/-! ### The calendar

Days are counted in eras of 400 years that begin on the first of March, so that a leap day is the last
day of its year. -/

/-- A date of the calendar. -/
structure Date where
  year : Int
  month : Nat
  day : Nat
deriving DecidableEq

/-- The days from the first of March of the year zero to the beginning of 1970. -/
def daysBefore1970 : Int := 719468

/-- The days in an era. -/
def eraDays : Nat := 146097

/-- The date of a day counted from the beginning of 1970. -/
def dateOf (days : Int) : Date :=
  let shifted := days + daysBefore1970
  let era := Int.fdiv shifted eraDays
  let dayOfEra := (Int.fmod shifted eraDays).toNat
  let yearOfEra := (dayOfEra - dayOfEra / 1460 + dayOfEra / 36524 - dayOfEra / 146096) / 365
  let dayOfYear := dayOfEra - (365 * yearOfEra + yearOfEra / 4 - yearOfEra / 100)
  let monthFromMarch := (5 * dayOfYear + 2) / 153
  let day := dayOfYear - (153 * monthFromMarch + 2) / 5 + 1
  let month := if monthFromMarch < 10 then monthFromMarch + 3 else monthFromMarch - 9
  { year := yearOfEra + era * 400 + (if month ≤ 2 then 1 else 0), month, day }

/-- A number filled with zeros to a number of digits. -/
def filled (width n : Nat) : String :=
  let digits := Nat.toDigits 10 n
  String.ofList (List.replicate (width - digits.length) '0' ++ digits)

/-- Are the seconds within 64 bits, as the clock counts them? -/
def isOnClock (seconds : Int) : Bool :=
  -9223372036854775808 ≤ seconds && seconds ≤ 9223372036854775807

/-- The year of a day that can be written: it has one to four digits and is above zero. The calendar
counts years from 1900 and reckons them in 32 bits, so the last ones that it has come out below zero. -/
def writtenYear (day : Int) : Except Misuse Int :=
  let year := (dateOf day).year
  if year - 1900 < -2147483648 ∨ 2147483647 < year - 1900 then .error .calendarRange
  else
    let reckoned := if 2147483647 < year then year - 4294967296 else year
    if reckoned < 1 ∨ 9999 < reckoned then .error (.yearOutOfRange reckoned) else .ok reckoned

/-- The date and the time of day. The day before has to have a year that can be written as well. -/
def text (t : Instant) : Except Misuse String := do
  let day := Int.fdiv t.seconds 86400
  let date := dateOf day
  let second := (Int.fmod t.seconds 86400).toNat
  if !isOnClock t.seconds then .error .clockRange
  let year ← writtenYear day
  let _ ← writtenYear (day - 1)
  .ok (filled 4 year.toNat ++ "-" ++ filled 2 date.month ++ "-" ++ filled 2 date.day ++ "T"
    ++ filled 2 (second / 3600) ++ ":" ++ filled 2 (second / 60 % 60) ++ ":"
    ++ filled 2 (second % 60) ++ if t.micros = 0 then "" else "." ++ filled 6 t.micros)

end Instant

end Reckoner
