import Mathlib

set_option autoImplicit false

/-!
Calendar conversions of the C library (lib/libc/time/): `gmtime_r` and `mktime` in the three
builds. A `time_t` is a `uint32_t`, here a `Nat` below 2^32; an `int` or `long` is an `Int`, its
`/` the truncating `Int.tdiv`. The values these functions compute from a `time_t` stay far
inside 32 bits, so only the conversions back to `time_t` wrap.
-/

namespace TizenRT.Time

def SEC_PER_MIN : Nat := 60
def SEC_PER_HOUR : Nat := 60 * SEC_PER_MIN
def SEC_PER_DAY : Nat := 24 * SEC_PER_HOUR

def JD_OF_EPOCH : Nat := 2440588
def GREG_DUTC : Int := -141427
def GREG_YEAR : Int := 1582
def GREG_MONTH : Int := 10
def GREG_DAY : Int := 15

inductive TimeBuild where
  /-- CONFIG_GREGORIAN_TIME -/
  | gregorian
  /-- CONFIG_GREGORIAN_TIME and CONFIG_JULIAN_TIME -/
  | julian
  /-- neither: the simplified conversions -/
  | simple
  deriving DecidableEq, Repr

/-- The fields of `struct tm` that these functions read and write. -/
structure Tm where
  tm_sec : Int
  tm_min : Int
  tm_hour : Int
  tm_mday : Int
  tm_mon : Int
  tm_year : Int
  deriving DecidableEq, Repr

def timeT (x : Int) : Nat := (x % 2 ^ 32).toNat

def clockIsleapyear (year : Int) : Bool :=
  if year.tmod 400 ≠ 0 then (if year.tmod 100 ≠ 0 then (if year.tmod 4 ≠ 0 then false else true)
    else false)
  else true

def gDaysbeforemonth : List Int := [0,31,59,90,120,151,181,212,243,273,304,334,365]

def clockDaysbeforemonth (month : Int) (leapyear : Bool) : Int :=
  gDaysbeforemonth.getD month.toNat 0 + if month ≥ 2 ∧ leapyear then 1 else 0

def clockUtc2gregorian (jd : Nat) : Int × Int × Int :=
  let l : Int := jd + 68569
  let n := (4 * l).tdiv 146097
  let l := l - (146097 * n + 3).tdiv 4
  let i := (4000 * (l + 1)).tdiv 1461001
  let l := l - (1461 * i).tdiv 4 + 31
  let j := (80 * l).tdiv 2447
  let d := l - (2447 * j).tdiv 80
  let l := j.tdiv 11
  let m := j + 2 - 12 * l
  let y := 100 * (n - 49) + i + l
  (y,m,d)

def clockUtc2julian (jd : Nat) : Int × Int × Int :=
  let j : Int := jd + 1402
  let k := (j - 1).tdiv 1461
  let l := j - 1461 * k
  let n := (l - 1).tdiv 365 - l.tdiv 1461
  let i := l - 365 * n + 30
  let j := (80 * i).tdiv 2447
  let d := i - (2447 * j).tdiv 80
  let i := j.tdiv 11
  let m := j + 2 - 12 * i
  let y := 4 * k + n + i - 4716
  (y,m,d)

def clockGregorian2utc (year month day : Int) : Nat :=
  let temp : Int := if month ≤ 2 then -1 else 0
  timeT ((1461 * (year + 4800 + temp)).tdiv 4 + (367 * (month - 2 - 12 * temp)).tdiv 12 -
    (3 * ((year + 4900 + temp).tdiv 100)).tdiv 4 + day - 32075)

def clockJulian2utc (year month day : Int) : Nat :=
  timeT (367 * year - (7 * (year + 5001 + (month - 9).tdiv 7)).tdiv 4 + (275 * month).tdiv 9 +
    day + 1729777)

/-- `clock_calendar2utc` of the Gregorian builds, with CONFIG_JULIAN_TIME when `julian` holds. -/
def clockCalendar2utc (julian : Bool) (year month day : Int) : Nat :=
  let dyear := (month - 1).tdiv 12
  let month := month - 12 * dyear
  let year := year + dyear
  let year := if month < 1 then year - 1 else year
  let month := if month < 1 then month + 12 else month
  let isgreg : Bool :=
    if year > GREG_YEAR then true
    else if year < GREG_YEAR then false
    else if month > GREG_MONTH then true
    else if month < GREG_MONTH then false
    else day ≥ GREG_DAY
  if julian ∧ !isgreg then timeT (clockJulian2utc year month day - JD_OF_EPOCH)
  else timeT (clockGregorian2utc year month day - JD_OF_EPOCH)

/-- The simplified `clock_calendar2utc`: days since 1970-01-01, the `time_t` sum taken modulo 2^32
once at the end. -/
def clockCalendar2utcSimple (year month day : Int) : Nat :=
  timeT ((year - 1970) * 365 + (year - 1969) >>> (2 : Nat) +
    clockDaysbeforemonth month (clockIsleapyear year) + day - 1)

/-- The `for (;;)` of the simplified `clock_utc2calendar`: whole years are taken off `days` from
the year `value` after 1970 on; the year reached, the days left in it and whether it is a leap
year. -/
def clockUtc2calendarYears (value : Int) (days : Nat) : Int × Nat × Bool :=
  let leapyear := clockIsleapyear (value + 1970)
  let tmp := if leapyear then 366 else 365
  if days ≥ tmp then clockUtc2calendarYears (value + 1) (days - tmp) else (value,days,leapyear)
termination_by days
decreasing_by all_goals (rename_i h; revert h; simp only [tmp,leapyear]; split <;> omega)

/-- The `do ... while (min < max)` of the simplified `clock_utc2calendar`: the binary search of
the month holding day `days` of the year. -/
def clockUtc2calendarMonth (days : Nat) (leapyear : Bool) (min max : Int) : Int :=
  let value := (min + max) >>> (1 : Nat)
  if clockDaysbeforemonth (value + 1) leapyear > days then
    if clockDaysbeforemonth value leapyear > days then
      if min < value - 1 then clockUtc2calendarMonth days leapyear min (value - 1) else min
    else value
  else if value + 1 < max then clockUtc2calendarMonth days leapyear (value + 1) max
  else value + 1
termination_by (max - min).toNat
decreasing_by all_goals (simp only [value,Int.shiftRight_eq_div_pow] at *; omega)

/-- The simplified `clock_utc2calendar`: 1461-day blocks from 1970, then whole years, then the
month. -/
def clockUtc2calendarSimple (days : Nat) : Int × Int × Int :=
  let value := days / (4 * 365 + 1)
  let y := clockUtc2calendarYears (value <<< 2 : Nat) (days - value * (4 * 365 + 1))
  let month := clockUtc2calendarMonth y.2.1 y.2.2 0 11
  (1970 + y.1,month + 1,y.2.1 - clockDaysbeforemonth month y.2.2 + 1)

def clockUtc2calendar : TimeBuild → Nat → Int × Int × Int
  | .gregorian, utc => clockUtc2gregorian ((utc + JD_OF_EPOCH) % 2 ^ 32)
  | .julian, utc =>
    if utc ≥ timeT GREG_DUTC then clockUtc2gregorian ((utc + JD_OF_EPOCH) % 2 ^ 32)
    else clockUtc2julian ((utc + JD_OF_EPOCH) % 2 ^ 32)
  | .simple, days => clockUtc2calendarSimple days

def gmtimeR (b : TimeBuild) (timer : Nat) : Tm :=
  let jdn := timer / SEC_PER_DAY
  let epoch := timer - SEC_PER_DAY * jdn
  let hour := epoch / SEC_PER_HOUR
  let epoch := epoch - SEC_PER_HOUR * hour
  let min := epoch / SEC_PER_MIN
  let sec := epoch - SEC_PER_MIN * min
  let date := clockUtc2calendar b jdn
  { tm_year := date.1 - 1900
    tm_mon := date.2.1 - 1
    tm_mday := date.2.2
    tm_hour := hour
    tm_min := min
    tm_sec := sec }

def clockDayoftheweek (mday month year : Int) : Int :=
  let year := if month ≤ 2 then year - 1 else year
  let month := (if month ≤ 2 then month + 12 else month) - 2
  (mday + year + year.tdiv 4 - year.tdiv 100 + year.tdiv 400 + (31 * month).tdiv 12).tmod 7

/-- What `gmtime_r` returns with CONFIG_TIME_EXTENDED: the fields of `gmtimeR`, the day of the week
and the day of the year. -/
structure TmExtended where
  tm : Tm
  tm_wday : Int
  tm_yday : Int
  deriving DecidableEq, Repr

def gmtimeRExtended (b : TimeBuild) (timer : Nat) : TmExtended :=
  let tm := gmtimeR b timer
  let year := tm.tm_year + 1900
  { tm := tm
    tm_wday := clockDayoftheweek tm.tm_mday (tm.tm_mon + 1) year
    tm_yday := tm.tm_mday + clockDaysbeforemonth tm.tm_mon (clockIsleapyear year) }

/-- `mktime`; the `unsigned` arithmetic of the simplified build is the `Int` one taken modulo
2^32 once at the end. -/
def mktime : TimeBuild → Tm → Nat
  | .gregorian, tp =>
    let jdn := clockCalendar2utc false (tp.tm_year + 1900) (tp.tm_mon + 1) tp.tm_mday
    timeT (((jdn * 24 + tp.tm_hour) * 60 + tp.tm_min) * 60 + tp.tm_sec)
  | .julian, tp =>
    let jdn := clockCalendar2utc true (tp.tm_year + 1900) (tp.tm_mon + 1) tp.tm_mday
    timeT (((jdn * 24 + tp.tm_hour) * 60 + tp.tm_min) * 60 + tp.tm_sec)
  | .simple, tp =>
    let days := (tp.tm_year - 70) * 365 + (tp.tm_year - 69) >>> (2 : Nat) +
      clockDaysbeforemonth tp.tm_mon (clockIsleapyear (tp.tm_year + 1900)) + tp.tm_mday - 1
    timeT (((days * 24 + tp.tm_hour) * 60 + tp.tm_min) * 60 + tp.tm_sec)

end TizenRT.Time
