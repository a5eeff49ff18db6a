import ModuleAtlas.Text.Basic
/-!
Dates and times of the proleptic Gregorian calendar, from the year 1 to the year 9999, and
their texts. A time may carry its offset from universal time, of less than a day.
-/
namespace ModuleAtlas

/-- A day of the calendar. -/
structure Date where
  year : Nat
  month : Nat
  day : Nat
deriving DecidableEq, Repr

/-- A time of a day, perhaps with an offset from universal time in minutes. -/
structure Moment where
  date : Date
  hour : Nat
  minute : Nat
  second : Nat
  micro : Nat
  offset : Option Int
deriving DecidableEq, Repr

/-- Why numbers are no date and time. -/
inductive CalendarFault
  | year (n : Nat)
  | month
  | day
  | hour
  | minute
  | second
  | offset (minutes : Int)
deriving DecidableEq, Repr

namespace Calendar

/-- The year has a 29th of February. -/
def isLeap (year : Nat) : Bool := year % 4 == 0 && (year % 100 != 0 || year % 400 == 0)

/-- The number of days of a month. -/
def daysIn (year month : Nat) : Nat :=
  if month = 2 then (if isLeap year then 29 else 28)
  else if month = 4 ∨ month = 6 ∨ month = 9 ∨ month = 11 then 30
  else 31

/-- The number of days before a day, counted from the first day of the year 1. -/
def dayNumber (d : Date) : Nat :=
  let y := d.year - 1
  y * 365 + y / 4 - y / 100 + y / 400
    + ((List.range (d.month - 1)).map fun m => daysIn d.year (m + 1)).foldl (· + ·) 0 + (d.day - 1)

end Calendar

namespace Date

/-- The date of three numbers, checked from the year down. -/
def check (year month day : Nat) : Except CalendarFault Date :=
  if year = 0 ∨ 9999 < year then .error (.year year)
  else if month = 0 ∨ 12 < month then .error .month
  else if day = 0 ∨ Calendar.daysIn year month < day then .error .day
  else .ok ⟨year, month, day⟩

/-- Year, month and day with hyphens between them. -/
def text (d : Date) : Text :=
  Text.padded 4 d.year ++ .scalar '-' :: Text.padded 2 d.month ++ .scalar '-' :: Text.padded 2 d.day

end Date

namespace Moment

/-- The moment of its parts, the offset checked first and then the others from the year down. -/
def check (year month day hour minute second micro : Nat) (offset : Option Int) :
    Except CalendarFault Moment :=
  if (offset.getD 0).natAbs ≥ 1440 then .error (.offset (offset.getD 0))
  else match Date.check year month day with
    | .error fault => .error fault
    | .ok date =>
      if 23 < hour then .error .hour
      else if 59 < minute then .error .minute
      else if 59 < second then .error .second
      else .ok ⟨date, hour, minute, second, micro, offset⟩

/-- The text of an offset: a sign, hours and minutes. -/
def offsetText (minutes : Int) : Text :=
  (if minutes < 0 then .scalar '-' else .scalar '+') ::
    Text.padded 2 (minutes.natAbs / 60) ++ .scalar ':' :: Text.padded 2 (minutes.natAbs % 60)

/-- Date, time, the fraction of a second if there is one, and the offset if there is one. -/
def text (m : Moment) : Text :=
  m.date.text ++ .scalar 'T' :: Text.padded 2 m.hour ++ .scalar ':' :: Text.padded 2 m.minute
    ++ .scalar ':' :: Text.padded 2 m.second
    ++ (if m.micro = 0 then [] else .scalar '.' :: Text.padded 6 m.micro)
    ++ ((m.offset.map offsetText).getD [])

/-- Microseconds since the first day of the year 1, in universal time where there is an
offset. -/
def instant (m : Moment) : Int :=
  let minutes : Int := (Calendar.dayNumber m.date * 24 + m.hour : Nat) * 60 + m.minute
    - m.offset.getD 0
  (minutes * 60 + m.second) * 1000000 + m.micro

/-- The two are the same moment: both with an offset or both without, at the same instant. -/
def same (a b : Moment) : Bool := a.offset.isSome == b.offset.isSome && a.instant == b.instant

end Moment

namespace CalendarFault

/-- An offset as days and the seconds beyond them. -/
def span (minutes : Int) : Text :=
  let days := Int.fdiv minutes 1440
  let seconds := Int.fmod minutes 1440 * 60
  let rest : Text := if seconds = 0 then [] else ", seconds=" ++ Text.ofInt seconds
  "days=" ++ Text.ofInt days ++ rest

/-- What is said about numbers that are no date and time. -/
def message : CalendarFault → Text
  | year n => "year " ++ Text.ofNat n ++ " is out of range"
  | month => "month must be in 1..12"
  | day => "day is out of range for month"
  | hour => "hour must be in 0..23"
  | minute => "minute must be in 0..59"
  | second => "second must be in 0..59"
  | offset minutes =>
    "offset must be a timedelta strictly between -timedelta(hours=24) and timedelta(hours=24), "
      ++ "not datetime.timedelta(" ++ span minutes ++ ")."

end CalendarFault
end ModuleAtlas
