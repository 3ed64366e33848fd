/-! Dates and times as TOML knows them, and their text.  The text has one form only, whatever
spelling the date or time had: a capital letter between date and time, no zeros at the end of a
fraction, and no fraction that is zero. -/

namespace Abacus.Toml

/-- A day of the calendar. -/
structure Date where
  year : Nat
  month : Nat
  day : Nat
deriving DecidableEq, Repr

/-- A time of the day. -/
structure Time where
  hour : Nat
  minute : Nat
  second : Nat
  nanosecond : Nat
deriving DecidableEq, Repr

/-- How far a local time is from universal time: it is universal time, or it is a number of
minutes ahead of it. -/
inductive Offset where
  | universal
  | ahead (minutes : Int)
deriving DecidableEq, Repr

/-- A date, a date with a time of that day, or a time of any day. -/
inductive Moment where
  | day (date : Date)
  | instant (date : Date) (time : Time) (offset : Option Offset)
  | clock (time : Time)
deriving DecidableEq, Repr

/-- A number with zeros in front, up to a width. -/
def filled (width n : Nat) : String :=
  let digits := Nat.toDigits 10 n
  String.ofList (List.replicate (width - digits.length) '0' ++ digits)

/-- The text of a date. -/
def Date.text (date : Date) : String :=
  filled 4 date.year ++ "-" ++ filled 2 date.month ++ "-" ++ filled 2 date.day

/-- The text of the nanoseconds behind a full second. -/
def fractionText (nanosecond : Nat) : String :=
  if nanosecond = 0 then ""
  else
    let digits := (filled 9 nanosecond).toList
    "." ++ String.ofList (digits.reverse.dropWhile (· == '0')).reverse

/-- The text of a time of the day. -/
def Time.text (time : Time) : String :=
  filled 2 time.hour ++ ":" ++ filled 2 time.minute ++ ":" ++ filled 2 time.second ++
    fractionText time.nanosecond

/-- The text of an offset.  An offset of no minutes is written with a plus. -/
def Offset.text : Offset → String
  | universal => "Z"
  | ahead minutes =>
    let sign := if minutes < 0 then "-" else "+"
    sign ++ filled 2 (minutes.natAbs / 60) ++ ":" ++ filled 2 (minutes.natAbs % 60)

/-- The text of a date or time. -/
def Moment.text : Moment → String
  | day date => date.text
  | instant date time offset =>
    date.text ++ "T" ++ time.text ++ (offset.map Offset.text).getD ""
  | clock time => time.text

end Abacus.Toml
