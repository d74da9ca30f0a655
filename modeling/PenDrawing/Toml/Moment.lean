import PenDrawing.Toml.Scan
import PenDrawing.Toml.Value
import PenDrawing.Text.Digit

/-!
# Moments

A moment is a date, a time of day, or a date and a time with or without a distance from universal
time. A day must exist in its month, and a time of day may be a leap second.
-/

namespace PenDrawing.Toml

open Scan

/-- A number of exactly `count` digits within limits. -/
def bounded (count least greatest : Nat) : Scan Nat := do
  let n := Text.valueOf (← exactly Text.isAsciiDigit count)
  if least ≤ n ∧ n ≤ greatest then return n else failure

/-- A year of 366 days. -/
def isLeapYear (year : Nat) : Bool := year % 4 == 0 && (year % 100 != 0 || year % 400 == 0)

/-- The days of a month. -/
def daysIn (year month : Nat) : Nat :=
  if month = 2 then if isLeapYear year then 29 else 28
  else if month = 4 ∨ month = 6 ∨ month = 9 ∨ month = 11 then 30
  else 31

/-- A date. -/
def date : Scan Unit := do
  let year ← bounded 4 0 9999
  char '-'
  let month ← bounded 2 1 12
  char '-'
  let _ ← bounded 2 1 (daysIn year month)

/-- A time of day. -/
def time : Scan Unit := do
  let _ ← bounded 2 0 23
  char ':'
  let _ ← bounded 2 0 59
  char ':'
  let _ ← bounded 2 0 60
  let _ ← perhaps do
    char '.'
    let _ ← satisfy Text.isAsciiDigit
    run Text.isAsciiDigit

/-- A distance from universal time. -/
def distance : Scan Unit :=
  (do let _ ← satisfy fun c => c == 'Z' || c == 'z') <|> do
    let _ ← satisfy fun c => c == '+' || c == '-'
    let _ ← bounded 2 0 23
    char ':'
    let _ ← bounded 2 0 59

/-- A time of day behind a date. -/
def timeOfDate : Scan Unit := do
  let _ ← satisfy fun c => c == 'T' || c == 't' || c == ' '
  time
  let _ ← perhaps distance

/-- A date, perhaps with a time, or a time. -/
def dateOrTime : Scan Unit :=
  (do date; let _ ← perhaps timeOfDate) <|> time

/-- A moment. -/
def moment : Scan Value := do
  let (_, text) ← taken dateOrTime
  return .moment (String.ofList text)

end PenDrawing.Toml
