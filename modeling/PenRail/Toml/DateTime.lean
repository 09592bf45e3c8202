import PenRail.Toml.Text

/-!
# Points in time

A date, a time of day, or a date with a time and perhaps an offset. A date must exist in the calendar; a minute may have
a sixtieth second.
-/

namespace PenRail.Toml

open Reader

/-- A number of exactly `width` digits between two limits. -/
def twoSided (width low high : Nat) : Reader Nat := do
  let n := ofDigits 10 (← count width Char.isDigit)
  if low ≤ n ∧ n ≤ high then pure n else failure

def isLeapYear (year : Nat) : Bool :=
  year % 4 == 0 && (year % 100 != 0 || year % 400 == 0)

def daysInMonth (year month : Nat) : Nat :=
  if month = 2 then (if isLeapYear year then 29 else 28)
  else if month = 4 ∨ month = 6 ∨ month = 9 ∨ month = 11 then 30
  else 31

def date : Reader Unit := do
  let year ← twoSided 4 0 9999
  let _ ← char '-'
  let month ← twoSided 2 1 12
  let _ ← char '-'
  let _ ← twoSided 2 1 (daysInMonth year month)

def time : Reader Unit := do
  let _ ← twoSided 2 0 23
  let _ ← char ':'
  let _ ← twoSided 2 0 59
  let _ ← char ':'
  let _ ← twoSided 2 0 60
  let _ ← optional (do let _ ← char '.'; span1 Char.isDigit)

def offset : Reader Unit :=
  (do let _ ← one fun c => c == 'Z' || c == 'z') <|>
    (do
      let _ ← one fun c => c == '+' || c == '-'
      let _ ← twoSided 2 0 23
      let _ ← char ':'
      let _ ← twoSided 2 0 59)

def dateTime : Reader String :=
  String.ofList <$> taken
    ((do
      date
      let _ ← optional (do
        let _ ← one fun c => c == 'T' || c == 't' || c == ' '
        time
        let _ ← optional offset)) <|> time)

end PenRail.Toml
