import VhdlOrder.Settings.TomlReader

/-! # Dates and times in TOML

A date, a time, or both together with or without a distance from universal time. Every part has to be
in its range, but a month may have 31 days whatever month it is.
-/

namespace VhdlOrder.Toml

/-- Reads `count` digits behind a number `value`. -/
def digits (value : Nat) : Nat → Reader Nat
  | 0 => return value
  | count + 1 => do
      let c ← one Char.isDigit
      digits (10 * value + (c.toNat - 48)) count

/-- Reads a number of two digits from `first` to `last`. -/
def twoDigits (first last : Nat) : Reader Unit := do
  let value ← digits 0 2
  if first ≤ value && value ≤ last then return else failure

/-- Reads a date. -/
def date : Reader Unit := do
  let _ ← digits 0 4
  let _ ← one (· == '-')
  twoDigits 1 12
  let _ ← one (· == '-')
  twoDigits 1 31

/-- Reads hours and minutes. -/
def hoursAndMinutes : Reader Unit := do
  twoDigits 0 23
  let _ ← one (· == ':')
  twoDigits 0 59

/-- Reads a fraction of a second. -/
def fractionOfSecond : Reader Unit := do
  let _ ← one (· == '.')
  let _ ← one Char.isDigit
  let _ ← many Char.isDigit

/-- Reads a time. The last minute of a day may have a second more. -/
def time : Reader Unit := do
  hoursAndMinutes
  let _ ← one (· == ':')
  twoDigits 0 60
  let _ ← attempt fractionOfSecond

/-- Reads the distance from universal time. -/
def distanceFromUniversal : Reader Unit := do
  let c ← one fun c => ['Z', 'z', '+', '-'].contains c
  if c == '+' || c == '-' then hoursAndMinutes

/-- Reads the time that stands behind a date. -/
def timeOfDate : Reader Unit := do
  let _ ← one fun c => ['T', 't', ' '].contains c
  time
  let _ ← attempt distanceFromUniversal

/-- Reads a date, a time, or both. -/
def moment : Reader Unit := do
  match ← attempt date with
  | some _ =>
      let _ ← attempt timeOfDate
  | none => time

end VhdlOrder.Toml
