import RouteTrie.Document
import RouteTrie.Text.Digits

/-!
# Dates and times of TOML

A date, a time of day, or both with or without an offset.  JSON has no such values: a moment becomes
a table with one field that holds its normalized text.

## What is here

* `Date`, `Time`, `Offset`: the parts of a moment, each with a reader and a text.
* `moment?`: a moment as a document.
-/

set_option autoImplicit false

namespace RouteTrie.Toml

/-- A number of exactly `n` decimal digits. -/
def fixedNumber? (n : Nat) (cs : List Char) : Option (Nat × List Char) :=
  let digits := (cs.take n).filterMap Text.decimalDigit?
  if digits.length = n then some (Text.ofDigits 10 digits, cs.drop n) else none

/-- A number with zeros in front to at least `n` digits. -/
def padded (n k : Nat) : String :=
  let digits := Nat.toDigits 10 k
  String.ofList (List.replicate (n - digits.length) '0' ++ digits)

/-- The text after a character that has to be there. -/
def expect? (c : Char) : List Char → Option (List Char)
  | c' :: cs => if c' = c then some cs else none
  | [] => none

/-! ## Dates -/

/-- A day of the calendar. -/
structure Date where
  /-- The year. -/
  year : Nat
  /-- The month, from 1. -/
  month : Nat
  /-- The day of the month, from 1. -/
  day : Nat

/-- The number of days of a month. -/
def daysIn (year month : Nat) : Nat :=
  if month = 2 then
    if year % 4 = 0 && (year % 100 ≠ 0 || year % 400 = 0) then 29 else 28
  else if month = 4 || month = 6 || month = 9 || month = 11 then 30
  else 31

/-- A date: year, month and day with dashes between them. -/
def date? (cs : List Char) : Option (Date × List Char) := do
  let (year, cs) ← fixedNumber? 4 cs
  let cs ← expect? '-' cs
  let (month, cs) ← fixedNumber? 2 cs
  let cs ← expect? '-' cs
  let (day, cs) ← fixedNumber? 2 cs
  if 1 ≤ month && month ≤ 12 && 1 ≤ day && day ≤ daysIn year month then
    return (⟨year, month, day⟩, cs)
  else none

/-- The text of a date. -/
def Date.text (d : Date) : String :=
  padded 4 d.year ++ "-" ++ padded 2 d.month ++ "-" ++ padded 2 d.day

/-! ## Times -/

/-- A time of day. -/
structure Time where
  /-- The hour. -/
  hour : Nat
  /-- The minute. -/
  minute : Nat
  /-- The second, which may be a leap second. -/
  second : Nat
  /-- The billionths of a second. -/
  nanosecond : Nat

/-- A fraction of a second; digits after the ninth do not count. -/
def secondFraction : List Char → Nat × List Char
  | '.' :: cs =>
    let r := Text.splitDigits cs
    let kept := r.1.take 9
    if r.1.isEmpty then (0, '.' :: cs)
    else (Text.ofDigits 10 kept * Nat.pow 10 (9 - kept.length), r.2)
  | cs => (0, cs)

/-- A time of day: hour, minute and second with colons between them. -/
def time? (cs : List Char) : Option (Time × List Char) := do
  let (hour, cs) ← fixedNumber? 2 cs
  let cs ← expect? ':' cs
  let (minute, cs) ← fixedNumber? 2 cs
  let cs ← expect? ':' cs
  let (second, cs) ← fixedNumber? 2 cs
  let (nanosecond, cs) := secondFraction cs
  if hour ≤ 23 && minute ≤ 59 && second ≤ 60 then
    return (⟨hour, minute, second, nanosecond⟩, cs)
  else none

/-- The text of a time; zeros at the end of the fraction are not written. -/
def Time.text (t : Time) : String :=
  let fraction := (padded 9 t.nanosecond).toList.reverse.dropWhile (· == '0')
  padded 2 t.hour ++ ":" ++ padded 2 t.minute ++ ":" ++ padded 2 t.second ++
    (if t.nanosecond = 0 then "" else "." ++ String.ofList fraction.reverse)

/-! ## Offsets -/

/-- The distance of a clock from universal time. -/
inductive Offset where
  /-- Universal time. -/
  | utc
  /-- This many minutes ahead. -/
  | minutes (n : Int)

/-- An offset: the letter of universal time, or a sign with hours and minutes. -/
def offset? : List Char → Option (Offset × List Char)
  | [] => none
  | c :: cs =>
    if c = 'Z' || c = 'z' then some (.utc, cs)
    else if c = '+' || c = '-' then do
      let (hours, cs) ← fixedNumber? 2 cs
      let cs ← expect? ':' cs
      let (minutes, cs) ← fixedNumber? 2 cs
      let n : Int := hours * 60 + minutes
      if hours ≤ 23 && minutes ≤ 59 then return (.minutes (if c = '-' then -n else n), cs)
      else none
    else none

/-- The text of an offset. -/
def Offset.text : Offset → String
  | utc => "Z"
  | minutes n =>
    (if n < 0 then "-" else "+") ++ padded 2 (n.natAbs / 60) ++ ":" ++ padded 2 (n.natAbs % 60)

/-! ## Moments -/

/-- Whether a character may stand between a date and a time. -/
def isDateSeparator (c : Char) : Bool := c == 'T' || c == 't' || c == ' '

/-- The field that holds the text of a moment. -/
def momentField : String := "$__toml_private_datetime"

/-- A moment as a document. -/
def momentOf (text : String) : Document := .table [(momentField, .text text)]

/-- What may follow a date: a separator, a time and perhaps an offset. -/
def timeOfDay? : List Char → Option (String × List Char)
  | [] => none
  | c :: cs =>
    if isDateSeparator c then
      match time? cs with
      | some (time, cs) =>
        match cs with
        | c :: _ =>
          if c = 'Z' || c = 'z' || c = '+' || c = '-' then
            (offset? cs).map fun o => ("T" ++ time.text ++ o.1.text, o.2)
          else some ("T" ++ time.text, cs)
        | [] => some ("T" ++ time.text, [])
      | none => none
    else none

/-- A date, a date with a time, or a time. -/
def moment? (cs : List Char) : Option (Document × List Char) :=
  match date? cs with
  | some (date, cs) =>
    match timeOfDay? cs with
    | some (text, rest) => some (momentOf (date.text ++ text), rest)
    | none => some (momentOf date.text, cs)
  | none => (time? cs).map fun r => (momentOf r.1.text, r.2)

end RouteTrie.Toml
