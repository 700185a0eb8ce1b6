import SqlAssembly.Calendar.Date

/-! # Timestamps

A date with a time of day to the nanosecond and no time zone.  Second 60 is a leap second, allowed
in every minute.  The fraction is written with three, six or nine digits, the fewest that are exact,
and not at all when it is zero.
-/
namespace SqlAssembly.Calendar

def IsTime (hour minute second nanos : Nat) : Prop :=
  hour < 24 ∧ minute < 60 ∧ second ≤ 60 ∧ nanos < 1000000000

instance (hour minute second nanos : Nat) : Decidable (IsTime hour minute second nanos) :=
  inferInstanceAs (Decidable (_ ∧ _))

structure Timestamp where
  date : Date
  hour : Nat
  minute : Nat
  second : Nat
  nanos : Nat
  exists_time : IsTime hour minute second nanos
deriving DecidableEq

namespace Timestamp

def ofParts? (date : Date) (hour minute second nanos : Nat) : Option Timestamp :=
  if h : IsTime hour minute second nanos then some ⟨date, hour, minute, second, nanos, h⟩ else none

/-- Nanoseconds since the start of 2000-01-01, a leap second lying on the next second. -/
def nanosSince2000 (t : Timestamp) : Int :=
  let seconds := (t.hour * 60 + t.minute) * 60 + t.second
  (t.date.daysSince2000 * 86400 + seconds) * 1000000000 + t.nanos

def fractionText (nanos : Nat) : String :=
  if nanos = 0 then ""
  else if nanos % 1000000 = 0 then "." ++ Date.padded 3 (nanos / 1000000)
  else if nanos % 1000 = 0 then "." ++ Date.padded 6 (nanos / 1000)
  else "." ++ Date.padded 9 nanos

def toText (separator : String) (t : Timestamp) : String :=
  t.date.toText ++ separator ++ Date.padded 2 t.hour ++ ":" ++ Date.padded 2 t.minute ++ ":" ++
    Date.padded 2 t.second ++ fractionText t.nanos

/-- A fraction of a second in nanoseconds.  Digits after the ninth are passed over. -/
def readFraction? : List Char → Option (Nat × List Char)
  | '.' :: rest =>
    let digits := (rest.takeWhile Char.isDigit).take 9
    if digits = [] then none
    else
      let zeros := List.replicate (9 - digits.length) '0'
      some (Nat.ofDigitChars 10 (digits ++ zeros) 0, rest.dropWhile Char.isDigit)
  | cs => some (0, cs)

/-- The timestamp that a text writes, with `T` between date and time. -/
def read? (text : String) : Option Timestamp := do
  let (date, cs) ← readDate? text.toList
  let cs ← readMark? 'T' cs
  let (hour, cs) ← readField? cs
  let cs ← readMark? ':' cs
  let (minute, cs) ← readField? cs
  let cs ← readMark? ':' cs
  let (second, cs) ← readField? cs
  let (nanos, cs) ← readFraction? cs
  if Text.trimStartChars cs = [] then ofParts? date hour minute second nanos else none

end Timestamp

end SqlAssembly.Calendar
