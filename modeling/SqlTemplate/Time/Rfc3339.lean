import SqlTemplate.Time.Calendar
import SqlTemplate.Time.Instant

/-!
# Instants as text

An instant is written as date, `T`, time of day and `Z`, with as many fractional digits as it
needs; a year before 0 has a sign and six digits. It is read in that notation or with an offset
from universal time, also without the marks between the numbers and without trailing parts of
the time of day.
-/

set_option autoImplicit false

namespace SqlTemplate

/-! ## Writing -/

/-- A number with zeros in front, `width` digits at least. -/
def padded (width n : Nat) : List Char :=
  let digits := Nat.toDigits 10 n
  List.replicate (width - digits.length) '0' ++ digits

/-- The digits of a fraction of nine places without the zeros at its end. -/
def fractionDigits (nanos : Nat) : List Char :=
  ((padded 9 nanos).reverse.dropWhile (· = '0')).reverse

/-- A year: four digits, or a sign and six digits before the year 0. -/
def writeYear (year : Int) : List Char :=
  if year < 0 then '-' :: padded 6 year.natAbs else padded 4 year.toNat

/-- An instant in universal time. -/
def Instant.toText (t : Instant) : String :=
  let seconds := Int.fdiv t.nanos nanosPerSecond
  let nanos := (Int.fmod t.nanos nanosPerSecond).toNat
  let date := Date.ofDays (Int.fdiv seconds 86400)
  let ofDay := (Int.fmod seconds 86400).toNat
  let fraction := if nanos = 0 then [] else '.' :: fractionDigits nanos
  String.ofList (writeYear date.year ++ ['-'] ++ padded 2 date.month ++ ['-'] ++
    padded 2 date.day ++ ['T'] ++ padded 2 (ofDay / 3600) ++ [':'] ++
    padded 2 (ofDay / 60 % 60) ++ [':'] ++ padded 2 (ofDay % 60) ++ fraction ++ ['Z'])

/-! ## Reading -/

/-- Reads exactly `count` digits. -/
def takeDigits (count : Nat) (s : List Char) : Option (Nat × List Char) :=
  let digits := s.take count
  if digits.length = count ∧ digits.all Char.isDigit then
    some (Nat.ofDigitChars 10 digits 0, s.drop count)
  else none

/-- Reads two digits that make a number of at most `limit`. -/
def takePair (limit : Nat) (s : List Char) : Option (Nat × List Char) :=
  match takeDigits 2 s with
  | some (n, rest) => if n ≤ limit then some (n, rest) else none
  | none => none

/-- Reads a year. The year 0 has no negative form. -/
def takeYear : List Char → Option (Int × List Char)
  | '+' :: s => (takeDigits 6 s).map fun (n, rest) => ((n : Int), rest)
  | '-' :: s =>
    match takeDigits 6 s with
    | some (n, rest) => if n = 0 then none else some (-(n : Int), rest)
    | none => none
  | s => (takeDigits 4 s).map fun (n, rest) => ((n : Int), rest)

/-- Reads a date, with marks between its numbers or without. -/
def takeDate (s : List Char) : Option (Date × List Char) := do
  let (year, s) ← takeYear s
  let marked := s.head? = some '-'
  let (month, s) ← takePair 12 (if marked then s.drop 1 else s)
  let s ← if marked then (if s.head? = some '-' then some (s.drop 1) else none) else some s
  let (day, s) ← takePair 31 s
  let date : Date := ⟨year, month, day⟩
  if date.isValid && year ≤ 9999 && -9999 ≤ year then some (date, s) else none

/-- Whether another number of a time of day follows, and the text from that number on. -/
def afterMark (marked : Bool) (s : List Char) : Option (List Char) :=
  if marked then (if s.head? = some ':' then some (s.drop 1) else none)
  else if (s.head?.map Char.isDigit).getD false then some s
  else none

/-- Reads a fraction of a second, in nanoseconds. Nine digits at most belong to it. -/
def takeFraction (s : List Char) : Option (Nat × List Char) :=
  match s with
  | c :: rest =>
    if c = '.' ∨ c = ',' then
      let digits := (rest.take 9).takeWhile Char.isDigit
      if digits = [] then none
      else some (Nat.ofDigitChars 10 digits 0 * Nat.pow 10 (9 - digits.length), rest.drop digits.length)
    else some (0, s)
  | [] => some (0, s)

/-- Reads a time of day, in nanoseconds since midnight. A leap second is the one before it. -/
def takeTime (s : List Char) : Option (Int × List Char) := do
  let (hour, s) ← takePair 23 s
  let marked := s.head? = some ':'
  match afterMark marked s with
  | none => some (hour * 3600 * nanosPerSecond, s)
  | some s =>
    let (minute, s) ← takePair 59 s
    match afterMark marked s with
    | none => some ((hour * 3600 + minute * 60) * nanosPerSecond, s)
    | some s =>
      let (second, s) ← takePair 60 s
      let (nanos, s) ← takeFraction s
      some ((hour * 3600 + minute * 60 + min second 59) * nanosPerSecond + nanos, s)

/-- Reads the numbers of an offset, in seconds. -/
def takeOffsetNumbers (s : List Char) : Option (Int × List Char) := do
  let (hour, s) ← takePair 25 s
  let marked := s.head? = some ':'
  match afterMark marked s with
  | none => some (hour * 3600, s)
  | some s =>
    let (minute, s) ← takePair 59 s
    match afterMark marked s with
    | none => some (hour * 3600 + minute * 60, s)
    | some s =>
      let (second, s) ← takePair 59 s
      some (hour * 3600 + minute * 60 + second, s)

/-- Reads an offset from universal time, in seconds. -/
def takeOffset : List Char → Option (Int × List Char)
  | 'Z' :: s => some (0, s)
  | 'z' :: s => some (0, s)
  | '+' :: s => takeOffsetNumbers s
  | '-' :: s => (takeOffsetNumbers s).map fun (n, rest) => (-n, rest)
  | _ => none

/-- The instant that a text writes. -/
def Instant.ofText? (text : String) : Option Instant := do
  let (date, s) ← takeDate text.toList
  let s ← match s with
    | c :: rest => if c = 'T' ∨ c = 't' ∨ c = ' ' then some rest else none
    | [] => none
  let (time, s) ← takeTime s
  let (offset, s) ← takeOffset s
  if s = [] then
    Instant.ofNanos? ((date.toDays * 86400 - offset) * nanosPerSecond + time)
  else none

end SqlTemplate
