import Crossing.Text.Blank

/-!
# Timestamps

Moments in universal time with nanoseconds, and their text. Reading is lenient: blanks may stand
between the parts, a year with a sign may have any number of digits, a space or either case of `T`
divides date and time, and the offset may be `UTC`, `Z` or hours and minutes. A leap second may end
any minute.
-/

namespace Crossing

/-- A moment in universal time. A leap second is second 60. -/
structure Timestamp where
  year : Int
  month : Nat
  day : Nat
  hour : Nat
  minute : Nat
  second : Nat
  nanos : Nat := 0
  deriving DecidableEq, Repr

namespace Timestamp

/-- Why a text is no timestamp. -/
inductive Flaw
  | invalid
  | outOfRange
  | tooShort
  | tooLong
  | impossible
  deriving DecidableEq, Repr

/-- A flaw in words. -/
def Flaw.message : Flaw → String
  | invalid => "input contains invalid characters"
  | outOfRange => "input is out of range"
  | tooShort => "premature end of input"
  | tooLong => "trailing input"
  | impossible => "no possible date and time matching input"

/-! ### The calendar -/

/-- Whether a year has 366 days. -/
def isLeapYear (y : Int) : Bool := y % 4 == 0 && (y % 100 != 0 || y % 400 == 0)

/-- The number of days of a month. -/
def daysInMonth (y : Int) (m : Nat) : Nat :=
  if m == 2 then (if isLeapYear y then 29 else 28)
  else if m == 4 || m == 6 || m == 9 || m == 11 then 30
  else 31

/-- The number of days from the first of March of the year zero; years begin in March here. -/
def dayNumber (y : Int) (m d : Nat) : Int :=
  let y' := if m ≤ 2 then y - 1 else y
  let m' := if m ≤ 2 then m + 9 else m - 3
  365 * y' + y' / 4 - y' / 100 + y' / 400 + ((153 * m' + 2) / 5 : Nat) + (d - 1 : Int)

/-- The date of a day number. -/
def dateOfDay (n : Int) : Int × Nat × Nat :=
  let era := n / 146097
  let doe := (n % 146097).toNat
  let yoe := (doe - doe / 1460 + doe / 36524 - doe / 146096) / 365
  let doy := doe - (365 * yoe + yoe / 4 - yoe / 100)
  let mp := (5 * doy + 2) / 153
  let d := doy - (153 * mp + 2) / 5 + 1
  let m := if mp < 10 then mp + 3 else mp - 9
  let y := (yoe : Int) + era * 400
  (if m ≤ 2 then y + 1 else y, m, d)

/-- The years that a date may have. -/
def inYears (y : Int) : Bool := -262143 ≤ y && y ≤ 262142

/-! ### Reading -/

/-- A run of at least one and at most `most` digits whose value has at most 63 bits. -/
def number (most : Option Nat) (cs : List Char) : Except Flaw (Nat × List Char) :=
  let run := cs.takeWhile Char.isDigit
  let digits := match most with
    | some n => run.take n
    | none => run
  if cs.isEmpty then .error .tooShort
  else if digits.isEmpty then .error .invalid
  else
    let n := digits.foldl (fun n c ↦ 10 * n + (c.toNat - 48)) 0
    if Nat.pow 2 63 ≤ n then .error .outOfRange else .ok (n, cs.drop digits.length)

/-- A number after blanks, within bounds. -/
def part (least most : Nat) (cs : List Char) : Except Flaw (Nat × List Char) := do
  let (n, r) ← number (some 2) (Text.trimStart cs)
  if n < least || most < n then throw .outOfRange
  return (n, r)

/-- A mark after blanks. -/
def mark (c : Char) (cs : List Char) : Except Flaw (List Char) :=
  match Text.trimStart cs with
  | [] => .error .tooShort
  | x :: r => if x == c then .ok r else .error .invalid

/-- A year: four digits at most, or a sign and any number of them. -/
def yearPart (cs : List Char) : Except Flaw (Int × List Char) := do
  let cs := Text.trimStart cs
  let (y, r) ←
    match cs with
    | '-' :: r => do
      let (n, r) ← number none r
      pure (-(n : Int), r)
    | '+' :: r => do
      let (n, r) ← number none r
      pure ((n : Int), r)
    | _ => do
      let (n, r) ← number (some 4) cs
      pure ((n : Int), r)
  if y < -2147483648 || 2147483648 ≤ y then throw .outOfRange
  return (y, r)

/-- A fraction of a second after its point, in nanoseconds; digits past the ninth are dropped. -/
def fraction (cs : List Char) : Except Flaw (Nat × List Char) := do
  let (n, r) ← number (some 9) cs
  let digits := cs.length - r.length
  return (n * Nat.pow 10 (9 - digits), r.dropWhile Char.isDigit)

/-- The fraction of a second, if there is one. -/
def optionalFraction : List Char → Except Flaw (Nat × List Char)
  | '.' :: r => fraction r
  | r => .ok (0, r)

/-- The mark between date and time. -/
def divider : List Char → Except Flaw (List Char)
  | [] => .error .tooShort
  | c :: r => if c == 'T' || c == 't' || c == ' ' then .ok r else .error .invalid

/-- Two octets of a text that must be digits. -/
def twoDigits (cs : List Char) : Except Flaw (Nat × Nat × List Char) :=
  match cs with
  | [] => .error .tooShort
  | [a] => .error (if a.toNat < 128 then .tooShort else .invalid)
  | a :: b :: r =>
    if a.isDigit && b.isDigit then .ok (a.toNat - 48, b.toNat - 48, r) else .error .invalid

/-- An offset from universal time, in seconds. -/
def offset (cs : List Char) : Except Flaw (Int × List Char) := do
  match cs with
  | [] => throw .tooShort
  | s :: r =>
    if s == 'Z' || s == 'z' then return (0, r)
    let negative ←
      if s == '+' then pure false
      else if s == '-' || s == '−' then pure true
      else throw .invalid
    let (h, h', r) ← twoDigits r
    let r := r.dropWhile fun c ↦ c == ':' || Text.isBlank c
    let (m, m', r) ← twoDigits r
    if 6 ≤ m then throw .outOfRange
    let seconds : Int := ((10 * h + h') * 3600 + (10 * m + m') * 60 : Nat)
    return (if negative then -seconds else seconds, r)

/-- Letters of ASCII in upper case. -/
def isUtc (cs : List Char) : Bool := (cs.take 3).map Char.toUpper == ['U', 'T', 'C']

/-- The offset after blanks, or the name of universal time. -/
def zone (cs : List Char) : Except Flaw (Int × List Char) :=
  let r := Text.trimStart cs
  if isUtc r then .ok (0, r.drop 3) else offset r

/-- Moves a local date and time to universal time. -/
def toUniversal (t : Timestamp) (shift : Int) : Except Flaw Timestamp := do
  if !inYears t.year || daysInMonth t.year t.month < t.day then throw .outOfRange
  if 86400 ≤ shift.natAbs then throw .outOfRange
  -- A leap second moves as the second before it.
  let second := min t.second 59
  let seconds : Int :=
    dayNumber t.year t.month t.day * 86400 + (t.hour * 3600 + t.minute * 60 + second : Nat) - shift
  let (year, month, day) := dateOfDay (seconds / 86400)
  if !inYears year then throw .impossible
  let s := (seconds % 86400).toNat
  return ⟨year, month, day, s / 3600, s / 60 % 60, s % 60 + (t.second - second), t.nanos⟩

/-- Reads a timestamp. -/
def ofString (text : String) : Except Flaw Timestamp := do
  let (year, r) ← yearPart text.toList
  let r ← mark '-' r
  let (month, r) ← part 1 12 r
  let r ← mark '-' r
  let (day, r) ← part 1 31 r
  let r ← divider r
  let (hour, r) ← part 0 23 r
  let r ← mark ':' r
  let (minute, r) ← part 0 59 r
  let r ← mark ':' r
  let (second, r) ← part 0 60 r
  let (nanos, r) ← optionalFraction r
  let (shift, r) ← zone r
  if !(Text.trimStart r).isEmpty then throw .tooLong
  toUniversal ⟨year, month, day, hour, minute, second, nanos⟩ shift

/-- The day number of the first day of 1970. -/
def unixEpoch : Int := dayNumber 1970 1 1

/-- The moment some seconds after the first day of 1970 began. -/
def ofUnix (seconds : Nat) : Timestamp :=
  let (year, month, day) := dateOfDay (unixEpoch + (seconds / 86400 : Nat))
  let s := seconds % 86400
  { year, month, day, hour := s / 3600, minute := s / 60 % 60, second := s % 60 }

/-! ### Writing -/

/-- A number with leading zeros up to a width. -/
def digitsWide (width n : Nat) : String :=
  let ds := Nat.toDigits 10 n
  String.ofList (List.replicate (width - ds.length) '0' ++ ds)

/-- A year: four digits, or a sign and at least four digits where it needs one. -/
def yearText (y : Int) : String :=
  if 0 ≤ y && y ≤ 9999 then digitsWide 4 y.natAbs
  else (if y < 0 then "-" else "+") ++ digitsWide 4 y.natAbs

/-- A fraction of a second, to thousandths, millionths or billionths as needed. -/
def fractionText (n : Nat) : String :=
  if n == 0 then ""
  else if n % 1000000 == 0 then "." ++ digitsWide 3 (n / 1000000)
  else if n % 1000 == 0 then "." ++ digitsWide 6 (n / 1000)
  else "." ++ digitsWide 9 n

/-- A timestamp as text. -/
def toText (t : Timestamp) : String :=
  yearText t.year ++ "-" ++ digitsWide 2 t.month ++ "-" ++ digitsWide 2 t.day ++ "T" ++
    digitsWide 2 t.hour ++ ":" ++ digitsWide 2 t.minute ++ ":" ++ digitsWide 2 t.second ++
    fractionText t.nanos ++ "Z"

end Timestamp

end Crossing
