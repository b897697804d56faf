/-!
Dates and times of day as YAML writes them, in the proleptic Gregorian calendar.
-/

namespace CurlSnippet.Yaml

structure TimeOfDay where
  hour : Nat
  minute : Nat
  second : Nat
  microsecond : Nat
  /-- Minutes east of Greenwich, if the zone is known. -/
  offset : Option Int
  deriving DecidableEq, Repr

structure Timestamp where
  year : Nat
  month : Nat
  day : Nat
  time : Option TimeOfDay
  deriving DecidableEq, Repr

namespace Timestamp

/-- Why a well-formed timestamp names no moment. -/
inductive Fault where
  | year (n : Nat)
  | month
  | day
  | hour
  | minute
  | second
  | offset (minutes : Int)
  deriving DecidableEq, Repr

/-- Decimal digits, with zeros in front up to a width. -/
def digits (width n : Nat) : List Char :=
  let ds := Nat.toDigits 10 n
  List.replicate (width - ds.length) '0' ++ ds

def number (n : Nat) : String := String.ofList (Nat.toDigits 10 n)

/-- A span of minutes as whole days and seconds below a day. -/
def spelledSpan (minutes : Int) : String :=
  let days := minutes.fdiv 1440
  let seconds := (minutes.fmod 1440 * 60).toNat
  let dayPart := if days = 0 then []
    else ["days=" ++ (if days < 0 then "-" else "") ++ number days.natAbs]
  let secondPart := if seconds = 0 then [] else ["seconds=" ++ number seconds]
  let parts := dayPart ++ secondPart
  "datetime.timedelta(" ++ (if parts.isEmpty then "0" else ", ".intercalate parts) ++ ")"

namespace Fault

def message : Fault → String
  | year n => "year " ++ number n ++ " is out of range"
  | month => "month must be in 1..12"
  | day => "day is out of range for month"
  | hour => "hour must be in 0..23"
  | minute => "minute must be in 0..59"
  | second => "second must be in 0..59"
  | offset m => "offset must be a timedelta strictly between -timedelta(hours=24) and " ++
      "timedelta(hours=24), not " ++ spelledSpan m ++ "."

end Fault

def isLeap (year : Nat) : Bool := (year % 4 == 0 && year % 100 != 0) || year % 400 == 0

def daysIn (year month : Nat) : Nat :=
  if month = 2 then (if isLeap year then 29 else 28)
  else if month = 4 ∨ month = 6 ∨ month = 9 ∨ month = 11 then 30
  else 31

/-- The number of days up to a date, counted from the first day of the year 1. -/
def dayNumber (t : Timestamp) : Int :=
  let years := t.year - 1
  let months := (List.range (t.month - 1)).foldl (fun days m => days + daysIn t.year (m + 1)) 0
  (years * 365 + years / 4 - years / 100 + years / 400 + months + t.day : Nat)

/-- The microseconds up to a moment at Greenwich, if the zone is known. -/
def instant? (t : Timestamp) : Option Int := do
  let time ← t.time
  let offset ← time.offset
  let minutes := (t.dayNumber * 24 + time.hour) * 60 + time.minute - offset
  return (minutes * 60 + time.second) * 1000000 + time.microsecond

/-- Whether two timestamps name one moment. Without a zone the fields decide. -/
def sameMoment (s t : Timestamp) : Bool :=
  match s.instant?, t.instant? with
  | some m, some n => m == n
  | _, _ => s == t

def checkTime (t : TimeOfDay) : Except Fault Unit :=
  match t.offset with
  | some m =>
    if 1440 ≤ m.natAbs then .error (.offset m)
    else fields
  | none => fields
where
  fields : Except Fault Unit :=
    if 23 < t.hour then .error .hour
    else if 59 < t.minute then .error .minute
    else if 59 < t.second then .error .second
    else .ok ()

def checkDate (t : Timestamp) : Except Fault Unit :=
  if t.year = 0 then .error (.year t.year)
  else if t.month = 0 ∨ 12 < t.month then .error .month
  else if t.day = 0 ∨ daysIn t.year t.month < t.day then .error .day
  else .ok ()

/-- The timestamp, if it names a moment. A wrong offset is reported before a wrong date, and that
before a wrong time. -/
def check (t : Timestamp) : Except Fault Timestamp := do
  match t.time with
  | some time =>
    match checkTime time with
    | .error (.offset m) => .error (.offset m)
    | r => do
      checkDate t
      r
  | none => checkDate t
  return t

/-- Between `least` and `most` digits, and what follows. -/
def takeDigits? (least most : Nat) (cs : List Char) : Option (Nat × List Char) :=
  let ds := (cs.take most).takeWhile Char.isDigit
  if ds.length < least then none else some (Nat.ofDigitChars 10 ds 0, cs.drop ds.length)

def expect? (mark : Char) : List Char → Option (List Char)
  | c :: rest => if c = mark then some rest else none
  | [] => none

def dropBlanks (cs : List Char) : List Char := cs.dropWhile fun c => c == ' ' || c == '\t'

/-- The offset of a zone that is all that is left. -/
def zone? (cs : List Char) : Option (Option Int) :=
  match dropBlanks cs with
  | [] => if cs.isEmpty then some none else none
  | ['Z'] => some (some 0)
  | sign :: rest =>
    if sign = '+' ∨ sign = '-' then do
      let (hours, rest) ← takeDigits? 1 2 rest
      let (minutes, rest) ← match rest with
        | ':' :: rest => takeDigits? 2 2 rest
        | rest => some (0, rest)
      let offset : Int := hours * 60 + minutes
      if rest.isEmpty then some (some (if sign = '-' then -offset else offset)) else none
    else none

/-- The fraction of a second in microseconds; further digits are dropped. -/
def fraction (cs : List Char) : Nat × List Char :=
  match cs with
  | '.' :: rest =>
    let ds := rest.takeWhile Char.isDigit
    let kept := ds.take 6
    let padded := kept ++ List.replicate (6 - kept.length) '0'
    (Nat.ofDigitChars 10 padded 0, rest.dropWhile Char.isDigit)
  | cs => (0, cs)

def time? (cs : List Char) : Option TimeOfDay := do
  let rest ← match cs with
    | c :: rest =>
      if c = 'T' ∨ c = 't' then some rest
      else if c = ' ' ∨ c = '\t' then some (dropBlanks rest)
      else none
    | [] => none
  let (hour, rest) ← takeDigits? 1 2 rest
  let (minute, rest) ← takeDigits? 2 2 (← expect? ':' rest)
  let (second, rest) ← takeDigits? 2 2 (← expect? ':' rest)
  let (microsecond, rest) := fraction rest
  return ⟨hour, minute, second, microsecond, ← zone? rest⟩

/-- Reads a timestamp. A date that stands alone has two digits for month and day if `strict`. -/
def ofChars? (strict : Bool) (cs : List Char) : Option Timestamp := do
  let (year, rest) ← takeDigits? 4 4 cs
  let (month, afterMonth) ← takeDigits? 1 2 (← expect? '-' rest)
  let (day, rest) ← takeDigits? 1 2 (← expect? '-' afterMonth)
  if rest.isEmpty then
    if strict && cs.length != 10 then none else some ⟨year, month, day, none⟩
  else return ⟨year, month, day, some (← time? rest)⟩

/-- The usual text: date, time and offset. -/
def text (t : Timestamp) : String :=
  let date := digits 4 t.year ++ '-' :: digits 2 t.month ++ '-' :: digits 2 t.day
  match t.time with
  | none => String.ofList date
  | some c =>
    let clock := digits 2 c.hour ++ ':' :: digits 2 c.minute ++ ':' :: digits 2 c.second
    let fraction := if c.microsecond = 0 then [] else '.' :: digits 6 c.microsecond
    let zone := match c.offset with
      | none => []
      | some m => (if m < 0 then '-' else '+') :: digits 2 (m.natAbs / 60) ++ ':' ::
          digits 2 (m.natAbs % 60)
    String.ofList (date ++ ' ' :: clock ++ fraction ++ zone)

/-- The text by fields, as messages show it. -/
def shown (t : Timestamp) : String :=
  let date := [number t.year, number t.month, number t.day]
  match t.time with
  | none => "datetime.date(" ++ ", ".intercalate date ++ ")"
  | some c =>
    let seconds :=
      if c.microsecond != 0 then [number c.second, number c.microsecond]
      else if c.second != 0 then [number c.second] else []
    let zone := match c.offset with
      | none => []
      | some m => ["tzinfo=" ++ (if m = 0 then "datetime.timezone.utc"
          else "datetime.timezone(" ++ spelledSpan m ++ ")")]
    "datetime.datetime(" ++
      ", ".intercalate (date ++ [number c.hour, number c.minute] ++ seconds ++ zone) ++ ")"

end Timestamp

end CurlSnippet.Yaml
