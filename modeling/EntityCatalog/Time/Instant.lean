import EntityCatalog.Text

/-!
# Instants

An instant in universal time with nanoseconds, and its text after RFC 3339. `Instant.text` writes
one form: `T` and `Z`, and 0, 3, 6 or 9 digits of a second, the fewest that lose nothing.
`Instant.parse?` reads every offset, and is lenient about blanks, single digits and the separators
of date, time and offset.

Days are counted from 1970-01-01. `dayOf` and `dateOf` go between a day and its date in the
proleptic Gregorian calendar, whose years begin in March for the purpose of the count.
-/

namespace EntityCatalog.Time

/-! ## The Gregorian calendar -/

structure Date where
  year : Int
  month : Nat
  day : Nat
  deriving DecidableEq, Repr

/-- Days in 400 years. -/
def eraDays : Int := 146097

/-- The day of 1970-01-01 counted from 0000-03-01. -/
def epochShift : Int := 719468

def isLeap (year : Int) : Bool := year % 4 == 0 && (year % 100 != 0 || year % 400 == 0)

def daysInMonth (year : Int) (month : Nat) : Nat :=
  match month with
  | 2 => if isLeap year then 29 else 28
  | 4 | 6 | 9 | 11 => 30
  | _ => 31

def Date.isValid (d : Date) : Bool :=
  1 ≤ d.month && d.month ≤ 12 && 1 ≤ d.day && d.day ≤ daysInMonth d.year d.month

/-- The day of a date. -/
def dayOf (d : Date) : Int :=
  let y := if d.month ≤ 2 then d.year - 1 else d.year
  let era := y / 400
  let yearOfEra := y - era * 400
  let monthFromMarch : Int := ((d.month + 9) % 12 : Nat)
  let dayOfYear := (153 * monthFromMarch + 2) / 5 + d.day - 1
  let dayOfEra := yearOfEra * 365 + yearOfEra / 4 - yearOfEra / 100 + dayOfYear
  era * eraDays + dayOfEra - epochShift

/-- The date of a day. -/
def dateOf (day : Int) : Date :=
  let z := day + epochShift
  let era := z / eraDays
  let dayOfEra := z - era * eraDays
  let yearOfEra := (dayOfEra - dayOfEra / 1460 + dayOfEra / 36524 - dayOfEra / 146096) / 365
  let dayOfYear := dayOfEra - (365 * yearOfEra + yearOfEra / 4 - yearOfEra / 100)
  let monthFromMarch := (5 * dayOfYear + 2) / 153
  let dayOfMonth := dayOfYear - (153 * monthFromMarch + 2) / 5 + 1
  let month := if monthFromMarch < 10 then monthFromMarch + 3 else monthFromMarch - 9
  let year := yearOfEra + era * 400
  ⟨if month ≤ 2 then year + 1 else year, month.toNat, dayOfMonth.toNat⟩

/-! ## Instants -/

/-- A day counted from 1970-01-01, a second of it, and nanoseconds. Within a leap second the
nanoseconds run on from `10^9`. -/
structure Instant where
  day : Int
  second : Nat
  nanos : Nat
  deriving DecidableEq, Repr

namespace Instant

def secondsPerDay : Nat := 86400

def nanosPerSecond : Nat := 1000000000

/-! ## Writing -/

/-- Decimal digits, zeros in front up to a width. -/
def padded (width n : Nat) : List Char :=
  let ds := Nat.toDigits 10 n
  List.replicate (width - ds.length) '0' ++ ds

/-- A year: four digits, or a sign and at least four for years that do not fit. -/
def yearText (year : Int) : List Char :=
  if 0 ≤ year ∧ year ≤ 9999 then padded 4 year.toNat
  else (if year < 0 then '-' else '+') :: padded 4 year.natAbs

/-- The fraction of a second. -/
def fractionText (nanos : Nat) : List Char :=
  if nanos = 0 then []
  else if nanos % 1000000 = 0 then '.' :: padded 3 (nanos / 1000000)
  else if nanos % 1000 = 0 then '.' :: padded 6 (nanos / 1000)
  else '.' :: padded 9 nanos

def text (t : Instant) : String :=
  let d := dateOf t.day
  let second := t.second % 60 + t.nanos / nanosPerSecond
  String.ofList (yearText d.year ++ '-' :: padded 2 d.month ++ '-' :: padded 2 d.day ++ 'T' ::
    padded 2 (t.second / 3600) ++ ':' :: padded 2 (t.second / 60 % 60) ++ ':' ::
    padded 2 second ++ fractionText (t.nanos % nanosPerSecond) ++ ['Z'])

/-! ## Reading -/

def skipBlank (cs : List Char) : List Char := cs.dropWhile Text.isBlank

/-- The number that decimal digits stand for. -/
def valueOf (ds : List Char) : Nat := ds.foldl (fun n c => n * 10 + (c.toNat - '0'.toNat)) 0

/-- A number of at least one digit and at most `width`. -/
def number? (width : Nat) (cs : List Char) : Option (Nat × List Char) :=
  let ds := (cs.take width).takeWhile Char.isDigit
  if ds.isEmpty then none else some (valueOf ds, cs.drop ds.length)

def literal? (c : Char) : List Char → Option (List Char)
  | d :: rest => if c = d then some rest else none
  | [] => none

/-- A year: up to four digits, or a sign and any number of them. -/
def year? (cs : List Char) : Option (Int × List Char) :=
  match skipBlank cs with
  | '-' :: rest => (number? rest.length rest).map fun p => (-(p.1 : Int), p.2)
  | '+' :: rest => (number? rest.length rest).map fun p => ((p.1 : Int), p.2)
  | rest => (number? 4 rest).map fun p => ((p.1 : Int), p.2)

/-- A field of two digits behind a separator, with blanks around the separator. -/
def next? (separator : Char) (cs : List Char) : Option (Nat × List Char) := do
  let rest ← literal? separator (skipBlank cs)
  number? 2 (skipBlank rest)

/-- The nanoseconds of a fraction; digits beyond the ninth are dropped. -/
def fraction? (cs : List Char) : Option (Nat × List Char) :=
  match cs with
  | '.' :: rest =>
    let ds := rest.takeWhile Char.isDigit
    if ds.isEmpty then none
    else
      let kept := ds.take 9 ++ List.replicate (9 - ds.length) '0'
      some (valueOf kept, rest.drop ds.length)
  | _ => some (0, cs)

def twoDigits? : List Char → Option (Nat × List Char)
  | a :: b :: rest =>
    if a.isDigit && b.isDigit then
      some ((a.toNat - '0'.toNat) * 10 + (b.toNat - '0'.toNat), rest)
    else none
  | _ => none

/-- The seconds by which an offset is ahead of universal time. -/
def offset? (cs : List Char) : Option (Int × List Char) :=
  match cs with
  | 'Z' :: rest | 'z' :: rest => some (0, rest)
  | sign :: rest =>
    if sign = '+' ∨ sign = '-' ∨ sign = '−' then do
      let (hours, rest) ← twoDigits? rest
      let rest := rest.dropWhile fun c => c = ':' || Text.isBlank c
      let (minutes, rest) ← twoDigits? rest
      if 60 ≤ minutes then none
      let seconds : Int := hours * 3600 + minutes * 60
      if (secondsPerDay : Int) ≤ seconds then none
      return (if sign = '+' then seconds else -seconds, rest)
    else none
  | [] => none

/-- The name of universal time in place of an offset. -/
def utc? (cs : List Char) : Option (List Char) :=
  match cs with
  | a :: b :: c :: rest =>
    if a.toUpper = 'U' ∧ b.toUpper = 'T' ∧ c.toUpper = 'C' then some rest else none
  | _ => none

/-- The years that have instants. -/
def yearRange : Int × Int := (-262143, 262142)

/-- The instant of a local date and time, `offset` seconds ahead of universal time. The second 60
is a leap second, which runs on from second 59. -/
def ofLocal? (date : Date) (hour minute second nanos : Nat) (offset : Int) : Option Instant :=
  let (second, nanos) :=
    if second = 60 then (59, nanos + nanosPerSecond) else (second, nanos)
  if !date.isValid || 23 < hour || 59 < minute || 59 < second then none
  else if date.year < yearRange.1 || yearRange.2 < date.year then none
  else
    let s : Int := (hour * 3600 + minute * 60 + second : Nat) - offset
    let day := dayOf date + s / secondsPerDay
    let year := (dateOf day).year
    if year < yearRange.1 || yearRange.2 < year then none
    else some ⟨day, (s % secondsPerDay).toNat, nanos⟩

/-- The instant a text names. -/
def parse? (s : String) : Option Instant := do
  let (year, rest) ← year? s.toList
  let (month, rest) ← next? '-' rest
  let (day, rest) ← next? '-' rest
  let rest ← match rest with
    | c :: rest => if c = 'T' ∨ c = 't' ∨ c = ' ' then some rest else none
    | [] => none
  let (hour, rest) ← number? 2 (skipBlank rest)
  let (minute, rest) ← next? ':' rest
  let (second, rest) ← next? ':' rest
  let (nanos, rest) ← fraction? rest
  let rest := skipBlank rest
  let (offset, rest) ← match utc? rest with
    | some rest => some (0, rest)
    | none => offset? rest
  if !(skipBlank rest).isEmpty then none
  ofLocal? ⟨year, month, day⟩ hour minute second nanos offset

end Instant

end EntityCatalog.Time
