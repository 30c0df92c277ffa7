import Scorecard.Text.Blank

/-!
Points in time on the UTC calendar, to the nanosecond. A point is a count of seconds since 1970 and
a count of nanoseconds, which go on beyond a thousand million during a leap second. Points are written
in the form of RFC 3339 with the zone `Z` and the fewest fraction digits, in groups of three, that lose
nothing. A text can tell a leap second only behind second 59, as second 60; that of a point with a
leap second elsewhere is the text of the second after it.

A date is valid when it is the date of its own day number, which saves a table of month lengths.
-/
namespace Scorecard

/-- A year, a month and a day of the Gregorian calendar, extended to all years. -/
structure Date where
  year : Int
  month : Nat
  day : Nat
deriving DecidableEq

namespace Date

/-- The number of the day, zero for 1970-01-01. Years are counted from March, so that a leap day is
the last of its year. -/
def dayNumber (d : Date) : Int :=
  let year := if d.month ≤ 2 then d.year - 1 else d.year
  let month := (d.month + 9) % 12
  let era := year / 400
  let yearOfEra := year - era * 400
  let dayOfYear : Int := (153 * month + 2) / 5 + d.day - 1
  era * 146097 + (yearOfEra * 365 + yearOfEra / 4 - yearOfEra / 100 + dayOfYear) - 719468

def ofDayNumber (n : Int) : Date :=
  let n := n + 719468
  let era := n / 146097
  let dayOfEra := n - era * 146097
  let yearOfEra := (dayOfEra - dayOfEra / 1460 + dayOfEra / 36524 - dayOfEra / 146096) / 365
  let dayOfYear := (dayOfEra - (365 * yearOfEra + yearOfEra / 4 - yearOfEra / 100)).toNat
  let month := (5 * dayOfYear + 2) / 153
  let day := dayOfYear - (153 * month + 2) / 5 + 1
  let year := yearOfEra + era * 400
  if month < 10 then ⟨year, month + 3, day⟩ else ⟨year + 1, month - 9, day⟩

def Valid (d : Date) : Prop := ofDayNumber d.dayNumber = d

instance (d : Date) : Decidable d.Valid := inferInstanceAs (Decidable (_ = _))

end Date

/-- The first second of the calendar, in the year -262143. -/
def firstSecond : Int := -8334601228800

/-- The last second of the calendar, in the year 262142. -/
def lastSecond : Int := 8210266876799

structure Timestamp where
  seconds : Int
  nanos : Nat
  in_range : firstSecond ≤ seconds ∧ seconds ≤ lastSecond
  nanos_lt : nanos < 2000000000
deriving DecidableEq

namespace Timestamp

def ofParts? (seconds : Int) (nanos : Nat) : Option Timestamp :=
  if h : firstSecond ≤ seconds ∧ seconds ≤ lastSecond then
    if h' : nanos < 2000000000 then some ⟨seconds, nanos, h, h'⟩ else none
  else none

/-- The point at which a second starts. -/
def ofSecond (seconds : Int) (h : firstSecond ≤ seconds ∧ seconds ≤ lastSecond) : Timestamp :=
  ⟨seconds, 0, h, by decide⟩

/-- A point is before another when its seconds are fewer, or equal and its nanoseconds fewer. -/
instance : LT Timestamp where
  lt s t := s.seconds < t.seconds ∨ (s.seconds = t.seconds ∧ s.nanos < t.nanos)

instance : LE Timestamp where
  le s t := s.seconds < t.seconds ∨ (s.seconds = t.seconds ∧ s.nanos ≤ t.nanos)

instance (s t : Timestamp) : Decidable (s < t) := inferInstanceAs (Decidable (_ ∨ _))

instance (s t : Timestamp) : Decidable (s ≤ t) := inferInstanceAs (Decidable (_ ∨ _))

/-- The point a number of minutes later, if the calendar reaches that far. A leap second has no
counterpart in a later minute, so it gives way to the second before. -/
def addMinutes? (t : Timestamp) (minutes : Nat) : Option Timestamp :=
  if minutes = 0 then some t else ofParts? (t.seconds + 60 * minutes) (t.nanos % 1000000000)

/-- Nanoseconds from `start` to `finish`. A leap second that lies between the two on the clock of
the day counts as a second of its own. -/
def nanosBetween (start finish : Timestamp) : Int :=
  let startOfDay := start.seconds % 86400
  let finishOfDay := finish.seconds % 86400
  let leap : Int :=
    if startOfDay < finishOfDay ∧ 1000000000 ≤ start.nanos then 1
    else if finishOfDay < startOfDay ∧ 1000000000 ≤ finish.nanos then -1
    else 0
  (finish.seconds - start.seconds + leap) * 1000000000 + (finish.nanos - start.nanos)

/-- Whole milliseconds from `start` to `finish`, zero if that is earlier. -/
def millisBetween (start finish : Timestamp) : Nat := (nanosBetween start finish).toNat / 1000000

def date (t : Timestamp) : Date := Date.ofDayNumber (t.seconds / 86400)

def secondOfDay (t : Timestamp) : Nat := (t.seconds % 86400).toNat

/-! ### Writing -/

/-- A natural in at least `width` digits. -/
def padded (width n : Nat) : List Char :=
  let digits := Nat.toDigits 10 n
  List.replicate (width - digits.length) '0' ++ digits

/-- Years of four digits stand alone, others carry a sign. -/
def yearChars (year : Int) : List Char :=
  if 0 ≤ year ∧ year ≤ 9999 then padded 4 year.toNat
  else (if year < 0 then '-' else '+') :: padded 4 year.natAbs

def fractionChars (nanos : Nat) : List Char :=
  if nanos = 0 then []
  else if nanos % 1000000 = 0 then '.' :: padded 3 (nanos / 1000000)
  else if nanos % 1000 = 0 then '.' :: padded 6 (nanos / 1000)
  else '.' :: padded 9 nanos

def chars (t : Timestamp) : List Char :=
  let second := t.secondOfDay % 60 + t.nanos / 1000000000
  yearChars t.date.year ++ '-' :: (padded 2 t.date.month ++ '-' :: (padded 2 t.date.day ++ 'T' ::
    (padded 2 (t.secondOfDay / 3600) ++ ':' :: (padded 2 (t.secondOfDay / 60 % 60) ++ ':' ::
      (padded 2 second ++ fractionChars (t.nanos % 1000000000) ++ ['Z'])))))

def text (t : Timestamp) : String := String.ofList t.chars

/-! ### Reading -/

def skipBlanks (cs : List Char) : List Char := cs.dropWhile Text.isBlank

/-- A natural of one digit up to `width` digits. -/
def readNat? (width : Nat) (cs : List Char) : Option (Nat × List Char) :=
  match (cs.take width).takeWhile Char.isDigit with
  | [] => none
  | digits => some (Nat.ofDigitChars 10 digits 0, cs.drop digits.length)

def readField? (width : Nat) (cs : List Char) : Option (Nat × List Char) := readNat? width (skipBlanks cs)

def readYear? (cs : List Char) : Option (Int × List Char) :=
  match skipBlanks cs with
  | '-' :: cs => (readNat? cs.length cs).map fun (n, cs) => (-(n : Int), cs)
  | '+' :: cs => (readNat? cs.length cs).map fun (n, cs) => (n, cs)
  | cs => (readNat? 4 cs).map fun (n, cs) => (n, cs)

/-- The text behind a separator, which blanks may precede. -/
def readSeparator? (c : Char) (cs : List Char) : Option (List Char) :=
  match skipBlanks cs with
  | c' :: cs => if c' = c then some cs else none
  | [] => none

/-- Nanoseconds behind a point, if there is one. Digits beyond the ninth are passed over. -/
def readFraction? : List Char → Option (Nat × List Char)
  | '.' :: cs =>
    match cs.takeWhile Char.isDigit with
    | [] => none
    | digits =>
      let nine := digits.take 9
      some (Nat.ofDigitChars 10 nine 0 * Nat.pow 10 (9 - nine.length), cs.drop digits.length)
  | cs => some (0, cs)

def readTwoDigits? : List Char → Option (Nat × List Char)
  | a :: b :: cs => if a.isDigit ∧ b.isDigit then some (Nat.ofDigitChars 10 [a, b] 0, cs) else none
  | _ => none

/-- A signed offset in seconds: two digits of hours and two of minutes, which colons and blanks may
separate. -/
def readOffset? (negative : Bool) (cs : List Char) : Option (Int × List Char) := do
  let (hours, cs) ← readTwoDigits? cs
  let (minutes, cs) ← readTwoDigits? (cs.dropWhile fun c => c = ':' || Text.isBlank c)
  let seconds : Int := hours * 3600 + minutes * 60
  if minutes < 60 ∧ seconds < 86400 then some (if negative then -seconds else seconds, cs) else none

/-- The offset of the zone from UTC. -/
def readZone? (cs : List Char) : Option (Int × List Char) :=
  if (cs.take 3).map Char.toUpper = ['U', 'T', 'C'] then some (0, cs.drop 3)
  else
    match cs with
    | c :: cs =>
      if c = 'Z' ∨ c = 'z' then some (0, cs)
      else if c = '+' then readOffset? false cs
      else if c = '-' ∨ c = '−' then readOffset? true cs
      else none
    | [] => none

def readDate? (cs : List Char) : Option (Date × List Char) := do
  let (year, cs) ← readYear? cs
  let cs ← readSeparator? '-' cs
  let (month, cs) ← readField? 2 cs
  let cs ← readSeparator? '-' cs
  let (day, cs) ← readField? 2 cs
  let date : Date := ⟨year, month, day⟩
  if 1 ≤ month ∧ month ≤ 12 ∧ date.Valid then some (date, cs) else none

/-- The second of the day and the nanoseconds; second 60 is the leap second of second 59. -/
def readTime? (cs : List Char) : Option (Nat × Nat × List Char) := do
  let (hour, cs) ← readField? 2 cs
  let cs ← readSeparator? ':' cs
  let (minute, cs) ← readField? 2 cs
  let cs ← readSeparator? ':' cs
  let (second, cs) ← readField? 2 cs
  let (nanos, cs) ← readFraction? cs
  if hour < 24 ∧ minute < 60 ∧ second ≤ 60 then
    if second = 60 then some (hour * 3600 + minute * 60 + 59, nanos + 1000000000, cs)
    else some (hour * 3600 + minute * 60 + second, nanos, cs)
  else none

def ofChars? (cs : List Char) : Option Timestamp := do
  let (date, cs) ← readDate? cs
  let cs ←
    match cs with
    | c :: cs => if c = 'T' ∨ c = 't' ∨ c = ' ' then some cs else none
    | [] => none
  let (second, nanos, cs) ← readTime? cs
  let (offset, cs) ← readZone? (skipBlanks cs)
  if !(skipBlanks cs).isEmpty then none
  else
    let here ← ofParts? (date.dayNumber * 86400 + second) nanos
    ofParts? (here.seconds - offset) here.nanos

def ofString? (s : String) : Option Timestamp := ofChars? s.toList

end Timestamp

end Scorecard
