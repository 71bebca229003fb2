import DbClient.Number.Integer
import DbClient.Text.Numeral

/-! Moments without a time zone: seconds from the first of January 1970 and nanoseconds, with room
for a leap second. In a native cell a moment is a count of microseconds. Days belong to the proleptic
Gregorian calendar, with years taken to begin in March, so that the leap day is the last of its year. -/
namespace DbClient

-- a power is the one of core, whichever others are in scope
attribute [local instance (high)] instPowNat

/-! ### The calendar -/

/-- A day of the calendar. -/
structure Date where
  year : Int
  month : Nat
  day : Nat
  deriving Repr, DecidableEq

namespace Date

def isLeapYear (year : Int) : Bool := year % 4 = 0 && (year % 100 ≠ 0 || year % 400 = 0)

def daysInMonth (year : Int) (month : Nat) : Nat :=
  if month = 2 then (if isLeapYear year then 29 else 28)
  else if month = 4 ∨ month = 6 ∨ month = 9 ∨ month = 11 then 30 else 31

/-- The day exists in its month. -/
def Exists (d : Date) : Prop :=
  1 ≤ d.month ∧ d.month ≤ 12 ∧ 1 ≤ d.day ∧ d.day ≤ daysInMonth d.year d.month

instance (d : Date) : Decidable d.Exists := inferInstanceAs (Decidable (_ ∧ _ ∧ _ ∧ _))

/-- The day's number, counted from 1970-01-01. -/
def toDays (d : Date) : Int :=
  let y : Int := if d.month ≤ 2 then d.year - 1 else d.year
  let m : Int := if d.month ≤ 2 then d.month + 9 else d.month - 3
  365 * y + y / 4 - y / 100 + y / 400 + (153 * m + 2) / 5 + d.day - 1 - 719468

/-- The day of a number. -/
def ofDays (n : Int) : Date :=
  let z := n + 719468
  let era := z / 146097
  let dayOfEra := z % 146097
  let yearOfEra := (dayOfEra - dayOfEra / 1460 + dayOfEra / 36524 - dayOfEra / 146096) / 365
  let dayOfYear := dayOfEra - (365 * yearOfEra + yearOfEra / 4 - yearOfEra / 100)
  let m := (5 * dayOfYear + 2) / 153
  let day := (dayOfYear - (153 * m + 2) / 5 + 1).toNat
  let month := (if m < 10 then m + 3 else m - 9).toNat
  ⟨yearOfEra + era * 400 + (if month ≤ 2 then 1 else 0), month, day⟩

end Date

/-! ### Moments -/

/-- A moment of the calendar years -262143 to 262142. Nanoseconds from one second up stand for a
leap second, which follows the second that is counted. -/
structure DateTime where
  seconds : Int
  nanos : Nat
  inRange : -8334601228800 ≤ seconds ∧ seconds ≤ 8210266876799
  nanos_lt : nanos < 2000000000
  deriving DecidableEq

namespace DateTime

instance : Repr DateTime := ⟨fun d prec => reprPrec (d.seconds, d.nanos) prec⟩

/-- The moment of a timestamp, whose leap second can only follow the last second of a minute. -/
def ofTimestamp? (seconds : Int) (nanos : Nat) : Option DateTime :=
  if h : -8334601228800 ≤ seconds ∧ seconds ≤ 8210266876799 then
    if h' : nanos < 1000000000 ∨ nanos < 2000000000 ∧ seconds % 60 = 59 then
      some ⟨seconds, nanos, h, by omega⟩
    else none
  else none

def epoch : DateTime := ⟨0, 0, by decide, by decide⟩

instance : Inhabited DateTime := ⟨epoch⟩

theorem holds_micros (d : DateTime) :
    IntType.int64.Holds (d.seconds * 1000000 + ((d.nanos / 1000 : Nat) : Int)) := by
  have := d.inRange
  have := d.nanos_lt
  simp only [IntType.Holds, IntType.min, IntType.max, IntType.signed, IntType.bits, IntType.size,
    if_true]
  omega

/-- The microseconds from the epoch, rounded down; a leap second counts as the second after it. -/
def micros (d : DateTime) : Fixed .int64 :=
  ⟨d.seconds * 1000000 + ((d.nanos / 1000 : Nat) : Int), d.holds_micros⟩

/-- The moment of a count of microseconds, when its second lies in the range. -/
def ofMicros? (m : Int) : Option DateTime :=
  ofTimestamp? (m / 1000000) ((m % 1000000) * 1000).toNat

/-- Reads at least one and at most `width` digits, after blanks. -/
def readNumber? (width : Nat) (s : List Char) : Option (Nat × List Char) :=
  let s := Text.dropBlank s
  let ds := (s.take width).takeWhile Text.isDigit
  if ds = [] then none
  else some (ds.foldl (fun n c => n * 10 + (Text.digit? c).getD 0) 0, s.drop ds.length)

/-- Reads one fixed character, after blanks. -/
def readMark? (mark : Char) (s : List Char) : Option (List Char) :=
  match Text.dropBlank s with
  | c :: rest => if c = mark then some rest else none
  | [] => none

/-- Reads a year: four digits at most, or any number of them after a sign. -/
def readYear? (s : List Char) : Option (Int × List Char) :=
  match Text.dropBlank s with
  | '-' :: rest => if rest.head?.any Text.isDigit
      then (readNumber? rest.length rest).map fun (n, rest) => (-(n : Int), rest) else none
  | '+' :: rest => if rest.head?.any Text.isDigit
      then (readNumber? rest.length rest).map fun (n, rest) => ((n : Int), rest) else none
  | s => (readNumber? 4 s).map fun (n, rest) => ((n : Int), rest)

/-- Reads a fraction of a second, if there is a point: nine digits count, further ones are skipped.
-/
def readFraction? : List Char → Option (Nat × List Char)
  | '.' :: s =>
    let ds := s.takeWhile Text.isDigit
    if ds = [] then none
    else
      let nine := ds.take 9
      let n := nine.foldl (fun n c => n * 10 + (Text.digit? c).getD 0) 0
      some (n * 10 ^ (9 - nine.length), s.dropWhile Text.isDigit)
  | s => some (0, s)

/-- The moment of a day and a time of day; second 60 is the leap second of its minute. -/
def ofParts? (date : Date) (hour minute second nanos : Nat) : Option DateTime :=
  if date.Exists ∧ hour < 24 ∧ minute < 60 ∧ second ≤ 60 then
    let leap := second = 60
    let time := hour * 3600 + minute * 60 + (if leap then 59 else second)
    ofTimestamp? (date.toDays * 86400 + time) (nanos + if leap then 1000000000 else 0)
  else none

/-- Reads a text such as `2015-09-18T23:56:04.5`. Blanks may stand before each number and each mark
of the date, before the colons and at the end. -/
def read? (s : List Char) : Option DateTime := do
  let (year, s) ← readYear? s
  let s ← readMark? '-' s
  let (month, s) ← readNumber? 2 s
  let s ← readMark? '-' s
  let (day, s) ← readNumber? 2 s
  let s ← readMark? 'T' s
  let (hour, s) ← readNumber? 2 s
  let s ← readMark? ':' s
  let (minute, s) ← readNumber? 2 s
  let s ← readMark? ':' s
  let (second, s) ← readNumber? 2 s
  let (nanos, s) ← readFraction? s
  if Text.dropBlank s = [] then ofParts? ⟨year, month, day⟩ hour minute second nanos else none

/-- A number with at least `width` digits. -/
def padded (width n : Nat) : List Char :=
  let ds := Text.digits n
  List.replicate (width - ds.length) '0' ++ ds

/-- A year: four digits, with a sign when it is negative or longer. -/
def yearText (year : Int) : List Char :=
  if 0 ≤ year ∧ year ≤ 9999 then padded 4 year.toNat
  else (if year < 0 then '-' else '+') :: padded 4 year.natAbs

/-- A fraction of a second in three, six or nine digits, as few as hold it. -/
def fractionText (nanos : Nat) : List Char :=
  if nanos = 0 then []
  else if nanos % 1000000 = 0 then '.' :: padded 3 (nanos / 1000000)
  else if nanos % 1000 = 0 then '.' :: padded 6 (nanos / 1000)
  else '.' :: padded 9 nanos

/-- The text of a moment. -/
def text (d : DateTime) : String :=
  let date := Date.ofDays (d.seconds / 86400)
  let time := (d.seconds % 86400).toNat
  let leap := 1000000000 ≤ d.nanos
  let second := time % 60 + (if leap then 1 else 0)
  let nanos := if leap then d.nanos - 1000000000 else d.nanos
  String.ofList (yearText date.year ++ '-' :: padded 2 date.month ++ '-' :: padded 2 date.day ++ 'T' ::
    padded 2 (time / 3600) ++ ':' :: padded 2 (time / 60 % 60) ++ ':' :: padded 2 second
    ++ fractionText nanos)

/-- Counting microseconds again gives the count. -/
theorem micros_of_ofMicros? {m : Int} {d : DateTime} (h : ofMicros? m = some d) : d.micros.val = m := by
  unfold ofMicros? ofTimestamp? at h
  split at h
  · split at h
    · cases h
      simp only [micros]
      omega
    · cases h
  · cases h

end DateTime
end DbClient
