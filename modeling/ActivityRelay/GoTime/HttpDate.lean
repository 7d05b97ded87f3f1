import ActivityRelay.GoString.Number
import ActivityRelay.GoString.Text
import ActivityRelay.GoTime.Time

/-!
# Dates in headers

`http.ParseTime`: a date in one of the three layouts of HTTP, read as `time.Parse` reads it. The
instant of a time in a named zone depends on the local time zone of the process, which is given as
a function `zones` from the name of a zone and an instant to the offset of the zone.
-/

namespace GoTime

open GoString

/-! ### Elements of a layout -/

def shortDayNames : List GoString :=
  [lit "Sun", lit "Mon", lit "Tue", lit "Wed", lit "Thu", lit "Fri", lit "Sat"]

def longDayNames : List GoString :=
  [lit "Sunday", lit "Monday", lit "Tuesday", lit "Wednesday", lit "Thursday", lit "Friday",
    lit "Saturday"]

def shortMonthNames : List GoString :=
  [lit "Jan", lit "Feb", lit "Mar", lit "Apr", lit "May", lit "Jun", lit "Jul", lit "Aug", lit "Sep",
    lit "Oct", lit "Nov", lit "Dec"]

/-- Two bytes that are the same, or the same letter. -/
def matchByte (a b : UInt8) : Bool :=
  a == b || (a ||| 0x20) == (b ||| 0x20) && (0x61 ≤ (a ||| 0x20).toNat && (a ||| 0x20).toNat ≤ 0x7A)

/-- What is left of a text after a name, without regard to case. -/
def afterName : (name : GoString) → GoString → Option GoString
  | [], value => some value
  | _ :: _, [] => none
  | c :: name, b :: value => if matchByte b c then afterName name value else none

/-- `lookup`: the first name of a table that a text starts with, and what is left. -/
def lookup : (index : ℕ) → (table : List GoString) → GoString → Option (ℕ × GoString)
  | _, [], _ => none
  | index, name :: table, value =>
      match afterName name value with
      | some rest => some (index, rest)
      | none => lookup (index + 1) table value

/-- `getnum`: a number of one or two digits, of two if `fixed`. -/
def getnum (fixed : Bool) : GoString → Option (ℕ × GoString)
  | [] => none
  | a :: value => do
      let x ← digitValue a
      match value with
      | [] => if fixed then none else some (x, [])
      | b :: rest =>
          match digitValue b with
          | some y => some (10 * x + y, rest)
          | none => if fixed then none else some (x, value)

def atoi : GoString → Option ℤ
  | 0x2D :: s => (parseDigits 0 s).map (fun n : ℕ => -(n : ℤ))
  | 0x2B :: s => (parseDigits 0 s).map (fun n : ℕ => (n : ℤ))
  | s => (parseDigits 0 s).map (fun n : ℕ => (n : ℤ))

def cutspace (s : GoString) : GoString := s.dropWhile (· == 0x20)

/-- `skip`: what is left of a text after the text of a layout. A space of the layout stands for
any number of spaces; there are no two in a row. -/
def skip : (layout : GoString) → GoString → Option GoString
  | [], value => some value
  | c :: layout, value =>
      if c = 0x20 then
        match value with
        | [] => skip layout []
        | b :: rest => if b = 0x20 then skip layout (cutspace rest) else none
      else
        match value with
        | [] => none
        | b :: rest => if b = c then skip layout rest else none

/-- `parseSignedOffset`: the number of bytes of an offset. -/
def parseSignedOffset : GoString → ℕ
  | [] => 0
  | sign :: value =>
      if sign ≠ 0x2D ∧ sign ≠ 0x2B then 0
      else
        let digits := value.takeWhile isDigit
        match parseDigits 0 digits with
        | some x => if digits = [] ∨ 23 < x then 0 else digits.length + 1
        | none => 0

/-- `parseTimeZone`: the number of bytes of the abbreviation of a zone. -/
def parseTimeZone (value : GoString) : Option ℕ :=
  if value.length < 3 then none
  else if value.take 4 = lit "ChST" ∨ value.take 4 = lit "MeST" then some 4
  else if value.take 3 = lit "GMT" then some (3 + parseSignedOffset (value.drop 3))
  else if value.head? = some 0x2B ∨ value.head? = some 0x2D then
    if parseSignedOffset value = 0 then none else some (parseSignedOffset value)
  else
    match ((value.take 6).takeWhile (fun c => 0x41 ≤ c.toNat && c.toNat ≤ 0x5A)).length with
    | 3 => some 3
    | 4 => if value.take 4 = lit "WITA" ∨ (value.drop 3).head? = some 0x54 then some 4 else none
    | 5 => if (value.drop 4).head? = some 0x54 then some 5 else none
    | _ => none

/-! ### Layouts -/

/-- What a layout is made of. -/
inductive Chunk
  | text (s : GoString)
  | weekDay
  | longWeekDay
  | month
  | zeroDay
  | underDay
  | year
  | longYear
  | hour
  | zeroMinute
  | zeroSecond
  | zone

/-- The parts of a date that have been read. There is no zone if the time is in UTC. -/
structure Parts where
  year : ℤ
  month : ℕ
  day : ℕ
  hour : ℕ
  minute : ℕ
  second : ℕ
  nanosecond : ℕ
  zone : Option GoString

def Parts.zero : Parts := ⟨0, 1, 1, 0, 0, 0, 0, none⟩

/-- The nanoseconds that the digits of a fraction stand for. -/
def nanoseconds (digits : GoString) : Option ℕ :=
  let digits := digits.take 9
  (parseDigits 0 digits).map (· * 10 ^ (9 - digits.length))

/-- A fraction of a second, which may follow the seconds without being in the layout. -/
def parseFraction (value : GoString) : Option (ℕ × GoString) :=
  match value with
  | c :: rest =>
      if (c = 0x2E ∨ c = 0x2C) ∧ (rest.head?.any isDigit) then
        let digits := rest.takeWhile isDigit
        (nanoseconds digits).map (fun n => (n, rest.drop digits.length))
      else some (0, value)
  | [] => some (0, [])

/-- One element of a layout. -/
def Chunk.parse (parts : Parts) (value : GoString) : Chunk → Option (Parts × GoString)
  | text s => (skip s value).map (fun rest => (parts, rest))
  | weekDay => (lookup 0 shortDayNames value).map (fun (_, rest) => (parts, rest))
  | longWeekDay => (lookup 0 longDayNames value).map (fun (_, rest) => (parts, rest))
  | month =>
      (lookup 1 shortMonthNames value).map (fun (n, rest) => ({ parts with month := n }, rest))
  | zeroDay => (getnum true value).map (fun (n, rest) => ({ parts with day := n }, rest))
  | underDay =>
      let value := if value.head? = some 0x20 then value.drop 1 else value
      (getnum false value).map (fun (n, rest) => ({ parts with day := n }, rest))
  | year =>
      if value.length < 2 then none
      else
        (atoi (value.take 2)).map (fun n =>
          ({ parts with year := if 69 ≤ n then n + 1900 else n + 2000 }, value.drop 2))
  | longYear =>
      if value.length < 4 ∨ ¬ value.head?.any isDigit then none
      else (atoi (value.take 4)).map (fun n => ({ parts with year := n }, value.drop 4))
  | hour =>
      ((getnum false value).filter (fun r => r.1 < 24)).map
        (fun (n, rest) => ({ parts with hour := n }, rest))
  | zeroMinute =>
      ((getnum true value).filter (fun r => r.1 < 60)).map
        (fun (n, rest) => ({ parts with minute := n }, rest))
  | zeroSecond => do
      let (n, rest) ← (getnum true value).filter (fun r => r.1 < 60)
      let (fraction, rest) ← parseFraction rest
      return ({ parts with second := n, nanosecond := fraction }, rest)
  | zone =>
      if value.take 3 = lit "UTC" then some ({ parts with zone := none }, value.drop 3)
      else
        (parseTimeZone value).map (fun n =>
          ({ parts with zone := some (value.take n) }, value.drop n))

/-- The elements of a layout, up to the end of the text. -/
def parseChunks : List Chunk → Parts → GoString → Option Parts
  | [], parts, value => if value = [] then some parts else none
  | chunk :: chunks, parts, value =>
      (chunk.parse parts value).bind (fun (parts, rest) => parseChunks chunks parts rest)

/-- `Mon, 02 Jan 2006 15:04:05 GMT`. -/
def timeFormat : List Chunk :=
  [.weekDay, .text (lit ", "), .zeroDay, .text (lit " "), .month, .text (lit " "), .longYear,
    .text (lit " "), .hour, .text (lit ":"), .zeroMinute, .text (lit ":"), .zeroSecond,
    .text (lit " GMT")]

/-- `Monday, 02-Jan-06 15:04:05 MST`. -/
def rfc850 : List Chunk :=
  [.longWeekDay, .text (lit ", "), .zeroDay, .text (lit "-"), .month, .text (lit "-"), .year,
    .text (lit " "), .hour, .text (lit ":"), .zeroMinute, .text (lit ":"), .zeroSecond,
    .text (lit " "), .zone]

/-- `Mon Jan _2 15:04:05 2006`. -/
def ansic : List Chunk :=
  [.weekDay, .text (lit " "), .month, .text (lit " "), .underDay, .text (lit " "), .hour,
    .text (lit ":"), .zeroMinute, .text (lit ":"), .zeroSecond, .text (lit " "), .longYear]

/-! ### Instants -/

def isLeap (year : ℤ) : Bool := year % 4 = 0 && (year % 100 ≠ 0 || year % 400 = 0)

def daysIn (month : ℕ) (year : ℤ) : ℕ :=
  match month with
  | 2 => if isLeap year then 29 else 28
  | 4 | 6 | 9 | 11 => 30
  | _ => 31

/-- The days from the start of year 1 to the start of a year. -/
def daysBeforeYear (year : ℤ) : ℤ :=
  let y := year - 1
  365 * y + y / 4 - y / 100 + y / 400

/-- The days of a year before a month. -/
def daysBeforeMonth (month : ℕ) (year : ℤ) : ℕ :=
  ((List.range (month - 1)).map (fun m => daysIn (m + 1) year)).sum

/-- `Date` in UTC. -/
def Parts.instant (parts : Parts) : ℤ :=
  let days := daysBeforeYear parts.year + daysBeforeMonth parts.month parts.year + (parts.day - 1)
  (((days * 24 + parts.hour) * 60 + parts.minute) * 60 + parts.second) * GoTime.second +
    parts.nanosecond

section Parse

variable (zones : GoString → ℤ → ℤ)

/-- `time.Parse` with a layout. -/
def parseLayout (layout : List Chunk) (text : GoString) : Option ℤ := do
  let parts ← parseChunks layout .zero text
  if parts.day < 1 ∨ daysIn parts.month parts.year < parts.day then none
  else
    match parts.zone with
    | none => return parts.instant
    | some zone => return parts.instant - zones zone parts.instant * GoTime.second

def parseTime (text : GoString) : Option ℤ :=
  (parseLayout zones timeFormat text).or
    ((parseLayout zones rfc850 text).or (parseLayout zones ansic text))

end Parse

/-! ### Texts that are no dates -/

theorem matchByte_digit {b c : UInt8} (hb : isDigit b = true) (hc : isDigit c = false) :
  matchByte b c = false
  := by
  have hlower : ∀ b : UInt8, isDigit b = true → (b ||| 0x20).toNat < 0x61 :=
    forall_byte (by decide +kernel)
  have hne : b ≠ c := by
    rintro rfl
    rw [hb] at hc
    cases hc
  have hlt := hlower b hb
  simp only [matchByte, Bool.or_eq_false_iff, beq_eq_false_iff_ne, Bool.and_eq_false_iff,
    decide_eq_false_iff_not]
  exact ⟨hne, .inr (.inl (by omega))⟩

theorem lookup_eq_none {table : List GoString} {value : GoString}
    (h : ∀ name ∈ table, afterName name value = none) (index : ℕ) :
  lookup index table value = none
  := by
  induction table generalizing index with
  | nil => rfl
  | cons name table ih =>
    rw [List.forall_mem_cons] at h
    rw [lookup, h.1]
    exact ih h.2 (index + 1)

/-- No name starts with a digit. -/
theorem afterName_digit {b : UInt8} (hb : isDigit b = true) {name : GoString}
    (hname : name.head?.any (fun c => !isDigit c) = true) (s : GoString) :
  afterName name (b :: s) = none
  := by
  cases name with
  | nil => cases hname
  | cons c name =>
    have hc : isDigit c = false := by simpa using hname
    rw [afterName, matchByte_digit hb hc]
    rfl

/-- A text that starts with a digit is no date. -/
theorem parseTime_digit (zones : GoString → ℤ → ℤ) {b : UInt8} (hb : isDigit b = true)
    (s : GoString) :
  parseTime zones (b :: s) = none
  := by
  have hshort : ∀ name ∈ shortDayNames, name.head?.any (fun c => !isDigit c) = true := by
    decide +kernel
  have hlong : ∀ name ∈ longDayNames, name.head?.any (fun c => !isDigit c) = true := by
    decide +kernel
  have hweekDay : lookup 0 shortDayNames (b :: s) = none :=
    lookup_eq_none (fun name h => afterName_digit hb (hshort name h) s) 0
  have hlongWeekDay : lookup 0 longDayNames (b :: s) = none :=
    lookup_eq_none (fun name h => afterName_digit hb (hlong name h) s) 0
  have htimeFormat : parseChunks timeFormat .zero (b :: s) = none := by
    rw [timeFormat, parseChunks, Chunk.parse, hweekDay]
    rfl
  have hrfc850 : parseChunks rfc850 .zero (b :: s) = none := by
    rw [rfc850, parseChunks, Chunk.parse, hlongWeekDay]
    rfl
  have hansic : parseChunks ansic .zero (b :: s) = none := by
    rw [ansic, parseChunks, Chunk.parse, hweekDay]
    rfl
  rw [parseTime, parseLayout, parseLayout, parseLayout, htimeFormat, hrfc850, hansic]
  rfl

example :
  parseTime (fun _ _ => 0) (lit "Sun, 06 Nov 1994 08:49:37 GMT") = some (ofUnix 784111777)
  := by decide +kernel

end GoTime
