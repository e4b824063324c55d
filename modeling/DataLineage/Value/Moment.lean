/-!
# Days and times

A document can hold a day, a time of a day, or a time with its offset from universal time. Moments
of one kind are compared by their place in time: days by the calendar, times by the clock, times
with an offset by the universal time that they mean. Moments of different kinds have no place in
common.

* `Date.isValid_leap` -- the 29th of February is a day of every fourth year between centuries.
* `Moment.place_zoned` -- an offset to the east makes a time earlier.
* `Moment.written`, `Moment.literal` -- a moment as documents write it, and taken apart.
-/

namespace DataLineage

/-! ## 1. Days -/

/-- A day of the calendar. -/
structure Date where
  year : Nat
  month : Nat
  day : Nat
  deriving DecidableEq, Repr, Inhabited

namespace Date

/-- How many days a month has. -/
def daysOf (year month : Nat) : Nat :=
  if month = 2 then
    if year % 4 = 0 ∧ (year % 100 ≠ 0 ∨ year % 400 = 0) then 29 else 28
  else if [4, 6, 9, 11].contains month then 30 else 31

/-- Is the day in the calendar? -/
def isValid (d : Date) : Bool :=
  1 ≤ d.year && 1 ≤ d.month && d.month ≤ 12 && 1 ≤ d.day && d.day ≤ daysOf d.year d.month

/-- The 29th of February is a day of every fourth year between centuries. -/
theorem isValid_leap (year : Nat) (h : year % 100 ≠ 0) :
    isValid ⟨year, 2, 29⟩ = true ↔ year % 4 = 0 := by
  have h1 : 1 ≤ year := by omega
  by_cases h4 : year % 4 = 0 <;> simp [isValid, daysOf, h, h4, h1]

/-- The number of a day, counted from the first day of the year 1. -/
def number (d : Date) : Nat :=
  let years := d.year - 1
  365 * years + years / 4 - years / 100 + years / 400 +
    (List.range (d.month - 1)).foldl (fun n m => n + daysOf d.year (m + 1)) d.day

example : [⟨1, 1, 1⟩, ⟨1970, 1, 1⟩, ⟨2024, 2, 29⟩, ⟨2024, 3, 1⟩].map number =
    [1, 719163, 738945, 738946] := by
  decide +kernel

end Date

/-! ## 2. Times -/

/-- A time of a day. -/
structure Clock where
  hour : Nat
  minute : Nat
  second : Nat
  micro : Nat
  deriving DecidableEq, Repr, Inhabited

namespace Clock

/-- Does a clock show the time? -/
def isValid (t : Clock) : Bool := t.hour < 24 && t.minute < 60 && t.second < 60

/-- The microseconds since the day began. -/
def micros (t : Clock) : Nat := ((t.hour * 60 + t.minute) * 60 + t.second) * 1000000 + t.micro

end Clock

/-! ## 3. Moments -/

/-- **A day, a time of a day, or a time with its offset** from universal time in minutes. -/
inductive Moment where
  | day (d : Date)
  | wall (d : Date) (t : Clock)
  | zoned (d : Date) (t : Clock) (offset : Int)
  deriving DecidableEq, Repr, Inhabited

/-- The kinds of moments. -/
inductive MomentKind where
  | day
  | wall
  | zoned
  deriving DecidableEq, Hashable, Repr, Inhabited

namespace Moment

/-- The kind of a moment. -/
def kind : Moment → MomentKind
  | day _ => .day
  | wall _ _ => .wall
  | zoned _ _ _ => .zoned

/-- The microseconds from one fixed day to a time of a day. -/
def microsAt (d : Date) (t : Clock) : Nat := d.number * 86400000000 + t.micros

/-- The place of a moment among those of its kind. -/
def place : Moment → Int
  | day d => d.number
  | wall d t => microsAt d t
  | zoned d t offset => microsAt d t - offset * 60000000

/-- **An offset to the east makes a time earlier**: universal time is the time less the offset. -/
theorem place_zoned (d : Date) (t : Clock) (offset : Int) :
    (zoned d t offset).place = (wall d t).place - offset * 60000000 := rfl

/-- Is it a moment that there is? Offsets are shorter than a day. -/
def isValid : Moment → Bool
  | day d => d.isValid
  | wall d t => d.isValid && t.isValid
  | zoned d t offset => d.isValid && t.isValid && offset.natAbs < 1440

/-! ## 4. How moments are written -/

/-- A number in decimal digits, padded with zeros to a width. -/
def padded (width n : Nat) : String :=
  let ds := Nat.toDigits 10 n
  String.ofList (List.replicate (width - ds.length) '0' ++ ds)

/-- A day as year, month and day. -/
def ofDate (d : Date) : String :=
  padded 4 d.year ++ "-" ++ padded 2 d.month ++ "-" ++ padded 2 d.day

/-- A time as hours, minutes and seconds, with its microseconds if there are any. -/
def ofClock (t : Clock) : String :=
  padded 2 t.hour ++ ":" ++ padded 2 t.minute ++ ":" ++ padded 2 t.second ++
    if t.micro = 0 then "" else "." ++ padded 6 t.micro

/-- An offset as its sign, hours and minutes. -/
def ofOffset (offset : Int) : String :=
  (if offset < 0 then "-" else "+") ++ padded 2 (offset.natAbs / 60) ++ ":" ++
    padded 2 (offset.natAbs % 60)

/-- **How a moment is written** in documents and sentences. -/
def written : Moment → String
  | day d => ofDate d
  | wall d t => ofDate d ++ " " ++ ofClock t
  | zoned d t offset => ofDate d ++ " " ++ ofClock t ++ ofOffset offset

example : (zoned ⟨2001, 12, 14⟩ ⟨21, 59, 43, 100000⟩ (-300)).written =
    "2001-12-14 21:59:43.100000-05:00" := by
  decide +kernel

/-- The parts of a time, without seconds and microseconds that are both nought, or without nought
microseconds. -/
def clockParts (t : Clock) : List Nat :=
  [t.hour, t.minute] ++
    if t.micro = 0 then (if t.second = 0 then [] else [t.second]) else [t.second, t.micro]

/-- An offset taken apart: whole days, which are negative to the west, and seconds. -/
def offsetLiteral (offset : Int) : String :=
  if offset = 0 then "datetime.timezone.utc"
  else
    let seconds := toString ((offset * 60) % 86400)
    "datetime.timezone(datetime.timedelta(" ++
      (if offset < 0 then "days=-1, seconds=" else "seconds=") ++ seconds ++ "))"

/-- **A moment taken apart**, so that its kind can be seen. -/
def literal : Moment → String
  | day d => "datetime.date(" ++ numbers [d.year, d.month, d.day] ++ ")"
  | wall d t => "datetime.datetime(" ++ timeLiteral d t ++ ")"
  | zoned d t offset =>
    "datetime.datetime(" ++ timeLiteral d t ++ ", tzinfo=" ++ offsetLiteral offset ++ ")"
where
  /-- Numbers with commas between them. -/
  numbers (parts : List Nat) : String := ", ".intercalate (parts.map toString)
  /-- The numbers of a day and of a time of it. -/
  timeLiteral (d : Date) (t : Clock) : String :=
    numbers ([d.year, d.month, d.day] ++ clockParts t)

example : (zoned ⟨2001, 12, 14⟩ ⟨21, 59, 0, 0⟩ (-300)).literal =
    "datetime.datetime(2001, 12, 14, 21, 59, tzinfo=datetime.timezone(" ++
      "datetime.timedelta(days=-1, seconds=68400)))" := by
  decide +kernel

example : (zoned ⟨2024, 3, 1⟩ ⟨0, 30, 0, 0⟩ 60).place =
    (zoned ⟨2024, 2, 29⟩ ⟨23, 30, 0, 0⟩ 0).place := by
  decide +kernel

end Moment

end DataLineage
