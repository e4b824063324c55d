import DataLineage.Fault
import DataLineage.Text.Numeral

/-!
# Days and times in a document

A plain scalar is a moment when it is written as a day of ten characters, or as a day and a time
with blanks or the letter T between them, and behind the time possibly an offset: the letter Z for
universal time, or a sign with hours and minutes. What is written like a moment has to be one.

* `Stamp.micros_of_six` -- six places are the microseconds as they stand.
* `Stamp.moment?_ok` -- a moment that is read is one that there is.
-/

namespace DataLineage.Stamp

/-! ## 1. Parts -/

/-- The number that decimal digits write. -/
def number (ds : List Char) : Nat := Text.digitsValue (ds.map fun c => c.toNat - 48)

/-- The number of the digits in front, and what follows them; more than `most` are not taken. -/
def digits? (least most : Nat) (s : List Char) : Option (Nat × List Char) :=
  let ds := (s.takeWhile Char.isDigit).take most
  if least ≤ ds.length then some (number ds, s.drop ds.length) else none

/-- What follows a mark. -/
def after? (mark : Char) : List Char → Option (List Char)
  | c :: rest => if c = mark then some rest else none
  | [] => none

/-- A year, a month and a day, the last two of at least so many digits. -/
def date? (least : Nat) (s : List Char) : Option (Date × List Char) := do
  let (year, s) ← digits? 4 4 s
  let (month, s) ← digits? least 2 (← after? '-' s)
  let (day, s) ← digits? least 2 (← after? '-' s)
  return (⟨year, month, day⟩, s)

/-- The microseconds that places behind the point of a second mean; those behind the sixth one are
left out. -/
def micros (places : List Char) : Nat :=
  number (places.take 6) * Nat.pow 10 (6 - places.length)

/-- Six places are the microseconds as they stand. -/
theorem micros_of_six (places : List Char) (h : places.length = 6) :
    micros places = number places := by
  simp [micros, h, List.take_of_length_le]

/-- Hours, minutes and seconds, the seconds possibly with places behind a point. -/
def clock? (s : List Char) : Option (Clock × List Char) := do
  let (hour, s) ← digits? 1 2 s
  let (minute, s) ← digits? 2 2 (← after? ':' s)
  let (second, s) ← digits? 2 2 (← after? ':' s)
  match after? '.' s with
  | some places =>
    let rest := places.dropWhile Char.isDigit
    return (⟨hour, minute, second, micros (places.takeWhile Char.isDigit)⟩, rest)
  | none => return (⟨hour, minute, second, 0⟩, s)

/-- Is it a blank between a day and a time, or between a time and its offset? -/
def isGap (c : Char) : Bool := c == ' ' || c == '\t'

/-- What follows the mark between a day and a time. -/
def afterDate? : List Char → Option (List Char)
  | 'T' :: rest => some rest
  | 't' :: rest => some rest
  | c :: rest => if isGap c then some (rest.dropWhile isGap) else none
  | [] => none

/-- Hours and possibly minutes up to the end, as minutes. -/
def span? (s : List Char) : Option Nat := do
  let (hours, s) ← digits? 1 2 s
  match s with
  | [] => return hours * 60
  | ':' :: s =>
    let (minutes, s) ← digits? 2 2 s
    if s.isEmpty then return hours * 60 + minutes else none
  | _ => none

/-- The offset in minutes up to the end, which is absent where nothing stands. -/
def offset? (s : List Char) : Option (Option Int) :=
  if s.isEmpty then some none
  else match s.dropWhile isGap with
    | ['Z'] => some (some 0)
    | '+' :: rest => (span? rest).map fun n => some (n : Int)
    | '-' :: rest => (span? rest).map fun n => some (-(n : Int))
    | _ => none

/-! ## 2. Moments -/

/-- The time of a day behind the day, up to the end. -/
def time? (d : Date) (s : List Char) : Option Moment := do
  let (t, s) ← clock? (← afterDate? s)
  match ← offset? s with
  | some offset => return .zoned d t offset
  | none => return .wall d t

/-- What is written like a moment. -/
def written? (s : List Char) : Option Moment :=
  match date? 2 s with
  | some (d, []) => some (.day d)
  | _ => do
    let (d, s) ← date? 1 s
    time? d s

/-- **The moment of a plain text that is written like one.** -/
def moment? (s : List Char) : Option (Outcome Moment) :=
  (written? s).map fun m => if m.isValid then .ok m else .error .badValue

/-- **A moment that is read is one that there is.** -/
theorem moment?_ok {s : List Char} {m : Moment} (h : moment? s = some (.ok m)) :
    m.isValid = true := by
  simp only [moment?, Option.map_eq_some_iff] at h
  obtain ⟨n, -, hn⟩ := h
  split at hn
  · cases hn; assumption
  · cases hn

example : (moment? "2001-12-14t21:59:43.10-05:00".toList).map (·.toOption) =
    some (some (.zoned ⟨2001, 12, 14⟩ ⟨21, 59, 43, 100000⟩ (-300))) := by
  decide +kernel

example : ["2024-1-1", "2024-01-01x", "2024-01-01 10:00", "2024-01-01T10:00:00 x"].map
    (fun s => (written? s.toList).isSome) = [false, false, false, false] := by
  decide +kernel

example : ["2024-02-30", "2024-1-1 10:60:00", "2024-01-01T10:00:00+24:00"].map
    (fun s => (moment? s.toList).map (·.toOption)) = [some none, some none, some none] := by
  decide +kernel

end DataLineage.Stamp
