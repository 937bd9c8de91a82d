import GitRemote.Text.Hex

/-!
# Dates and times

A date, a time of day, or both with or without the distance from universal time. Each has to exist in
the calendar and has one written form, with a `T` before the time and no zeros behind a fraction.
-/

namespace GitRemote.Config.Toml

/-- A day of the calendar. -/
structure Date where
  year : Nat
  month : Nat
  day : Nat
  deriving DecidableEq, Repr

/-- A time of day. -/
structure TimeOfDay where
  hour : Nat
  minute : Nat
  second : Option Nat
  /-- The digits of the fraction of a second. -/
  fraction : Option (List Char)
  deriving DecidableEq, Repr

/-- How far a time is from universal time. -/
inductive Offset where
  | universal
  | shifted (negative : Bool) (hours minutes : Nat)
  deriving DecidableEq, Repr

/-- A date, a time, or both. -/
inductive Moment where
  | date (d : Date)
  | time (t : TimeOfDay)
  | both (d : Date) (t : TimeOfDay) (offset : Option Offset)
  deriving DecidableEq, Repr

/-- Whether a year has a day more. -/
def isLeapYear (year : Nat) : Bool := year % 4 == 0 && (year % 100 != 0 || year % 400 == 0)

/-- The number of days of a month. -/
def daysOfMonth (year month : Nat) : Nat :=
  if month = 2 then if isLeapYear year then 29 else 28
  else if [4, 6, 9, 11].contains month then 30
  else 31

/-- Whether a day exists. -/
def Date.isReal (d : Date) : Bool :=
  1 ≤ d.month && d.month ≤ 12 && 1 ≤ d.day && d.day ≤ daysOfMonth d.year d.month

/-- Whether a time exists. A minute may have a second more. -/
def TimeOfDay.isReal (t : TimeOfDay) : Bool :=
  t.hour ≤ 23 && t.minute ≤ 59 && t.second.all (· ≤ 60)

/-- Reads a number of exactly two digits. -/
def twoDigits? : List Char → Option (Nat × List Char)
  | a :: b :: rest => (Text.numberIn? 10 [a, b]).map (·, rest)
  | _ => none

/-- Reads a number of exactly two digits behind a sign. -/
def signed? (sign : Char) : List Char → Option (Nat × List Char)
  | c :: rest => if c = sign then twoDigits? rest else none
  | [] => none

/-- Reads a day. -/
def Date.read? (cs : List Char) : Option (Date × List Char) := do
  let (century, cs) ← twoDigits? cs
  let (year, cs) ← twoDigits? cs
  let (month, cs) ← signed? '-' cs
  let (day, cs) ← signed? '-' cs
  let date : Date := ⟨century * 100 + year, month, day⟩
  if date.isReal then some (date, cs) else none

/-- Reads the fraction of a second, if there is one. -/
def fraction? : List Char → Option (Option (List Char) × List Char)
  | '.' :: cs =>
    let digits := cs.takeWhile Char.isDigit
    if digits.isEmpty then none else some (some digits, cs.drop digits.length)
  | cs => some (none, cs)

/-- Reads the second of a time and its fraction, if it has them. -/
def second? (cs : List Char) : Option ((Option Nat × Option (List Char)) × List Char) :=
  if cs.head? = some ':' then do
    let (second, cs) ← signed? ':' cs
    let (fraction, cs) ← fraction? cs
    some ((some second, fraction), cs)
  else some ((none, none), cs)

/-- Reads a time. -/
def TimeOfDay.read? (cs : List Char) : Option (TimeOfDay × List Char) := do
  let (hour, cs) ← twoDigits? cs
  let (minute, cs) ← signed? ':' cs
  let ((second, fraction), cs) ← second? cs
  let time : TimeOfDay := ⟨hour, minute, second, fraction⟩
  if time.isReal then some (time, cs) else none

/-- Reads the distance from universal time to the end, if there is one. -/
def Offset.read? : List Char → Option (Option Offset)
  | [] => some none
  | ['Z'] | ['z'] => some (some .universal)
  | c :: rest =>
    if c = '+' || c = '-' then do
      let (hours, rest) ← twoDigits? rest
      let (minutes, rest) ← signed? ':' rest
      if hours ≤ 23 && minutes ≤ 59 && rest.isEmpty then
        some (some (.shifted (c == '-') hours minutes))
      else none
    else none

/-- Reads a date, a time, or both. -/
def Moment.read? (cs : List Char) : Option Moment :=
  match Date.read? cs with
  | some (d, []) => some (.date d)
  | some (d, c :: rest) =>
    if c = 'T' || c = 't' || c = ' ' then do
      let (t, rest) ← TimeOfDay.read? rest
      let offset ← Offset.read? rest
      some (.both d t offset)
    else none
  | none =>
    match TimeOfDay.read? cs with
    | some (t, []) => some (.time t)
    | _ => none

/-- A number with zeros in front up to a width. -/
def padded (width n : Nat) : List Char :=
  let digits := Nat.toDigits 10 n
  List.replicate (width - digits.length) '0' ++ digits

/-- A fraction of at most nine digits and without zeros at its end, of which one stays. -/
def fractionText (digits : List Char) : List Char :=
  let kept := ((digits.take 9).reverse.dropWhile (· == '0')).reverse
  '.' :: (if kept.isEmpty then ['0'] else kept)

/-- A day in its written form. -/
def Date.text (d : Date) : List Char :=
  padded 4 d.year ++ '-' :: padded 2 d.month ++ '-' :: padded 2 d.day

/-- A time in its written form. -/
def TimeOfDay.text (t : TimeOfDay) : List Char :=
  padded 2 t.hour ++ ':' :: padded 2 t.minute ++ t.second.elim [] (':' :: padded 2 ·) ++
    t.fraction.elim [] fractionText

/-- A distance from universal time in its written form. None at all is positive. -/
def Offset.text : Offset → List Char
  | .universal => ['Z']
  | .shifted negative hours minutes =>
    (if negative && 0 < hours + minutes then '-' else '+') ::
      (padded 2 hours ++ ':' :: padded 2 minutes)

/-- A date, a time, or both in written form. -/
def Moment.text : Moment → String
  | .date d => String.ofList d.text
  | .time t => String.ofList t.text
  | .both d t offset => String.ofList (d.text ++ 'T' :: t.text ++ offset.elim [] Offset.text)

end GitRemote.Config.Toml
