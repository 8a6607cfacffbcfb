import RomCatalog.Toml.Lexical

/-!
Dates and times of TOML: a date, a time, or both with an optional offset. Readers tell only what is
left after them, since nothing else of a date is needed.
-/

namespace RomCatalog.Toml

def twoDigits? (least greatest : Nat) : Reader Nat
  | a :: b :: rest =>
      if a.isDigit ∧ b.isDigit then
        let value := (a.toNat - 48) * 10 + (b.toNat - 48)
        if least ≤ value ∧ value ≤ greatest then some (value, rest) else none
      else none
  | _ => none

def expect? (expected : Char) : List Char → Option (List Char)
  | c :: rest => if c = expected then some rest else none
  | [] => none

def isLeapYear (year : Nat) : Bool :=
  year % 4 = 0 && (year % 100 ≠ 0 || year % 400 = 0)

def daysInMonth (year month : Nat) : Nat :=
  if month = 2 then (if isLeapYear year then 29 else 28)
  else if month = 4 ∨ month = 6 ∨ month = 9 ∨ month = 11 then 30
  else 31

def date? (text : List Char) : Option (List Char) := do
  let (century, rest) ← twoDigits? 0 99 text
  let (year, rest) ← twoDigits? 0 99 rest
  let (month, rest) ← twoDigits? 1 12 (← expect? '-' rest)
  let (_, rest) ← twoDigits? 1 (daysInMonth (century * 100 + year) month) (← expect? '-' rest)
  return rest

/-- A second may be the sixtieth, for leap seconds; it may have a fraction. -/
def time? (text : List Char) : Option (List Char) := do
  let (_, rest) ← twoDigits? 0 23 text
  let (_, rest) ← twoDigits? 0 59 (← expect? ':' rest)
  let (_, rest) ← twoDigits? 0 60 (← expect? ':' rest)
  match rest with
  | '.' :: c :: rest => if c.isDigit then some (rest.dropWhile Char.isDigit) else none
  | rest => some rest

def offset? : List Char → Option (List Char)
  | c :: rest =>
      if c = 'Z' ∨ c = 'z' then some rest
      else if c = '+' ∨ c = '-' then do
        let (_, rest) ← twoDigits? 0 23 rest
        let (_, rest) ← twoDigits? 0 59 (← expect? ':' rest)
        return rest
      else some (c :: rest)
  | [] => some []

def startsDate : List Char → Bool
  | a :: b :: c :: d :: '-' :: _ => a.isDigit && b.isDigit && c.isDigit && d.isDigit
  | _ => false

def startsTime : List Char → Bool
  | a :: b :: ':' :: _ => a.isDigit && b.isDigit
  | _ => false

/-- A date, and after a `T` or a single blank the time of that day. -/
def dateTime? (text : List Char) : Option (List Char) := do
  let rest ← date? text
  match rest with
  | c :: d :: later =>
      if (c = 'T' ∨ c = 't' ∨ c = ' ') ∧ d.isDigit then do
        let rest ← time? (d :: later)
        offset? rest
      else some rest
  | _ => some rest

end RomCatalog.Toml
