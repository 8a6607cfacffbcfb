import RomCatalog.Toml.Lexical
import RomCatalog.Toml.Value

/-!
TOML numbers: whole numbers in four bases, which have to fit into 64 bits with a sign, and floating
point numbers. An underscore may stand between two digits.
-/

namespace RomCatalog.Toml

/-- Digits and single underscores between them, without the underscores. -/
def digitsFrom (isDigit : Char → Bool) : List Char → List Char × List Char
  | '_' :: c :: rest =>
      if isDigit c then
        let (digits, rest) := digitsFrom isDigit rest
        (c :: digits, rest)
      else ([], '_' :: c :: rest)
  | c :: rest =>
      if isDigit c then
        let (digits, rest) := digitsFrom isDigit rest
        (c :: digits, rest)
      else ([], c :: rest)
  | [] => ([], [])

def digits? (isDigit : Char → Bool) : Reader (List Char)
  | c :: rest =>
      if isDigit c then
        let (digits, rest) := digitsFrom isDigit rest
        some (c :: digits, rest)
      else none
  | [] => none

/-- The digits before the point, which start with a zero only if that is all of them. -/
def wholeDigits? : Reader (List Char)
  | '0' :: rest => some (['0'], rest)
  | text => digits? Char.isDigit text

def valueOf (base : Nat) (digits : List Char) : Nat :=
  digits.foldl (fun value c => value * base + (hexValue? c).getD 0) 0

def integer? (negative : Bool) (magnitude : Nat) : Option Value :=
  let value : Int := if negative then -magnitude else magnitude
  if -0x8000000000000000 ≤ value ∧ value < 0x8000000000000000 then some (.integer value) else none

/-- A number above the range is refused, while one below it is negative infinity. -/
def float? (negative : Bool) (whole fraction : List Char) (power : Int) : Option Value :=
  let value := Binary64.ofDecimal negative (valueOf 10 (whole ++ fraction))
    (power - fraction.length)
  if value = .infinite false then none else some (.float value)

def sign : List Char → Bool × List Char
  | '-' :: rest => (true, rest)
  | '+' :: rest => (false, rest)
  | text => (false, text)

def fraction? : Reader (Option (List Char))
  | '.' :: rest => (digits? Char.isDigit rest).map fun (digits, rest) => (some digits, rest)
  | text => some (none, text)

def power? : Reader (Option Int)
  | c :: rest =>
      if c = 'e' ∨ c = 'E' then
        let (negative, rest) := sign rest
        (digits? Char.isDigit rest).map fun (digits, rest) =>
          let size : Int := valueOf 10 digits
          (some (if negative then -size else size), rest)
      else some (none, c :: rest)
  | [] => some (none, [])

def decimal? (negative : Bool) (text : List Char) : Option (Value × List Char) := do
  let (whole, rest) ← wholeDigits? text
  let (fraction, rest) ← fraction? rest
  let (power, rest) ← power? rest
  let value ←
    match fraction, power with
    | none, none => integer? negative (valueOf 10 whole)
    | _, _ => float? negative whole (fraction.getD []) (power.getD 0)
  return (value, rest)

def isHexDigit (c : Char) : Bool := (hexValue? c).isSome

def isOctalDigit (c : Char) : Bool := '0' ≤ c && c ≤ '7'

def isBinaryDigit (c : Char) : Bool := c = '0' || c = '1'

/-- A whole number in another base, after the letter that names the base. -/
def based? (base : Nat) (isDigit : Char → Bool) (text : List Char) : Option (Value × List Char) := do
  let (digits, rest) ← digits? isDigit text
  return (← integer? false (valueOf base digits), rest)

/-- Infinity and the number that is none, after their sign. -/
def special? (negative : Bool) : Reader Value
  | 'i' :: 'n' :: 'f' :: rest => some (.float (.infinite negative), rest)
  | 'n' :: 'a' :: 'n' :: rest => some (.float .nan, rest)
  | _ => none

def number? : Reader Value
  | '0' :: 'x' :: rest => based? 16 isHexDigit rest
  | '0' :: 'o' :: rest => based? 8 isOctalDigit rest
  | '0' :: 'b' :: rest => based? 2 isBinaryDigit rest
  | text =>
      let (negative, rest) := sign text
      match special? negative rest with
      | some found => some found
      | none => decimal? negative rest

end RomCatalog.Toml
