import RomCatalog.Number.Binary64

/-!
The text of a double precision number: the fewest decimal digits that are read back as the same
number, of those the nearest to it, in positional notation.
-/

namespace RomCatalog.Binary64

/-- The reals that round to a positive finite number, in units of `2 ^ (exponent - 2)`: the ends of
the interval, and whether they belong to it. -/
structure Interval where
  low : Nat
  high : Nat
  closed : Bool

def interval (significand : Nat) (exponent : Int) : Interval where
  low := 4 * significand -
    (if significand = Nat.pow 2 52 ∧ leastExponent < exponent then 1 else 2)
  high := 4 * significand + 2
  closed := significand % 2 = 0

def Interval.admits (range : Interval) (scale value : Nat) : Bool :=
  if range.closed then range.low * scale ≤ value && value ≤ range.high * scale
  else range.low * scale < value && value < range.high * scale

/-- How many digits the number has before the decimal point, less the zeros behind the point before
the first other digit. -/
def decimalPlaces (significand : Nat) (exponent : Int) : Int :=
  let scaled :=
    significand * Nat.pow 2 exponent.toNat * Nat.pow 10 400 / Nat.pow 2 (-exponent).toNat
  ((Nat.toDigits 10 scaled).length : Int) - 400

/-- The nearer of the two neighbours on the grid of multiples of `10 ^ power`, of those that are
read back as the number; of two that are equally near, the greater. -/
def onGrid? (significand : Nat) (exponent power : Int) : Option Nat :=
  let range := interval significand exponent
  let scale := Nat.pow 2 (exponent - 2).toNat * Nat.pow 10 (-power).toNat
  let unit := Nat.pow 2 (2 - exponent).toNat * Nat.pow 10 power.toNat
  let value := 4 * significand * scale
  let below := value / unit
  let above := below + 1
  let fitsBelow := range.admits scale (below * unit)
  let fitsAbove := range.admits scale (above * unit)
  if fitsBelow && (!fitsAbove || 2 * (value % unit) < unit) then some below
  else if fitsAbove then some above
  else none

/-- The first grid with a hit, from the coarsest on. Seventeen digits always suffice. -/
def shortestFrom (significand : Nat) (exponent places : Int) : Nat → Nat → Nat × Int
  | 0, _ => (0, 0)
  | tries + 1, digits =>
      match onGrid? significand exponent (places - digits) with
      | some found => (found, places - digits)
      | none => shortestFrom significand exponent places tries (digits + 1)

def shortest (significand : Nat) (exponent : Int) : Nat × Int :=
  shortestFrom significand exponent (decimalPlaces significand exponent) 17 1

def dropTrailingZeros : Nat → Nat → Int → Nat × Int
  | 0, digits, power => (digits, power)
  | fuel + 1, digits, power =>
      if digits ≠ 0 ∧ digits % 10 = 0 then dropTrailingZeros fuel (digits / 10) (power + 1)
      else (digits, power)

/-- Positional notation of `digits · 10 ^ power`, with at least one digit on each side of the
point. -/
def positional (digits : Nat) (power : Int) : List Char :=
  let written := Nat.toDigits 10 digits
  let behind := (-power).toNat
  if behind = 0 then written ++ List.replicate power.toNat '0' ++ ['.', '0']
  else
    let padded := List.replicate (behind + 1 - written.length) '0' ++ written
    padded.take (padded.length - behind) ++ '.' :: padded.drop (padded.length - behind)

def text : Binary64 → String
  | .nan => "NaN"
  | .infinite negative => if negative then "-inf" else "inf"
  | .finite negative significand exponent =>
      let (digits, power) :=
        if significand = 0 then (0, 0)
        else
          let (digits, power) := shortest significand exponent
          dropTrailingZeros 17 digits power
      String.ofList ((if negative then ['-'] else []) ++ positional digits power)

end RomCatalog.Binary64
