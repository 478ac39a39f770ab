import OfflineSupply.Number.Double
import OfflineSupply.Text.Digit

/-!
# The shortest decimal of a double

A double is written with the fewest digits that read back as it, and of those the ones
nearest to it.  The reals that read back form an interval around the double, its ends
included when the significand is even; for one digit, two digits and so on the two
neighbours of the double on the decimal grid are tested against that interval in exact
arithmetic.
-/

namespace OfflineSupply.Double

/-- The reals that round to a positive double: `middle`, `low` and `high` over `unit` are the
double and the ends of the interval, and `closed` says whether the ends belong to it. -/
structure Interval where
  low : Nat
  middle : Nat
  high : Nat
  unit : Nat
  closed : Bool

/-- The interval of the double `m * 2 ^ e`, in quarters of its last place. -/
def interval (m : Nat) (e : Int) : Interval :=
  let scale := power 2 e
  let below := if m = power 2 52 && -1074 < e then 1 else 2
  { low := (4 * m - below) * scale
    middle := 4 * m * scale
    high := (4 * m + 2) * scale
    unit := 4 * power 2 (-e)
    closed := m % 2 = 0 }

/-- Whether `n * 10 ^ k` lies in an interval. -/
def Interval.holds (i : Interval) (n : Nat) (k : Int) : Bool :=
  let n' := n * power 10 k * i.unit
  let scale := power 10 (-k)
  if i.closed then i.low * scale ≤ n' && n' ≤ i.high * scale
  else i.low * scale < n' && n' < i.high * scale

/-- The point of the grid of step `10 ^ k` that is in the interval and nearest to its middle;
a tie goes to the even multiple. -/
def Interval.nearest? (i : Interval) (k : Int) : Option Nat :=
  let num := i.middle * power 10 (-k)
  let den := i.unit * power 10 k
  let floor := num / den
  let nearer := roundQuotient num den
  let other := if nearer = floor then floor + 1 else floor
  if i.holds nearer k then some nearer
  else if i.holds other k then some other
  else none

/-- The first grid with a hit, from a step of `10 ^ k` downwards. -/
def Interval.firstHit (i : Interval) : Nat → Int → Nat × Int
  | 0, k => ((i.nearest? k).getD 0, k)
  | tries + 1, k =>
    match i.nearest? k with
    | some n => if n = 0 then i.firstHit tries (k - 1) else (n, k)
    | none => i.firstHit tries (k - 1)

/-- The number of decimal digits before the point of a positive quotient, less one when it is
below one, and so on: the place of its first digit. -/
def decimalOrder (num den : Nat) : Int :=
  if den ≤ num then ((Nat.toDigits 10 (num / den)).length : Int)
  else 1 - ((Nat.toDigits 10 ((den - 1) / num)).length : Int)

/-- The number without its trailing zeros, and how many there were. -/
def dropZeros : Nat → Nat → Nat × Nat
  | 0, n => (n, 0)
  | fuel + 1, n =>
    if n != 0 && n % 10 == 0 then
      let (m, k) := dropZeros fuel (n / 10)
      (m, k + 1)
    else (n, 0)

/-- The digits of a positive double `m * 2 ^ e`, and the place of the decimal point counted
from the front of the digits. -/
def shortest (m : Nat) (e : Int) : List Char × Int :=
  let i := interval m e
  let (n, k) := i.firstHit 18 (decimalOrder i.middle i.unit)
  let (n, zeros) := dropZeros 400 n
  let digits := Nat.toDigits 10 n
  (digits, digits.length + (k + zeros))

/-- How doubles are laid out as text: positionally while the point lies after place `least`
and up to place `most`, with a fraction of one zero for a whole number, and else with one
digit before the point and a signed exponent of at least `width` digits. -/
structure Layout where
  least : Int
  most : Int
  width : Nat
  infinity : String
  none : String

/-- Positional from `0.0001` up to sixteen digits before the point. -/
def layout : Layout :=
  { least := -4, most := 16, width := 2, infinity := "inf", none := "nan" }

/-- Digits with a decimal point at a place counted from their front. -/
def positional (digits : List Char) (point : Int) : List Char :=
  if point ≤ 0 then '0' :: '.' :: List.replicate (-point).toNat '0' ++ digits
  else if digits.length ≤ point.toNat then
    digits ++ List.replicate (point.toNat - digits.length) '0' ++ ['.', '0']
  else digits.take point.toNat ++ '.' :: digits.drop point.toNat

/-- Digits with one of them before the point, and the exponent of ten. -/
def scientific (width : Nat) (digits : List Char) (point : Int) : List Char :=
  let exponent := point - 1
  let head := match digits with
    | [] => []
    | [d] => [d]
    | d :: ds => d :: '.' :: ds
  head ++ ('e' :: (if exponent < 0 then '-' else '+') ::
    (Text.paddedDecimal width exponent.natAbs).toList)

/-- The text of a double: its shortest decimal in the given layout. -/
def text (l : Layout) : Double → String
  | notANumber => l.none
  | infinite s => (if s then "-" else "") ++ l.infinity
  | finite s m e =>
    let body :=
      if m = 0 then ['0', '.', '0']
      else
        let (digits, point) := shortest m e
        if l.least < point && point ≤ l.most then positional digits point
        else scientific l.width digits point
    String.ofList ((if s then ['-'] else []) ++ body)

end OfflineSupply.Double
