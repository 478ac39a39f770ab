/-!
# Double precision numbers

A double is a whole significand of at most 53 bits times a power of two, an infinity or no
number at all.  Every operation rounds the exact result once: to the nearest double, a tie to
the even significand, and what is too large to an infinity.  All arithmetic is exact
arithmetic on naturals and integers.
-/

namespace OfflineSupply

/-- A binary64 number.  A finite one is `significand * 2 ^ exponent`, the significand below
`2 ^ 53`, the exponent at least `-1074` and as small as the significand allows. -/
inductive Double where
  | finite (negative : Bool) (significand : Nat) (exponent : Int)
  | infinite (negative : Bool)
  | notANumber
  deriving DecidableEq, Repr, Inhabited

/-- The power of a natural number, which is one for negative exponents. -/
def power (base : Nat) (exponent : Int) : Nat :=
  Nat.pow base exponent.toNat

namespace Double

/-- The quotient of two naturals rounded to a whole number, a tie to the even one. -/
def roundQuotient (num den : Nat) : Nat :=
  let q := num / den
  let twice := 2 * (num % den)
  if twice < den then q
  else if den < twice then q + 1
  else q + q % 2

/-- The exponent of the greatest power of two that is at most a positive quotient. -/
def binaryOrder (num den : Nat) : Int :=
  let k : Int := (num.log2 : Int) - (den.log2 : Int)
  if num * power 2 (-k) < den * power 2 k then k - 1 else k

/-- The double nearest to a quotient of naturals. -/
def ofQuotient (negative : Bool) (num den : Nat) : Double :=
  if num = 0 || den = 0 then finite negative 0 (-1074)
  else
    let e : Int := max (binaryOrder num den - 52) (-1074)
    let m := roundQuotient (num * power 2 (-e)) (den * power 2 e)
    let (m, e) := if m = power 2 53 then (power 2 52, e + 1) else (m, e)
    if 971 < e then infinite negative else finite negative m e

/-- The double nearest to `digits * 10 ^ exponent`.  Far outside the range of the doubles the
power is not formed. -/
def ofDecimal (negative : Bool) (digits : Nat) (exponent : Int) : Double :=
  let size : Int := (Nat.toDigits 10 digits).length
  if digits = 0 || exponent + size < -400 then finite negative 0 (-1074)
  else if 400 < exponent + size then infinite negative
  else ofQuotient negative (digits * power 10 exponent) (power 10 (-exponent))

/-- The double nearest to an integer. -/
def ofInt (n : Int) : Double :=
  ofQuotient (decide (n < 0)) n.natAbs 1

/-- The same number with the other sign. -/
def negate : Double → Double
  | finite s m e => finite (!s) m e
  | infinite s => infinite (!s)
  | notANumber => notANumber

/-- A finite double's value times `2 ^ 1074`, a whole number. -/
def scaled (s : Bool) (m : Nat) (e : Int) : Int :=
  let n : Int := m * power 2 (e + 1074)
  if s then -n else n

/-- The sum of two doubles. -/
def add : Double → Double → Double
  | finite s m e, finite s' m' e' =>
    let n := scaled s m e + scaled s' m' e'
    if n = 0 then finite (s && s') 0 (-1074)
    else ofQuotient (decide (n < 0)) n.natAbs (power 2 1074)
  | infinite s, infinite s' => if s = s' then infinite s else notANumber
  | infinite s, finite .. => infinite s
  | finite .., infinite s => infinite s
  | notANumber, _ => notANumber
  | _, notANumber => notANumber

/-- The product of two doubles. -/
def mul : Double → Double → Double
  | finite s m e, finite s' m' e' =>
    let k := e + e'
    ofQuotient (s != s') (m * m' * power 2 k) (power 2 (-k))
  | infinite s, finite s' m _ => if m = 0 then notANumber else infinite (s != s')
  | finite s m _, infinite s' => if m = 0 then notANumber else infinite (s != s')
  | infinite s, infinite s' => infinite (s != s')
  | notANumber, _ => notANumber
  | _, notANumber => notANumber

/-- Whether a double is the integer `n`. -/
def isInt (d : Double) (n : Int) : Bool :=
  match d with
  | finite s m e => scaled s m e == n * power 2 1074
  | _ => false

/-- Whether two doubles are one number: the zeros of both signs are. -/
def sameNumber : Double → Double → Bool
  | finite s m e, finite s' m' e' => scaled s m e == scaled s' m' e'
  | infinite s, infinite s' => s == s'
  | _, _ => false

/-- Whether a double is zero. -/
def isZero : Double → Bool
  | finite _ m _ => m == 0
  | _ => false

end Double

end OfflineSupply
