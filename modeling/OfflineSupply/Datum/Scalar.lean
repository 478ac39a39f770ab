import OfflineSupply.Calendar
import OfflineSupply.Number.Double
import OfflineSupply.Text.Raw

/-!
# Scalars

A scalar is a loaded value without parts.  Numbers and truth values are compared as numbers,
so that one, one point nought and true are one key; all other kinds are compared within their
kind.  What is no number equals nothing, so as a key it is told from others by its origin.
-/

namespace OfflineSupply

/-- A loaded value without parts. -/
inductive Scalar where
  | null
  | bool (value : Bool)
  | integer (value : Int)
  /-- A double; `origin` tells those apart that are no numbers. -/
  | double (value : Double) (origin : Nat)
  | text (value : RawText)
  | octets (value : List UInt8)
  | date (value : Date)
  | instant (value : Instant)
  deriving DecidableEq, Inhabited

namespace Scalar

/-- A truth value or a whole number, as a number. -/
def wholeNumber? : Scalar → Option Int
  | bool b => some (if b then 1 else 0)
  | integer n => some n
  | _ => none

/-- Whether two scalars are one key. -/
def sameKey (a b : Scalar) : Bool :=
  match a, b with
  | null, null => true
  | text s, text t => s == t
  | octets s, octets t => s == t
  | date d, date e => d == e
  | instant i, instant j => i.sameMoment j
  | double .notANumber i, double .notANumber j => i == j
  | double d _, double e _ => d.sameNumber e
  | double d _, n => n.wholeNumber?.any d.isInt
  | n, double d _ => n.wholeNumber?.any d.isInt
  | m, n =>
    match m.wholeNumber?, n.wholeNumber? with
    | some i, some j => i == j
    | _, _ => false

/-- The entries with one put in: a key that is there keeps its place and its first form. -/
def putKey {α : Type} (entries : List (Scalar × α)) (key : Scalar) (value : α) :
    List (Scalar × α) :=
  if entries.any (·.1.sameKey key) then
    entries.map fun entry => if entry.1.sameKey key then (entry.1, value) else entry
  else entries ++ [(key, value)]

/-- The name of a scalar's kind, as messages give it. -/
def kind : Scalar → String
  | null => "NoneType"
  | bool _ => "bool"
  | integer _ => "int"
  | double .. => "float"
  | text _ => "str"
  | octets _ => "bytes"
  | date _ => "date"
  | instant _ => "datetime"

/-- The greatest number of digits of a whole number in base ten. -/
def decimalLimit : Nat := 4300

/-- Whether a scalar is a whole number with more digits in base ten than are written. -/
def isTooLong : Scalar → Bool
  | integer n => power 10 decimalLimit ≤ n.natAbs
  | _ => false

end Scalar

end OfflineSupply
