/-! Binary floating-point numbers of double precision as exact values, and the double nearest to a
quotient of two natural numbers. -/
namespace SyncFacade.Decimal

/-- A double. A finite one is the significand times two to the exponent, with a sign of its own, so
that there are two zeros. -/
inductive Double where
  | finite (negative : Bool) (significand : Nat) (exponent : Int)
  | infinite (negative : Bool)
  | nan
deriving DecidableEq

/-- The exponent of the finest doubles, and that of the coarsest. -/
def minExponent : Int := -1074
def maxExponent : Int := 971

/-- The significand of a double that is not one of the finest lies between these powers of two. -/
def leastSignificand : Nat := Nat.pow 2 52
def significandBound : Nat := Nat.pow 2 53

/-- A quotient, multiplied by a power of a base. -/
def scaleBy (base : Nat) (num den : Nat) (exponent : Int) : Nat × Nat :=
  let power := Nat.pow base exponent.natAbs
  if exponent < 0 then (num, den * power) else (num * power, den)

/-- The natural number nearest to a quotient; of two equally near ones the even one. -/
def roundHalfEven (num den : Nat) : Nat :=
  let floor := num / den
  let twice := 2 * (num % den)
  if twice < den then floor
  else if den < twice then floor + 1
  else if floor % 2 = 0 then floor else floor + 1

namespace Double

/-- The double nearest to a quotient; of two equally near ones the one with the even significand. -/
def ofQuotient (negative : Bool) (num den : Nat) : Double :=
  if num = 0 then .finite negative 0 minExponent
  else
    let magnitude : Int := (num.log2 : Int) - den.log2
    let low := max minExponent (magnitude - 53)
    let (n, d) := scaleBy 2 num den (-low)
    let exponent := if d * significandBound ≤ n then low + 1 else low
    let (n, d) := scaleBy 2 num den (-exponent)
    let rounded := roundHalfEven n d
    let (significand, exponent) :=
      if rounded = significandBound then (leastSignificand, exponent + 1) else (rounded, exponent)
    if maxExponent < exponent then .infinite negative else .finite negative significand exponent

/-- A finite double as a quotient of natural numbers, without its sign. -/
def magnitude (significand : Nat) (exponent : Int) : Nat × Nat := scaleBy 2 significand 1 exponent

/-- Equality of numbers: the two zeros are equal, and what is not a number equals nothing. -/
def equals : Double → Double → Bool
  | .finite s m e, .finite s' m' e' =>
    let (n, d) := magnitude m e
    let (n', d') := magnitude m' e'
    n * d' = n' * d && (s = s' || m = 0)
  | .infinite s, .infinite s' => s = s'
  | _, _ => false

def equalsInt : Double → Int → Bool
  | .finite s m e, i =>
    let (n, d) := magnitude m e
    n = i.natAbs * d && (m = 0 || s = decide (i < 0))
  | _, _ => false

end Double
end SyncFacade.Decimal
