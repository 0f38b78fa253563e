import SyncFacade.Decimal.Double

/-! The shortest decimal that reads back as a given double. The reals that round to the double form an
interval; the decimals of one, two, … significant digits are tried in turn, and the first grid with a
point in the interval gives the digits. -/
namespace SyncFacade.Decimal

/-- The reals that round to a double, in units of a quarter of its last place: the bounds of the
interval around the value `4 * significand`, and whether they belong to it. Below a power of two the
doubles lie twice as dense. -/
structure Interval where
  low : Nat
  value : Nat
  high : Nat
  closed : Bool

def Interval.of (significand : Nat) (exponent : Int) : Interval where
  low := if significand = leastSignificand && minExponent < exponent then 4 * significand - 1
    else 4 * significand - 2
  value := 4 * significand
  high := 4 * significand + 2
  closed := significand % 2 = 0

def digitCount (n : Nat) : Nat := (Nat.toDigits 10 n).length

/-- The exponent of the leading decimal digit of a positive quotient. -/
def leadingExponent (num den : Nat) : Int :=
  let guess : Int := (digitCount num : Int) - digitCount den
  let (n, d) := scaleBy 10 num den (-guess)
  if d ≤ n then guess else guess - 1

/-- The point `point * 10 ^ place` of a decimal grid lies in the interval, whose unit is `2 ^ unit`. -/
def Interval.contains (i : Interval) (unit : Int) (point : Nat) (place : Int) : Bool :=
  let (n, d) := scaleBy 2 1 1 unit
  let (p, q) := scaleBy 10 point 1 place
  let (low, high, mid) := (i.low * n * q, i.high * n * q, p * d)
  if i.closed then low ≤ mid && mid ≤ high else low < mid && mid < high

/-- The grid point of the given place that is nearest to the value of the interval, among its two
neighbours there that lie in the interval. Of two equally near ones the even one is taken. -/
def Interval.pick (i : Interval) (unit : Int) (place : Int) : Option Nat :=
  let (n, d) := scaleBy 2 i.value 1 unit
  let (n, d) := scaleBy 10 n d (-place)
  let below := n / d
  let rest := 2 * (n % d)
  let isBelow := i.contains unit below place
  let isAbove := i.contains unit (below + 1) place
  if isBelow && (!isAbove || rest < d || (rest = d && below % 2 = 0)) then some below
  else if isAbove then some (below + 1)
  else none

/-- A decimal without trailing zeros: a zero less, a place more. The number of digits bounds the
steps. -/
def dropZeros : (fuel : Nat) → Nat → Int → Nat × Int
  | 0, n, place => (n, place)
  | f + 1, n, place => if n % 10 = 0 then dropZeros f (n / 10) (place + 1) else (n, place)

/-- The digits and the place of the shortest decimal of a positive double. Seventeen digits always
suffice. -/
def shortest (significand : Nat) (exponent : Int) : Nat × Int :=
  let i := Interval.of significand exponent
  let unit := exponent - 2
  let (n, d) := scaleBy 2 i.value 1 unit
  let leading := leadingExponent n d
  let hit := (List.range 17).findSome? fun extra =>
    let place := leading - (extra : Nat)
    (i.pick unit place).map (·, place)
  let (point, place) := hit.getD (0, 0)
  dropZeros 20 point place

end SyncFacade.Decimal
