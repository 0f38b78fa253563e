import SyncFacade.Decimal.Double
import SyncFacade.Text.Blank
import SyncFacade.Text.Digit

/-! Reading numbers from decimal text. An integer is a sign and digits; a double is a sign, then digits
with a point and an exponent, or one of the words for the infinities and for what is not a number. White
space may stand around a number, and a single underscore between two digits. -/
namespace SyncFacade.Decimal

/-- The digits in front of a text, and the text after them. An underscore counts only between two
digits. -/
def takeDigits : List Char → List Nat × List Char
  | [] => ([], [])
  | c :: '_' :: d :: cs =>
    match Text.digit? c with
    | none => ([], c :: '_' :: d :: cs)
    | some n =>
      if Text.isDigit d then
        let (ds, rest) := takeDigits (d :: cs)
        (n :: ds, rest)
      else ([n], '_' :: d :: cs)
  | c :: cs =>
    match Text.digit? c with
    | none => ([], c :: cs)
    | some n =>
      let (ds, rest) := takeDigits cs
      (n :: ds, rest)

def ofDigits (ds : List Nat) : Nat := ds.foldl (fun n d => 10 * n + d) 0

def takeSign : List Char → Bool × List Char
  | '-' :: cs => (true, cs)
  | '+' :: cs => (false, cs)
  | cs => (false, cs)

def readInt? (s : String) : Option Int :=
  let (negative, cs) := takeSign (Text.trim s.toList)
  match takeDigits cs with
  | (d :: ds, []) => some ((if negative then -1 else 1) * (ofDigits (d :: ds) : Int))
  | _ => none

/-- An exponent part, or none where the text does not continue with one. -/
def takeExponent : List Char → Option (Int × List Char)
  | c :: cs =>
    if c = 'e' || c = 'E' then
      let (negative, cs) := takeSign cs
      match takeDigits cs with
      | ([], _) => none
      | (ds, rest) => some ((if negative then -1 else 1) * (ofDigits ds : Int), rest)
    else some (0, c :: cs)
  | [] => some (0, [])

/-- The double nearest to `digits * 10 ^ place`. Where the leading digit is far outside the range of
doubles, the result does not depend on the digits. -/
def Double.ofDecimal (negative : Bool) (digits : Nat) (place : Int) : Double :=
  let leading : Int := (Nat.toDigits 10 digits).length + place
  if digits = 0 || leading < -400 then .finite negative 0 minExponent
  else if 400 < leading then .infinite negative
  else
    let (n, d) := scaleBy 10 digits 1 place
    Double.ofQuotient negative n d

def Double.read? (s : String) : Option Double :=
  let (negative, cs) := takeSign (Text.trim s.toList)
  let word := String.ofList (cs.map Char.toLower)
  if word = "inf" || word = "infinity" then some (.infinite negative)
  else if word = "nan" then some .nan
  else
    let (whole, rest) := takeDigits cs
    let (fraction, rest) := match rest with
      | '.' :: rest => takeDigits rest
      | _ => ([], rest)
    if whole.isEmpty && fraction.isEmpty then none
    else match takeExponent rest with
      | some (exponent, []) =>
        some (.ofDecimal negative (ofDigits (whole ++ fraction)) (exponent - fraction.length))
      | _ => none

end SyncFacade.Decimal
