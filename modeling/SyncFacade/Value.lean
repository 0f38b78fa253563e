import SyncFacade.Decimal.Shortest
import SyncFacade.Text.Quoted

/-! Values that stand in a class as written: defaults of parameters, arguments of literal types and
metadata of annotations. A value is known by its text, which is the source a description keeps. -/
namespace SyncFacade

open Decimal (Double)

/-- A value. A member of an enumeration is known by both names and its value, and an object of any other
type only by its text. The items of a set stand in the order in which they are gone through. A range, a slice
and a complex number are no values in this sense: their texts are calls or sums that make equal ones again,
which an object that is known by its text cannot say. -/
inductive Value where
  | null
  | bool (b : Bool)
  | int (i : Int)
  | float (d : Double)
  | str (s : String)
  | bytes (bs : List UInt8)
  | list (items : List Value)
  | tuple (items : List Value)
  | dict (entries : List (Value × Value))
  | set (items : List Value)
  | frozenSet (items : List Value)
  | ellipsis
  | member (enumeration name : String) (value : Value)
  | object (text : String)

namespace Value

/-- The least exponent, and the first one too large, that a float is written with in full; beyond
these the leading digit stands alone and the exponent follows, with a sign and two digits or more. -/
def fullFrom : Int := -4
def fullBelow : Int := 16

def exponentText (e : Int) : String :=
  let digits := toString e.natAbs
  "e" ++ (if e < 0 then "-" else "+") ++ (if digits.length < 2 then "0" ++ digits else digits)

def zeros (n : Nat) : String := String.ofList (List.replicate n '0')

/-- The text of the positive decimal `digits * 10 ^ place`. An integral number keeps `.0`. -/
def decimalText (digits : Nat) (place : Int) : String :=
  let ds := Nat.toDigits 10 digits
  let leading := place + ds.length - 1
  if leading < fullFrom || fullBelow ≤ leading then
    let rest := ds.drop 1
    String.ofList (ds.take 1) ++ (if rest.isEmpty then "" else "." ++ String.ofList rest) ++
      exponentText leading
  else if 0 ≤ place then String.ofList ds ++ zeros place.toNat ++ ".0"
  else if leading < 0 then "0." ++ zeros (-leading - 1).toNat ++ String.ofList ds
  else String.ofList (ds.take (leading + 1).toNat) ++ "." ++ String.ofList (ds.drop (leading + 1).toNat)

/-- The text of a float: the shortest decimal that reads back. -/
def floatText : Double → String
  | .nan => "nan"
  | .infinite negative => if negative then "-inf" else "inf"
  | .finite negative significand exponent =>
    (if negative then "-" else "") ++
      if significand = 0 then "0.0"
      else
        let (digits, place) := Decimal.shortest significand exponent
        decimalText digits place

mutual

def text : Value → String
  | .null => "None"
  | .bool b => if b then "True" else "False"
  | .int i => toString i
  | .float d => floatText d
  | .str s => Text.quote s
  | .bytes bs => String.ofList (Text.quotedBytes bs)
  | .list vs => "[" ++ ", ".intercalate (texts vs) ++ "]"
  | .tuple [v] => "(" ++ text v ++ ",)"
  | .tuple vs => "(" ++ ", ".intercalate (texts vs) ++ ")"
  | .dict es => "\x7b" ++ ", ".intercalate (entryTexts es) ++ "\x7d"
  | .set [] => "set()"
  | .set vs => "\x7b" ++ ", ".intercalate (texts vs) ++ "\x7d"
  | .frozenSet [] => "frozenset()"
  | .frozenSet vs => "frozenset(\x7b" ++ ", ".intercalate (texts vs) ++ "\x7d)"
  | .ellipsis => "Ellipsis"
  | .member e n v => "<" ++ e ++ "." ++ n ++ ": " ++ text v ++ ">"
  | .object t => t

def texts : List Value → List String
  | [] => []
  | v :: vs => text v :: texts vs

def entryTexts : List (Value × Value) → List String
  | [] => []
  | (k, v) :: es => (text k ++ ": " ++ text v) :: entryTexts es

end

def typeName : Value → String
  | .null => "NoneType"
  | .bool _ => "bool"
  | .int _ => "int"
  | .float _ => "float"
  | .str _ => "str"
  | .bytes _ => "bytes"
  | .list _ => "list"
  | .tuple _ => "tuple"
  | .dict _ => "dict"
  | .set _ => "set"
  | .frozenSet _ => "frozenset"
  | .ellipsis => "ellipsis"
  | .member e _ _ => e
  | .object _ => "object"

mutual

/-- Equality of values. Numbers are equal across their types, and the items of sets and dictionaries have no
order. An object known only by its text equals nothing else, nor does a member of an enumeration, which is
made together with it. -/
def equals : Value → Value → Bool
  | .null, .null => true
  | .bool b, v => equalsInt b.toNat v
  | .int i, v => equalsInt i v
  | .float d, .float d' => d.equals d'
  | .float d, .int i => d.equalsInt i
  | .float d, .bool b => d.equalsInt b.toNat
  | .str s, .str s' => s = s'
  | .bytes s, .bytes s' => s = s'
  | .list vs, .list vs' => allEqual vs vs'
  | .tuple vs, .tuple vs' => allEqual vs vs'
  | .dict es, .dict es' => es.length = es'.length && allIn es es'
  | .set vs, .set vs' => vs.length = vs'.length && allAmong vs vs'
  | .set vs, .frozenSet vs' => vs.length = vs'.length && allAmong vs vs'
  | .frozenSet vs, .set vs' => vs.length = vs'.length && allAmong vs vs'
  | .frozenSet vs, .frozenSet vs' => vs.length = vs'.length && allAmong vs vs'
  | .ellipsis, .ellipsis => true
  | _, _ => false

def equalsInt : Int → Value → Bool
  | i, .bool b => i = b.toNat
  | i, .int i' => i = i'
  | i, .float d => d.equalsInt i
  | _, _ => false

def allEqual : List Value → List Value → Bool
  | [], [] => true
  | v :: vs, v' :: vs' => equals v v' && allEqual vs vs'
  | _, _ => false

def allAmong : List Value → List Value → Bool
  | [], _ => true
  | v :: vs, vs' => vs'.any (fun w => equals v w) && allAmong vs vs'
termination_by structural vs => vs

def allIn : List (Value × Value) → List (Value × Value) → Bool
  | [], _ => true
  | (k, v) :: es, es' => es'.any (fun e => equals k e.1 && equals v e.2) && allIn es es'

end

mutual

/-- Whether a value has a hash: it does unless it can change, or holds one that can. -/
def hashable : Value → Bool
  | .list _ => false
  | .dict _ => false
  | .set _ => false
  | .tuple vs => allHashable vs
  | _ => true

def allHashable : List Value → Bool
  | [] => true
  | v :: vs => hashable v && allHashable vs

end

/-- Whether a value counts as true: it does unless it is nothing, zero or empty. -/
def truthy : Value → Bool
  | .null => false
  | .bool b => b
  | .int i => i ≠ 0
  | .float d => !d.equalsInt 0
  | .str s => s ≠ ""
  | .bytes bs => !bs.isEmpty
  | .list vs => !vs.isEmpty
  | .tuple vs => !vs.isEmpty
  | .dict es => !es.isEmpty
  | .set vs => !vs.isEmpty
  | .frozenSet vs => !vs.isEmpty
  | _ => true

/-- The dictionary that a list of entries makes: an entry whose key is there already replaces the
value and leaves key and place. -/
def dictOf (entries : List (Value × Value)) : Value := .dict (entries.foldl put [])
where
  put (es : List (Value × Value)) (e : Value × Value) : List (Value × Value) :=
    if es.any (·.1.equals e.1) then es.map fun old => if old.1.equals e.1 then (old.1, e.2) else old
    else es ++ [e]

end Value
end SyncFacade
