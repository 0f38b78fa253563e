import SyncFacade.Decimal.Read
import SyncFacade.Proofs.Text.Quoted
import SyncFacade.Value

/-! The values of expressions. Read are the constants, numbers with or without a minus sign, quoted literals, displays
of lists, tuples, dictionaries and sets, and the two calls that write sets without a display. There are no operators,
and no other names: what is read has the value that it has where only the built-in names are known. Calls of other
built-in names, such as `range(3)`, and imaginary numbers are left unread: there are no values for what they make. -/
namespace SyncFacade.Expression

open Decimal (Double)

/-- A text without the spaces that it begins with. -/
def skip (cs : List Char) : List Char := cs.dropWhile (· = ' ')

def readFraction : List Char → Option (List Char) × List Char
  | '.' :: cs => (some (cs.takeWhile Char.isDigit), cs.dropWhile Char.isDigit)
  | cs => (none, cs)

/-- An exponent part. Without digits there is none. -/
def readExponent : List Char → Option Int × List Char
  | c :: cs =>
    let (negative, digits) := Decimal.takeSign cs
    let exponent : Int := Nat.ofDigitChars 10 (digits.takeWhile Char.isDigit) 0
    if (c = 'e' || c = 'E') && digits.head?.any Char.isDigit then
      (some (if negative then -exponent else exponent), digits.dropWhile Char.isDigit)
    else (none, c :: cs)
  | [] => (none, [])

/-- A number without a sign. With a point or an exponent it is the nearest double; an integer other than zero does not
begin with a zero. -/
def readNumber (cs : List Char) : Option (Value × List Char) :=
  let whole := cs.takeWhile Char.isDigit
  let (fraction, rest) := readFraction (cs.dropWhile Char.isDigit)
  let (exponent, rest) := readExponent rest
  if fraction.isNone && exponent.isNone then
    if whole.head? = some '0' && whole.any (· ≠ '0') then none
    else some (.int (Nat.ofDigitChars 10 whole 0), rest)
  else
    let digits := Nat.ofDigitChars 10 (whole ++ fraction.getD []) 0
    some (.float (.ofDecimal false digits (exponent.getD 0 - (fraction.getD []).length)), rest)

def negateDouble : Double → Double
  | .finite negative m e => .finite (!negative) m e
  | .infinite negative => .infinite (!negative)
  | .nan => .nan

def negate? : Value → Option Value
  | .bool b => some (.int (-b.toNat))
  | .int i => some (.int (-i))
  | .float d => some (.float (negateDouble d))
  | _ => none

def readText (cs : List Char) : Option (Value × List Char) :=
  (Text.readQuoted true cs).bind fun (codes, cs) =>
    if codes.all (fun n => decide n.isValidChar) then some (.str (String.ofList (codes.map Char.ofNat)), cs) else none

def readBytes (cs : List Char) : Option (Value × List Char) :=
  (Text.readQuoted false cs).map fun (codes, cs) => (.bytes (codes.map UInt8.ofNat), cs)

/-- The items between brackets, with commas between them, up to the closing bracket; and whether a comma stands behind
the last one. Their number bounds the steps. -/
def readRow {α : Type} (readItem : List Char → Option (α × List Char)) (close : Char) :
    (fuel : Nat) → List Char → Option ((List α × Bool) × List Char)
  | 0, _ => none
  | fuel + 1, cs =>
    if (skip cs).head? = some close then some (([], false), (skip cs).tail)
    else (readItem (skip cs)).bind fun (a, cs) =>
      match skip cs with
      | [] => none
      | c :: cs =>
        if c = ',' then (readRow readItem close fuel cs).map fun ((as, comma), cs) => ((a :: as, as.isEmpty || comma), cs)
        else if c = close then some (([a], false), cs)
        else none

/-- A key and a value with a colon between them. -/
def readEntry (read : List Char → Option (Value × List Char)) (cs : List Char) :
    Option ((Value × Value) × List Char) :=
  (read cs).bind fun (k, cs) =>
    if (skip cs).head? = some ':' then (read (skip cs).tail).map fun (v, cs) => ((k, v), cs) else none

/-- A value in parentheses, or a tuple: one item makes a tuple by the comma behind it. -/
def parenthesized : List Value → (comma : Bool) → Value
  | [v], false => v
  | vs, _ => .tuple vs

/-- A dictionary, of which the keys must have a hash. -/
def dictionary? (es : List (Value × Value)) : Option Value :=
  if es.all (·.1.hashable) then some (.dictOf es) else none

/-- The set of the keys of a dictionary. -/
def keySet : Value → Value
  | .dict es => .set (es.map Prod.fst)
  | v => v

/-- A set, which keeps its items as a dictionary keeps its keys. -/
def set? (vs : List Value) : Option Value := (dictionary? (vs.map (·, .null))).map keySet

/-- What stands between braces: entries of a dictionary, or items of a set. -/
def readBraces (read : List Char → Option (Value × List Char)) (fuel : Nat) (cs : List Char) :
    Option (Value × List Char) :=
  match readRow (readEntry read) '\x7d' fuel cs with
  | some ((es, _), cs) => (dictionary? es).map (·, cs)
  | none => (readRow read '\x7d' fuel cs).bind fun ((vs, _), cs) => (set? vs).map (·, cs)

def isNameChar (c : Char) : Bool := c.isAlphanum || c = '_'

def constant? (name : String) : Option Value :=
  if name = "None" then some .null
  else if name = "True" then some (.bool true)
  else if name = "False" then some (.bool false)
  else if name = "Ellipsis" then some .ellipsis
  else none

/-- What the calls of two built-in names give. -/
def call? (name : String) (arguments : List Value) : Option Value :=
  match arguments with
  | [] => if name = "set" then some (.set []) else if name = "frozenset" then some (.frozenSet []) else none
  | [.set vs] => if name = "frozenset" then some (.frozenSet vs) else none
  | _ => none

/-- A constant, or a call of a name. -/
def readNamed (read : List Char → Option (Value × List Char)) (fuel : Nat) (cs : List Char) :
    Option (Value × List Char) :=
  let name := String.ofList (cs.takeWhile isNameChar)
  let rest := cs.dropWhile isNameChar
  if rest.head? = some '(' then
    (readRow read ')' fuel rest.tail).bind fun ((vs, _), cs) => (call? name vs).map (·, cs)
  else (constant? name).map (·, rest)

/-- The value of the expression that a text begins with, and what stands behind it. The length of a text bounds the
steps. -/
def read : (fuel : Nat) → List Char → Option (Value × List Char)
  | 0, _ => none
  | fuel + 1, cs =>
    match skip cs with
    | [] => none
    | c :: cs =>
      if c = '-' then (read fuel cs).bind fun (v, cs) => (negate? v).map (·, cs)
      else if c = '[' then (readRow (read fuel) ']' fuel cs).map fun ((vs, _), cs) => (.list vs, cs)
      else if c = '(' then (readRow (read fuel) ')' fuel cs).map fun ((vs, comma), cs) => (parenthesized vs comma, cs)
      else if c = '\x7b' then readBraces (read fuel) fuel cs
      else if c = '.' && cs.take 2 = ['.', '.'] then some (.ellipsis, cs.drop 2)
      else if c.isDigit then readNumber (c :: cs)
      else if Text.isQuote c then readText (c :: cs)
      else if c = 'b' && cs.head?.any Text.isQuote then readBytes cs
      else readNamed (read fuel) fuel (c :: cs)

/-- The value of a text that is an expression as a whole. -/
def evaluate? (s : String) : Option Value :=
  (read (s.toList.length + 1) s.toList).bind fun (v, rest) => if skip rest = [] then some v else none

end SyncFacade.Expression
