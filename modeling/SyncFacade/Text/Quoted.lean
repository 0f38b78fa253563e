import SyncFacade.Text.Printable

/-! Quoted literals of texts and of byte strings. The quote is `'`, or `"` where the content has a `'`
and no `"`; the quote itself, the backslash and what cannot be shown are escaped. -/
namespace SyncFacade.Text

def hexDigit (n : Nat) : Char :=
  if n < 10 then Char.ofNat ('0'.toNat + n) else Char.ofNat ('a'.toNat + (n - 10))

/-- The last `width` hexadecimal digits of a number. -/
def hexDigits : (width : Nat) → Nat → List Char
  | 0, _ => []
  | w + 1, n => hexDigits w (n / 16) ++ [hexDigit (n % 16)]

/-- The quote around a content: the single one, unless the content has it and lacks the other. -/
def quoteFor (hasSingle hasDouble : Bool) : Char := if hasSingle && !hasDouble then '"' else '\''

/-- A code point as an escape, in the shortest form that fits. -/
def escapeCode (n : Nat) : List Char :=
  if n < 0x100 then '\\' :: 'x' :: hexDigits 2 n
  else if n < 0x10000 then '\\' :: 'u' :: hexDigits 4 n
  else '\\' :: 'U' :: hexDigits 8 n

/-- The escapes that texts and byte strings share. -/
def escapeCommon (quote c : Char) : Option (List Char) :=
  if c = quote || c = '\\' then some ['\\', c]
  else if c = '\n' then some ['\\', 'n']
  else if c = '\r' then some ['\\', 'r']
  else if c = '\t' then some ['\\', 't']
  else none

def escapeChar (quote c : Char) : List Char :=
  (escapeCommon quote c).getD (if isPrintable c then [c] else escapeCode c.toNat)

/-- A byte is shown as the ASCII character of its number, if that one can be shown. -/
def escapeByte (quote : Char) (b : UInt8) : List Char :=
  let c := Char.ofNat b.toNat
  (escapeCommon quote c).getD
    (if 0x20 ≤ b.toNat && b.toNat ≤ 0x7e then [c] else escapeCode b.toNat)

def quoted (cs : List Char) : List Char :=
  let quote := quoteFor (cs.contains '\'') (cs.contains '"')
  quote :: cs.flatMap (escapeChar quote) ++ [quote]

def quotedBytes (bs : List UInt8) : List Char :=
  let quote := quoteFor (bs.contains 0x27) (bs.contains 0x22)
  'b' :: quote :: bs.flatMap (escapeByte quote) ++ [quote]

def quote (s : String) : String := String.ofList (quoted s.toList)

end SyncFacade.Text
