import SyncFacade.Value

/-! The documentation that a value takes from its type. A value in a class has no documentation of its
own, so this is what a reader of the class finds. -/
namespace SyncFacade.Value

def boolDoc : String :=
"bool(x) -> bool

Returns True when the argument x is true, False otherwise.
The builtins True and False are the only two instances of the class bool.
The class bool is a subclass of the class int, and cannot be subclassed."

def intDoc : String :=
"int([x]) -> integer
int(x, base=10) -> integer

Convert a number or string to an integer, or return 0 if no arguments
are given.  If x is a number, return x.__int__().  For floating point
numbers, this truncates towards zero.

If x is not a number or if base is given, then x must be a string,
bytes, or bytearray instance representing an integer literal in the
given base.  The literal can be preceded by '+' or '-' and be surrounded
by whitespace.  The base defaults to 10.  Valid bases are 0 and 2-36.
Base 0 means to interpret the base from the string as an integer literal.
>>> int('0b100', base=0)
4"

def floatDoc : String :=
"Convert a string or number to a floating point number, if possible."

def strDoc : String :=
"str(object='') -> str
str(bytes_or_buffer[, encoding[, errors]]) -> str

Create a new string object from the given object. If encoding or
errors is specified, then the object must expose a data buffer
that will be decoded using the given encoding and error handler.
Otherwise, returns the result of object.__str__() (if defined)
or repr(object).
encoding defaults to sys.getdefaultencoding().
errors defaults to 'strict'."

def bytesDoc : String :=
"bytes(iterable_of_ints) -> bytes
bytes(string, encoding[, errors]) -> bytes
bytes(bytes_or_buffer) -> immutable copy of bytes_or_buffer
bytes(int) -> bytes object of size given by the parameter initialized with null bytes
bytes() -> empty bytes object

Construct an immutable array of bytes from:
  - an iterable yielding integers in range(256)
  - a text string encoded using the specified encoding
  - any object implementing the buffer API.
  - an integer"

def listDoc : String :=
"Built-in mutable sequence.

If no argument is given, the constructor creates a new empty list.
The argument must be an iterable if specified."

def tupleDoc : String :=
"Built-in immutable sequence.

If no argument is given, the constructor returns an empty tuple.
If iterable is specified the tuple is initialized from iterable's items.

If the argument is a tuple, the return value is the same object."

def dictDoc : String :=
"dict() -> new empty dictionary
dict(mapping) -> new dictionary initialized from a mapping object's
    (key, value) pairs
dict(iterable) -> new dictionary initialized as if via:
    d = \x7b\x7d
    for k, v in iterable:
        d[k] = v
dict(**kwargs) -> new dictionary initialized with the name=value pairs
    in the keyword argument list.  For example:  dict(one=1, two=2)"

def setDoc : String :=
"set() -> new empty set object
set(iterable) -> new set object

Build an unordered collection of unique elements."

def frozenSetDoc : String :=
"frozenset() -> empty frozenset object
frozenset(iterable) -> frozenset object

Build an immutable unordered collection of unique elements."

/-- The documentation of the type of a value, where the type has one. -/
def typeDoc : Value → Option String
  | .bool _ => some boolDoc
  | .int _ => some intDoc
  | .float _ => some floatDoc
  | .str _ => some strDoc
  | .bytes _ => some bytesDoc
  | .list _ => some listDoc
  | .tuple _ => some tupleDoc
  | .dict _ => some dictDoc
  | .set _ => some setDoc
  | .frozenSet _ => some frozenSetDoc
  | _ => none

end SyncFacade.Value
