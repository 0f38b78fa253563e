/-! White space in documentation and in messages: the separators and the bidirectional separators of
Unicode, which is more than the blanks of ASCII. -/
namespace SyncFacade.Text

def blankRanges : List (Nat × Nat) :=
  [(0x9, 0xd), (0x1c, 0x20), (0x85, 0x85), (0xa0, 0xa0), (0x1680, 0x1680), (0x2000, 0x200a),
   (0x2028, 0x2029), (0x202f, 0x202f), (0x205f, 0x205f), (0x3000, 0x3000)]

def isBlank (c : Char) : Bool := blankRanges.any fun (lo, hi) => lo ≤ c.toNat && c.toNat ≤ hi

/-- The text without the white space it starts with. -/
def trimLeft (cs : List Char) : List Char := cs.dropWhile isBlank

/-- The text without the white space around it. -/
def trim (cs : List Char) : List Char := (trimLeft (trimLeft cs).reverse).reverse

end SyncFacade.Text
