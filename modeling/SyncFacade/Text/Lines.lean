/-! Splitting text into lines and joining lines to text. Free text such as documentation has eleven
kinds of line breaks; source text that is written out has one. -/
namespace SyncFacade.Text

/-- The characters that end a line of free text. A carriage return and the line feed after it are one
break. -/
def isLineBreak (c : Char) : Bool :=
  c = '\n' || c = '\r' || c = '\x0b' || c = '\x0c' || c = '\x1c' || c = '\x1d' || c = '\x1e' ||
    c = '\u0085' || c = '\u2028' || c = '\u2029'

/-- The lines of free text. A break ends a line, so that nothing follows a last break. -/
def lines : List Char → List (List Char)
  | [] => []
  | '\r' :: '\n' :: cs => [] :: lines cs
  | c :: cs =>
    if isLineBreak c then [] :: lines cs
    else match lines cs with
      | [] => [[c]]
      | l :: ls => (c :: l) :: ls

/-- Lines with a line feed between each two. -/
def joinLines (ls : List String) : String := "\n".intercalate ls

end SyncFacade.Text
