import SyncFacade.Error
import SyncFacade.Text.Blank
import SyncFacade.Text.Lines
import SyncFacade.Text.Pieces

/-! Documentation: how it is read from a class and how it is written into generated source. Reading
removes the indentation that the text has in its source. Writing makes a literal between triple quotes
whose lines are all indented, so that no line of a text can end the class around it. -/
namespace SyncFacade.Docstring

/-- Tabs stand for the spaces up to the next multiple of this column. -/
def tabWidth : Nat := 8

/-- A text with spaces for its tabs, from the given column on. -/
def expandTabs : (column : Nat) → List Char → List Char
  | _, [] => []
  | column, c :: cs =>
    if c = '\t' then
      let width := tabWidth - column % tabWidth
      List.replicate width ' ' ++ expandTabs (column + width) cs
    else if c = '\n' || c = '\r' then c :: expandTabs 0 cs
    else c :: expandTabs (column + 1) cs

/-- The indentation of a line that is not blank. -/
def indentation? (line : List Char) : Option Nat :=
  let content := Text.trimLeft line
  if content.isEmpty then none else some (line.length - content.length)

/-- The indentation that all lines share, blank ones aside. -/
def commonIndentation (ls : List (List Char)) : Nat := ((ls.filterMap indentation?).min?).getD 0

def trimLines (ls : List (List Char)) : List (List Char) :=
  ((ls.reverse.dropWhile List.isEmpty).reverse).dropWhile List.isEmpty

/-- The lines of a documentation: the first one without its indentation, the further ones without
that which they share. -/
def cleanLines (cs : List Char) : List (List Char) :=
  match Text.pieces '\n' (expandTabs 0 cs) with
  | [] => []
  | first :: rest =>
    let margin := commonIndentation rest
    trimLines (Text.trimLeft first :: rest.map (List.drop margin))

/-- The documentation that is read from a text. -/
def clean (s : String) : String :=
  Text.joinLines ((cleanLines s.toList).map String.ofList)

/-- Three quotes in a row would end the literal; each of them is escaped. -/
def escapeTriples : List Char → List Char
  | '"' :: '"' :: '"' :: cs => '\\' :: '"' :: '\\' :: '"' :: '\\' :: '"' :: escapeTriples cs
  | c :: cs => c :: escapeTriples cs
  | [] => []

def tripleQuote : List Char := ['"', '"', '"']

/-- The lines of the literal of a text, each behind the indentation; empty lines stay empty. A text of
one line closes on that line, one of more lines on a line of its own. The empty text has no lines, and
no literal. -/
def literalLines (indent cs : List Char) : Option (List (List Char)) :=
  match Text.lines (escapeTriples cs) with
  | [] => none
  | [l] => some [indent ++ tripleQuote ++ l ++ tripleQuote]
  | first :: rest =>
    some ((indent ++ tripleQuote ++ first) ::
      (rest.map fun l => if l.isEmpty then [] else indent ++ l) ++ [indent ++ tripleQuote])

def literal (indent doc : String) : Except GenerationError (List String) :=
  match literalLines indent.toList doc.toList with
  | some ls => .ok (ls.map String.ofList)
  | none => .error .emptyDocstring

end SyncFacade.Docstring
