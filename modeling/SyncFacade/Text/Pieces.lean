/-! Splitting text at a separator. -/
namespace SyncFacade.Text

/-- The pieces between the separators: one more than there are separators. -/
def pieces (separator : Char) : List Char → List (List Char)
  | [] => [[]]
  | c :: cs =>
    if c = separator then [] :: pieces separator cs
    else match pieces separator cs with
      | [] => [[c]]
      | l :: ls => (c :: l) :: ls

/-- Whether a part stands somewhere in a text. -/
def occursIn (part : List Char) : List Char → Bool
  | [] => part.isEmpty
  | c :: cs => part.isPrefixOf (c :: cs) || occursIn part cs

def components (path : String) : List String := (pieces '.' path.toList).map String.ofList

def dotted (components : List String) : String := ".".intercalate components

end SyncFacade.Text
