/-! The order in which a class and its ancestors are searched. The orders of the bases are merged, and
the bases in declared order with them, so that none of these orders is reversed. -/
namespace SyncFacade.Lineage

variable {α : Type} [DecidableEq α]

/-- Whether an element may come next: it waits behind another one in no row. -/
def eligible (rows : List (List α)) (a : α) : Bool := rows.all fun row => !(row.drop 1).contains a

/-- The first eligible head of the rows. -/
def choose (rows : List (List α)) : Option α := (rows.filterMap List.head?).find? (eligible rows)

def advance (rows : List (List α)) (a : α) : List (List α) :=
  rows.map fun row => if row.head? = some a then row.drop 1 else row

/-- Up to so many elements of the merged rows. It ends early where the rows contradict each other. -/
def mergeUpTo : Nat → List (List α) → List α
  | 0, _ => []
  | n + 1, rows =>
    match choose rows with
    | some a => a :: mergeUpTo n (advance rows a)
    | none => []

def merge (rows : List (List α)) : List α := mergeUpTo rows.flatten.length rows

end SyncFacade.Lineage
