/-! Maps that keep the order in which their keys came first. Putting a value under a key that is there
replaces the value and leaves the key in its place. -/
namespace SyncFacade

/-- A map as the list of its entries. -/
structure OrderedMap (κ υ : Type) where
  entries : List (κ × υ) := []

namespace OrderedMap

variable {κ υ : Type} [DecidableEq κ]

def find? (m : OrderedMap κ υ) (k : κ) : Option υ := (m.entries.find? (·.1 = k)).map (·.2)

def contains (m : OrderedMap κ υ) (k : κ) : Bool := m.entries.any (·.1 = k)

def keys (m : OrderedMap κ υ) : List κ := m.entries.map (·.1)

def values (m : OrderedMap κ υ) : List υ := m.entries.map (·.2)

def put (m : OrderedMap κ υ) (k : κ) (v : υ) : OrderedMap κ υ :=
  if m.contains k then ⟨m.entries.map fun e => if e.1 = k then (k, v) else e⟩
  else ⟨m.entries ++ [(k, v)]⟩

def putAll (m : OrderedMap κ υ) (entries : List (κ × υ)) : OrderedMap κ υ :=
  entries.foldl (fun m e => m.put e.1 e.2) m

def ofList (entries : List (κ × υ)) : OrderedMap κ υ := putAll {} entries

/-- Take a key out. Put in again, it comes last. -/
def erase (m : OrderedMap κ υ) (k : κ) : OrderedMap κ υ := ⟨m.entries.filter fun e => e.1 ≠ k⟩

end OrderedMap
end SyncFacade
