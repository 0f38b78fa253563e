/-! References to nominal types. A reference keeps the module it was found in, so that the text of a
generated module can decide later whether the name needs a qualifier there. -/
namespace SyncFacade

/-- A nominal type: its name, the module that defines it when one is known, and its arguments. -/
structure TypeRef where
  name : String
  module : Option String := none
  arguments : List TypeRef := []

namespace TypeRef

/-- The module that qualifies the name in print. An empty module name qualifies nothing, although
the reference still differs from one without a module. -/
def qualifier (t : TypeRef) : Option String := t.module.filter (· != "")

/-- The name behind its qualifier, without the arguments. -/
def qualifiedName (t : TypeRef) : String :=
  match t.qualifier with
  | some m => m ++ "." ++ t.name
  | none => t.name

/-- The same type applied to the given arguments. -/
def applied (t : TypeRef) (arguments : List TypeRef) : TypeRef := { t with arguments }

mutual

private def decEq : (a b : TypeRef) → Decidable (a = b)
  | ⟨n, m, as⟩, ⟨n', m', as'⟩ =>
    match decEq_list as as' with
    | isTrue ha =>
      if h : n = n' ∧ m = m' then isTrue (by rw [h.1, h.2, ha])
      else isFalse (fun e => h (by cases e; exact ⟨rfl, rfl⟩))
    | isFalse ha => isFalse (fun e => ha (by cases e; rfl))

private def decEq_list : (as bs : List TypeRef) → Decidable (as = bs)
  | [], [] => isTrue rfl
  | [], _ :: _ => isFalse nofun
  | _ :: _, [] => isFalse nofun
  | a :: as, b :: bs =>
    match decEq a b with
    | isTrue h =>
      match decEq_list as bs with
      | isTrue hs => isTrue (by rw [h, hs])
      | isFalse hs => isFalse (fun e => hs (by cases e; rfl))
    | isFalse h => isFalse (fun e => h (by cases e; rfl))

end

instance : DecidableEq TypeRef := decEq

end TypeRef
end SyncFacade
