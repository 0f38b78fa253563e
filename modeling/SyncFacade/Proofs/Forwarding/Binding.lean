import SyncFacade.Method
import SyncFacade.Proofs.Sequencing
import Mathlib.Data.List.Nodup

/-! Calls and what they bind. A call gives values by position and by name; a parameter list says where
each of them goes. The environments that come out of it are characterized without the call: each
parameter holds what its kind can hold, and no entry of a keyword collector names another parameter. -/
namespace SyncFacade

namespace ParameterKind

/-- The place of a kind in a signature. -/
def rank : ParameterKind → Nat
  | .positionalOnly => 0
  | .positionalOrKeyword => 1
  | .extraPositional => 2
  | .keywordOnly => 3
  | .extraKeyword => 4

def takesPosition : ParameterKind → Bool
  | .positionalOnly | .positionalOrKeyword => true
  | _ => false

def takesName : ParameterKind → Bool
  | .positionalOrKeyword | .keywordOnly => true
  | _ => false

/-- A parameter of such a kind holds what no other parameter takes, however much that is. -/
def collects : ParameterKind → Bool
  | .extraPositional | .extraKeyword => true
  | _ => false

/-- Kinds come in the order of their places, and none of those that collect comes twice. -/
def MayPrecede (k l : ParameterKind) : Prop := k.rank < l.rank ∨ k = l ∧ k.collects = false

instance (k l : ParameterKind) : Decidable (k.MayPrecede l) := inferInstanceAs (Decidable (_ ∨ _))

end ParameterKind

/-- A parameter list that can be declared. Whether defaults come last is not asked for. -/
structure Signature (ps : List Parameter) : Prop where
  ordered : ps.Pairwise fun p q => p.kind.MayPrecede q.kind
  distinct : (ps.map Parameter.name).Nodup

/-- The parameters that take a value by position. -/
def positionalPart (ps : List Parameter) : List Parameter := ps.filter (·.kind.takesPosition)

/-- What a parameter holds during a call. -/
inductive Held (V : Type) where
  | value (v : V)
  | sequence (vs : List V)
  | mapping (entries : List (String × V))
deriving DecidableEq

/-- The parameters of a call with what they hold, in declared order. -/
abbrev Environment (V : Type) := List (String × Held V)

/-- The values of a call. No name is given twice. -/
structure Arguments (V : Type) where
  positional : List V
  keywords : List (String × V)
  distinct : (keywords.map Prod.fst).Nodup

inductive BindingError where
  | surplus
  | unexpected (name : String)
  | repeated (name : String)
  | missing (name : String)
deriving DecidableEq

namespace Arguments

variable {V : Type}

/-- Some parameter takes a value under the name. -/
def named (ps : List Parameter) (name : String) : Bool :=
  ps.any fun p => p.kind.takesName && p.name = name

/-- The values that fill parameters by position, one after the other. -/
def slots (a : Arguments V) (ps : List Parameter) : List (String × V) :=
  ((positionalPart ps).map Parameter.name).zip a.positional

def surplusPositional (a : Arguments V) (ps : List Parameter) : List V :=
  a.positional.drop (positionalPart ps).length

/-- The keywords that name no parameter which takes a name. A parameter that takes its value by
position alone can have the name of one of them. -/
def surplusKeywords (a : Arguments V) (ps : List Parameter) : List (String × V) :=
  a.keywords.filter fun e => !named ps e.1

/-- What is left over needs a parameter that collects it. -/
def refusal (a : Arguments V) (ps : List Parameter) : Option BindingError :=
  if !(a.surplusPositional ps).isEmpty && ps.all (·.kind ≠ .extraPositional) then some .surplus
  else if ps.all (·.kind ≠ .extraKeyword) then (a.surplusKeywords ps).head?.map (.unexpected ·.1)
  else none

/-- The value for a parameter that holds one: by position or by name, but not both, else the default.
The texts of defaults have the given values. -/
def valueFor (a : Arguments V) (defaults : String → V) (ps : List Parameter) (p : Parameter) :
    Except BindingError V :=
  match (a.slots ps).lookup p.name, if p.kind.takesName then a.keywords.lookup p.name else none with
  | some _, some _ => .error (.repeated p.name)
  | some v, none => .ok v
  | none, some v => .ok v
  | none, none => match p.default with
    | some d => .ok (defaults d)
    | none => .error (.missing p.name)

def heldBy (a : Arguments V) (defaults : String → V) (ps : List Parameter) (p : Parameter) :
    Except BindingError (Held V) :=
  match p.kind with
  | .extraPositional => .ok (.sequence (a.surplusPositional ps))
  | .extraKeyword => .ok (.mapping (a.surplusKeywords ps))
  | _ => (a.valueFor defaults ps p).map .value

/-- The environment of a call, unless the call does not fit the parameters. -/
def bind (a : Arguments V) (defaults : String → V) (ps : List Parameter) :
    Except BindingError (Environment V) :=
  match a.refusal ps with
  | some e => .error e
  | none => ps.mapM fun p => (a.heldBy defaults ps p).map (p.name, ·)

end Arguments

variable {V : Type} {ps : List Parameter} {held : Parameter → Held V}

/-- The environments that calls bind. Names of entries say nothing about the call that gave them: only
that no parameter would have taken them is left to see. -/
structure Fits (ps : List Parameter) (held : Parameter → Held V) : Prop where
  value : ∀ p ∈ ps, p.kind.collects = false → ∃ v, held p = .value v
  sequence : ∀ p ∈ ps, p.kind = .extraPositional → ∃ vs, held p = .sequence vs
  mapping : ∀ p ∈ ps, p.kind = .extraKeyword → ∃ entries, held p = .mapping entries ∧
    (entries.map Prod.fst).Nodup ∧ ∀ e ∈ entries, Arguments.named ps e.1 = false

def environment (ps : List Parameter) (held : Parameter → Held V) : Environment V :=
  ps.map fun p => (p.name, held p)

theorem Arguments.surplusKeywords_distinct (a : Arguments V) (ps : List Parameter) :
    ((a.surplusKeywords ps).map Prod.fst).Nodup :=
  a.distinct.sublist (List.filter_sublist.map Prod.fst)

theorem Arguments.surplusKeywords_unnamed {a : Arguments V} {e : String × V}
    (surplus : e ∈ a.surplusKeywords ps) : Arguments.named ps e.1 = false := by
  simpa using (List.mem_filter.mp surplus).2

theorem Arguments.heldBy_value {a : Arguments V} {defaults : String → V} {p : Parameter} {h : Held V}
    (kind : p.kind.collects = false) (ok : a.heldBy defaults ps p = .ok h) : ∃ v, h = .value v := by
  have single : a.heldBy defaults ps p = (a.valueFor defaults ps p).map .value := by
    unfold Arguments.heldBy
    cases same : p.kind <;> simp_all [ParameterKind.collects]
  rw [single] at ok
  cases found : a.valueFor defaults ps p with
  | error e => simp [found, Except.map] at ok
  | ok v =>
    simp only [found, Except.map, Except.ok.injEq] at ok
    exact ⟨v, ok.symm⟩

/-- A call that binds leaves an environment of this form. -/
theorem Arguments.bind_fits {a : Arguments V} {defaults : String → V} {env : Environment V}
    (bound : a.bind defaults ps = .ok env) :
    ∃ held, Fits ps held ∧ env = environment ps held := by
  unfold Arguments.bind at bound
  cases refused : a.refusal ps with
  | some e => simp [refused] at bound
  | none =>
    simp only [refused] at bound
    let held (p : Parameter) : Held V :=
      match a.heldBy defaults ps p with | .ok h => h | .error _ => .sequence []
    have each : ∀ p ∈ ps, a.heldBy defaults ps p = .ok (held p) := by
      intro p member
      obtain ⟨entry, _, ok⟩ := exists_of_mapM_ok bound p member
      cases found : a.heldBy defaults ps p with
      | error e => simp [found, Except.map] at ok
      | ok h => simp [held, found]
    refine ⟨held, ⟨?_, ?_, ?_⟩, ?_⟩
    · intro p member kind
      exact heldBy_value kind (each p member)
    · intro p member kind
      have ok := each p member
      simp only [Arguments.heldBy, kind, Except.ok.injEq] at ok
      exact ⟨_, ok.symm⟩
    · intro p member kind
      have ok := each p member
      simp only [Arguments.heldBy, kind, Except.ok.injEq] at ok
      exact ⟨_, ok.symm, a.surplusKeywords_distinct ps, fun e => a.surplusKeywords_unnamed⟩
    · have all := mapM_eq_pure
        (f := fun p => (a.heldBy defaults ps p).map (p.name, ·)) (g := fun p => (p.name, held p))
        (fun p member => by rw [each p member]; rfl)
      exact Except.ok.inj (bound.symm.trans all)

end SyncFacade
