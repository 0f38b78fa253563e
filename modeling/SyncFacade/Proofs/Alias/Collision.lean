import SyncFacade.Proofs.Alias.Mangling
import SyncFacade.Proofs.Source.Openings

/-! When two aliases of a module are the same, or one of them is the name of a class that follows. Each alias is
searched on its own, and among the parameters only. So the aliases of two names meet where one name is the other
behind underscores, and parameters have all that lies between. -/
namespace SyncFacade

theorem underscored_add (name : String) (j k : Nat) :
    underscored (underscored name j) k = underscored name (k + j) := by
  apply String.toList_injective
  simp only [toList_underscored, ← List.append_assoc, List.replicate_append_replicate]

theorem underscored_one (name : String) : underscored name 1 = "_" ++ name := rfl

/-- The name behind the fewest underscores that make it none of the taken ones. -/
def FirstFree (name : String) (taken : List String) (s : String) : Prop :=
  ∃ k, s = underscored name k ∧ s ∉ taken ∧ ∀ j < k, underscored name j ∈ taken

theorem firstFree_iff {name s : String} {taken : List String} :
    FirstFree name taken s ↔ s = freeName name taken := by
  obtain ⟨n, _, chosen, free, before⟩ := freeName_least name taken
  constructor
  · rintro ⟨k, rfl, open_, all⟩
    rw [chosen]
    rcases Nat.lt_trichotomy k n with below | rfl | above
    · exact absurd (before k below) open_
    · rfl
    · exact absurd (all n above) free
  · rintro rfl
    exact ⟨n, chosen, freeName_not_mem name taken, before⟩

theorem freeName_underscored_iff {name : String} {k : Nat} {taken : List String} :
    freeName (underscored name k) taken = freeName name taken ↔ ∀ i < k, underscored name i ∈ taken := by
  obtain ⟨m, _, chosen, free, before⟩ := freeName_least (underscored name k) taken
  rw [chosen, underscored_add, ← firstFree_iff]
  rw [underscored_add] at free
  constructor
  · rintro ⟨n, same, _, all⟩ i below
    have steps := underscored_injective name same
    exact all i (by omega)
  · intro taken_before
    refine ⟨m + k, rfl, free, fun j below => ?_⟩
    by_cases early : j < k
    · exact taken_before j early
    · have later := before (j - k) (by omega)
      rwa [underscored_add, Nat.sub_add_cancel (by omega)] at later

theorem replicate_append_cancel {cs ds : List Char} (start : cs.head? ≠ some '_') {m n : Nat}
    (same : List.replicate m '_' ++ ds = List.replicate n '_' ++ cs) :
    ∃ k, ds = List.replicate k '_' ++ cs ∧ m + k = n := by
  induction m generalizing n with
  | zero => exact ⟨n, by simpa using same, Nat.zero_add n⟩
  | succ m ih =>
    cases n with
    | zero =>
      have begins : cs.head? = some '_' := by
        rw [← List.nil_append cs, ← List.replicate_zero, ← same]
        rfl
      exact absurd begins start
    | succ n =>
      rw [List.replicate_succ, List.replicate_succ, List.cons_append, List.cons_append] at same
      obtain ⟨k, rest, total⟩ := ih (List.cons.inj same).2
      exact ⟨k, rest, by omega⟩

theorem underscored_cancel {name other : String} (start : name.toList.head? ≠ some '_') {m n : Nat}
    (same : underscored other m = underscored name n) : ∃ k, other = underscored name k ∧ m + k = n := by
  have spelled := congrArg String.toList same
  rw [toList_underscored, toList_underscored] at spelled
  obtain ⟨k, rest, total⟩ := replicate_append_cancel start spelled
  exact ⟨k, String.toList_injective (by rw [toList_underscored, rest]), total⟩

theorem underscored_alias (name : String) (k : Nat) :
    "_" ++ underscored name k = underscored ("_" ++ name) k := by
  rw [← underscored_one, ← underscored_one, underscored_add, underscored_add, Nat.add_comm]

/-- The aliases of two names are the same where one name is the other behind underscores, and there is a
parameter for each smaller number of them. -/
theorem alias_eq_alias_iff (name : String) {other : String} {taken : List String}
    (start : name.toList.head? ≠ some '_') :
    freeName ("_" ++ other) taken = freeName ("_" ++ name) taken ↔
      ∃ k, other = underscored name k ∧ ∀ i < k, underscored ("_" ++ name) i ∈ taken := by
  constructor
  · intro same
    obtain ⟨i, _, first, _⟩ := freeName_least ("_" ++ name) taken
    obtain ⟨j, _, second, _⟩ := freeName_least ("_" ++ other) taken
    have spelled : underscored other (j + 1) = underscored name (i + 1) := by
      rw [← underscored_add, ← underscored_add, underscored_one, underscored_one, ← first, ← second, same]
    obtain ⟨k, rfl, _⟩ := underscored_cancel start spelled
    refine ⟨k, rfl, freeName_underscored_iff.mp ?_⟩
    rw [← same, underscored_alias]
  · rintro ⟨k, rfl, all⟩
    rw [underscored_alias, freeName_underscored_iff.mpr all]

/-- The aliases that a module binds: those of the wrappers that its bodies call, and that of its scope. -/
def boundAliases (wrappers : List Wrapper) (scope : Option ScopeProvider) (target : Option String) :
    List String :=
  let aliases := Aliases.choose wrappers scope target
  (if (bodiesOf wrappers).any Body.isDeferred then [aliases.deferredWrapper] else []) ++
    (if (bodiesOf wrappers).any Body.isStream then [aliases.streamWrapper] else []) ++ aliases.scope.toList

/-- A line that imports something under an alias. -/
def Binds (line localName : String) : Prop := ∃ module name, line = aliasImport module name localName

section Module

variable (wrappers : List Wrapper) (scope : Option ScopeProvider) (target : Option String)

theorem binds_boundAliases : List.Forall₂ Binds
    (aliasImports (Aliases.choose wrappers scope target) (bodiesOf wrappers) target scope)
    (boundAliases wrappers scope target) := by
  have each : ∀ (b : Bool) (module name localName : String), List.Forall₂ Binds
      (if b then [aliasImport module name localName] else []) (if b then [localName] else []) := by
    intro b module name localName
    cases b with
    | true => exact .cons ⟨module, name, rfl⟩ .nil
    | false => exact .nil
  refine List.rel_append (List.rel_append (each _ _ _ _) (each _ _ _ _)) ?_
  cases scope with
  | none => exact .nil
  | some p =>
    cases foreign : p.foreignModule target with
    | none => simp [Aliases.choose, Option.filter, foreign]
    | some module =>
      simp only [Aliases.choose, Option.filter, foreign, Option.bind_some, Option.isSome_some, if_true]
      exact .cons ⟨module, p.name, rfl⟩ .nil

theorem nodup_optional_iff {a b : String} {p q : Bool} {rest : Option String} :
    ((if p then [a] else []) ++ (if q then [b] else []) ++ rest.toList).Nodup ↔
      (p = true → q = true → a ≠ b) ∧ (p = true → ∀ s ∈ rest.toList, s ≠ a) ∧
        (q = true → ∀ s ∈ rest.toList, s ≠ b) := by
  cases p <;> cases q <;> cases rest <;> simp [eq_comm, and_assoc]

theorem forall_mem_optional_iff {a b : String} {p q : Bool} {rest : Option String} {holds : String → Prop} :
    (∀ s ∈ (if p then [a] else []) ++ (if q then [b] else []) ++ rest.toList, holds s) ↔
      (p = true → holds a) ∧ (q = true → holds b) ∧ ∀ s ∈ rest.toList, holds s := by
  cases p <;> cases q <;> simp

/-- The scope of a module is not called like a wrapper that its bodies call, nor like it behind underscores that
parameters bring the alias to, and no class is called like an alias. -/
structure AliasesApart (classNames : List String) : Prop where
  deferredScope : (bodiesOf wrappers).any Body.isDeferred = true → ∀ p, scope = some p →
    (p.foreignModule target).isSome = true → ∀ k, p.name = underscored deferredWrapper.name k →
      ∃ i < k, underscored ("_" ++ deferredWrapper.name) i ∉ Aliases.parameterNames wrappers
  streamScope : (bodiesOf wrappers).any Body.isStream = true → ∀ p, scope = some p →
    (p.foreignModule target).isSome = true → ∀ k, p.name = underscored streamWrapper.name k →
      ∃ i < k, underscored ("_" ++ streamWrapper.name) i ∉ Aliases.parameterNames wrappers
  deferredClass : (bodiesOf wrappers).any Body.isDeferred = true → ∀ c ∈ classNames,
    ¬ FirstFree ("_" ++ deferredWrapper.name) (Aliases.parameterNames wrappers) c
  streamClass : (bodiesOf wrappers).any Body.isStream = true → ∀ c ∈ classNames,
    ¬ FirstFree ("_" ++ streamWrapper.name) (Aliases.parameterNames wrappers) c
  scopeClass : ∀ p, scope = some p → (p.foreignModule target).isSome = true → ∀ c ∈ classNames,
    ¬ FirstFree ("_" ++ p.name) (Aliases.parameterNames wrappers) c

theorem wrapper_aliases_ne : (Aliases.choose wrappers scope target).deferredWrapper ≠
    (Aliases.choose wrappers scope target).streamWrapper := by
  intro same
  obtain ⟨k, spelled, _⟩ := (alias_eq_alias_iff streamWrapper.name (by decide)).mp same
  have letter : 'S' ∈ deferredWrapper.name.toList := by
    rw [spelled, toList_underscored]
    exact List.mem_append_right _ (by decide)
  exact absurd letter (by decide)

theorem forall_ne_alias_iff (name : String) (start : name.toList.head? ≠ some '_') :
    (∀ s ∈ (Aliases.choose wrappers scope target).scope.toList,
        s ≠ freeName ("_" ++ name) (Aliases.parameterNames wrappers)) ↔
      ∀ p, scope = some p → (p.foreignModule target).isSome = true → ∀ k, p.name = underscored name k →
        ∃ i < k, underscored ("_" ++ name) i ∉ Aliases.parameterNames wrappers := by
  rw [forall_scope_iff]
  simp only [ne_eq, alias_eq_alias_iff name start]
  push Not
  rfl

/-- The lines that import a module's aliases bind them one by one. They are all different, and different from the
names of all classes, exactly when no name meets one of them as told. -/
theorem aliases_apart_iff (interfaces : List Interface) :
    (∀ source, moduleLines target interfaces wrappers scope = .ok source →
      ∃ imports, source.filter (Opens "from ") = "from __future__ import annotations" :: imports ∧
        List.Forall₂ Binds imports (boundAliases wrappers scope target)) ∧
    ((boundAliases wrappers scope target).Nodup ∧ (∀ s ∈ boundAliases wrappers scope target,
        s ∉ interfaces.map Interface.name ++ wrappers.map Wrapper.name) ↔
      AliasesApart wrappers scope target (interfaces.map Interface.name ++ wrappers.map Wrapper.name)) := by
  constructor
  · intro source text
    exact ⟨_, from_lines text, binds_boundAliases wrappers scope target⟩
  · generalize interfaces.map Interface.name ++ wrappers.map Wrapper.name = classNames
    have away : ∀ name, freeName ("_" ++ name) (Aliases.parameterNames wrappers) ∉ classNames ↔
        ∀ c ∈ classNames, ¬ FirstFree ("_" ++ name) (Aliases.parameterNames wrappers) c := by
      intro name
      simp only [firstFree_iff]
      exact ⟨fun apart c listed same => apart (same ▸ listed), fun each listed => each _ listed rfl⟩
    have deferred := forall_ne_alias_iff wrappers scope target deferredWrapper.name (by decide)
    have stream := forall_ne_alias_iff wrappers scope target streamWrapper.name (by decide)
    have imported := forall_scope_iff wrappers scope target (· ∉ classNames)
    have distinct := wrapper_aliases_ne wrappers scope target
    rw [boundAliases, nodup_optional_iff, forall_mem_optional_iff]
    constructor
    · rintro ⟨⟨_, first, second⟩, third, fourth, fifth⟩
      exact ⟨fun used => deferred.mp (first used), fun used => stream.mp (second used),
        fun used => (away _).mp (third used), fun used => (away _).mp (fourth used),
        fun p provided foreign => (away p.name).mp (imported.mp fifth p provided foreign)⟩
    · intro apart
      exact ⟨⟨fun _ _ => distinct, fun used => deferred.mpr (apart.deferredScope used),
          fun used => stream.mpr (apart.streamScope used)⟩,
        fun used => (away _).mpr (apart.deferredClass used), fun used => (away _).mpr (apart.streamClass used),
        imported.mpr fun p provided foreign => (away p.name).mpr (apart.scopeClass p provided foreign)⟩

end Module

/-- A scope that is called like a wrapper takes the wrapper's alias, and the later import is the one that counts. -/
theorem scope_overwrites_wrapper : ∃ source,
    moduleText (some "app.wrappers") [] [fetchingWrapper]
        (some { name := "DeferredWrapper", module := some "app.scopes" }) =
      .ok (Text.joinLines source ++ "\n") ∧
    source.filter (Opens "from ") = ["from __future__ import annotations",
      "from suspendwrap.runtime import DeferredWrapper as _DeferredWrapper",
      "from app.scopes import DeferredWrapper as _DeferredWrapper"] ∧
    ¬ (boundAliases [fetchingWrapper] (some { name := "DeferredWrapper", module := some "app.scopes" })
      (some "app.wrappers")).Nodup := by
  have bodied : Bodied [fetchingWrapper] := by
    intro w among m member
    cases List.mem_singleton.mp among
    cases List.mem_singleton.mp member
    exact ⟨_, rfl⟩
  obtain ⟨source, text⟩ := exists_moduleLines bodied (some "app.wrappers") []
    (some { name := "DeferredWrapper", module := some "app.scopes" })
  refine ⟨source, by rw [moduleText, text]; rfl, ?_, by decide⟩
  rw [from_lines text]
  decide

end SyncFacade
