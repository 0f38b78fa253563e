import SyncFacade.Proofs.Alias.FreeName

/-! Inside a class statement a name with two leading underscores, and without two trailing ones, stands
for another name than outside. The aliases of a generated module are bound outside and evaluated
inside, so one of that form names nothing that is bound. Which aliases have it is decided here: for the
wrappers of results and streams a parameter of the first choice of name is enough, for the scope also a
name that starts with an underscore itself. -/
namespace SyncFacade

/-- The name is replaced inside a class statement. -/
def Mangled (name : String) : Prop :=
  ['_', '_'] <+: name.toList ∧ ¬ ['_', '_'] <:+ name.toList

instance (name : String) : Decidable (Mangled name) := inferInstanceAs (Decidable (_ ∧ _))

namespace Aliases

/-- Every name that the bodies of a module get to evaluate. -/
def names (a : Aliases) : List String := a.deferredWrapper :: a.streamWrapper :: a.scope.toList

end Aliases

theorem two_prefix_iff (k : Nat) (cs : List Char) :
    ['_', '_'] <+: List.replicate k '_' ++ '_' :: cs ↔ 0 < k ∨ ['_'] <+: cs := by
  cases k with
  | zero => simp
  | succ k =>
    cases k with
    | zero => simp
    | succ k => simp [List.replicate_succ]

/-- Behind enough underscores, only underscores and names that end in two of them end in two. -/
theorem two_suffix_iff {k : Nat} {cs : List Char} (two : 0 < k ∨ ['_'] <+: cs) :
    ['_', '_'] <:+ List.replicate k '_' ++ '_' :: cs ↔
      ['_', '_'] <:+ cs ∨ ∀ c ∈ cs, c = '_' := by
  have spelled : List.replicate k '_' ++ '_' :: cs = List.replicate (k + 1) '_' ++ cs := by
    rw [List.replicate_succ', List.append_assoc]
    rfl
  rw [spelled]
  constructor
  · rintro ⟨front, ending⟩
    rcases List.append_eq_append_iff.mp ending with ⟨rest, _, left⟩ | ⟨rest, _, right⟩
    · right
      intro c member
      have among : c ∈ ['_', '_'] := left ▸ List.mem_append_right rest member
      simpa using among
    · exact Or.inl ⟨rest, right.symm⟩
  · rintro (ending | all)
    · exact ending.trans (List.suffix_append _ _)
    · have enough : 2 ≤ k + 1 + cs.length := by
        rcases two with more | ⟨rest, rfl⟩
        · omega
        · simp
          omega
      obtain ⟨n, long⟩ := Nat.exists_eq_add_of_le' enough
      have same : cs = List.replicate cs.length '_' := List.eq_replicate_of_mem all
      refine ⟨List.replicate n '_', ?_⟩
      rw [same, List.replicate_append_replicate, long, ← List.replicate_append_replicate]
      rfl

/-- Whether the alias for a name is mangled: it has two underscores in front when the name brings one
or the first choice is taken, and the end of the name has to let that count. -/
theorem mangled_freeName_iff (name : String) (taken : List String) :
    Mangled (freeName ("_" ++ name) taken) ↔
      (['_'] <+: name.toList ∨ "_" ++ name ∈ taken) ∧
        ¬ ['_', '_'] <:+ name.toList ∧ ∃ c ∈ name.toList, c ≠ '_' := by
  obtain ⟨k, _, chosen, free, before⟩ := freeName_least ("_" ++ name) taken
  have first : 0 < k ↔ "_" ++ name ∈ taken := by
    constructor
    · intro positive
      simpa using before 0 positive
    · intro here
      rcases Nat.eq_zero_or_pos k with rfl | positive
      · rw [underscored_zero] at free
        exact absurd here free
      · exact positive
  have spelled : (underscored ("_" ++ name) k).toList =
      List.replicate k '_' ++ '_' :: name.toList := by
    rw [toList_underscored, String.toList_append]
    rfl
  rw [chosen, Mangled, spelled, two_prefix_iff, first, or_comm]
  apply and_congr_right
  intro two
  rw [← first, or_comm] at two
  rw [two_suffix_iff two, not_or]
  simp

/-- A name without underscores at its ends has a mangled alias as soon as it is not the first choice. -/
theorem mangled_freeName_of_bare (name : String) (taken : List String)
    (start : ¬ ['_'] <+: name.toList) (ending : ¬ ['_', '_'] <:+ name.toList)
    (letter : ∃ c ∈ name.toList, c ≠ '_') :
    Mangled (freeName ("_" ++ name) taken) ↔ "_" ++ name ∈ taken := by
  rw [mangled_freeName_iff]
  simp only [start, ending, letter, false_or, not_false_eq_true, and_true]

section Chosen

variable (wrappers : List Wrapper) (scope : Option ScopeProvider) (target : Option String)

theorem mangled_deferredWrapper_iff :
    Mangled (Aliases.choose wrappers scope target).deferredWrapper ↔
      "_DeferredWrapper" ∈ Aliases.parameterNames wrappers := by
  have first : "_" ++ deferredWrapper.name = "_DeferredWrapper" := by decide
  rw [← first]
  exact mangled_freeName_of_bare deferredWrapper.name _ (by decide) (by decide)
    ⟨'D', by decide, by decide⟩

theorem mangled_streamWrapper_iff :
    Mangled (Aliases.choose wrappers scope target).streamWrapper ↔
      "_StreamWrapper" ∈ Aliases.parameterNames wrappers := by
  have first : "_" ++ streamWrapper.name = "_StreamWrapper" := by decide
  rw [← first]
  exact mangled_freeName_of_bare streamWrapper.name _ (by decide) (by decide)
    ⟨'S', by decide, by decide⟩

theorem forall_scope_iff (q : String → Prop) :
    (∀ name ∈ (Aliases.choose wrappers scope target).scope.toList, q name) ↔
      ∀ p, scope = some p → (p.foreignModule target).isSome = true →
        q (freeName ("_" ++ p.name) (Aliases.parameterNames wrappers)) := by
  simp only [Aliases.choose, Option.mem_toList, Option.map_eq_some_iff, Option.filter_eq_some_iff]
  constructor
  · intro each p provided foreign
    exact each _ ⟨p, ⟨provided, foreign⟩, rfl⟩
  · rintro each name ⟨p, ⟨provided, foreign⟩, rfl⟩
    exact each p provided foreign

/-- The aliases of a module can be evaluated inside its classes exactly when no parameter has the first
choice for a wrapper, and the scope, if it gets an alias, neither starts with an underscore nor has its
first choice among the parameters, or is spelled so that underscores in front do no harm. -/
theorem aliases_unmangled_iff :
    (∀ name ∈ (Aliases.choose wrappers scope target).names, ¬ Mangled name) ↔
      "_DeferredWrapper" ∉ Aliases.parameterNames wrappers ∧
      "_StreamWrapper" ∉ Aliases.parameterNames wrappers ∧
      ∀ p, scope = some p → (p.foreignModule target).isSome = true →
        (¬ ['_'] <+: p.name.toList ∧ "_" ++ p.name ∉ Aliases.parameterNames wrappers) ∨
          ['_', '_'] <:+ p.name.toList ∨ ∀ c ∈ p.name.toList, c = '_' := by
  rw [Aliases.names, List.forall_mem_cons, List.forall_mem_cons, forall_scope_iff,
    mangled_deferredWrapper_iff, mangled_streamWrapper_iff]
  refine and_congr_right fun _ => and_congr_right fun _ => ?_
  refine forall_congr' fun p => imp_congr_right fun _ => imp_congr_right fun _ => ?_
  rw [mangled_freeName_iff]
  push Not
  tauto

end Chosen

def fetchingWrapper : Wrapper :=
  { name := "RepositoryWrapper"
    module := some "app.wrappers"
    methods :=
      [{ name := "fetch"
         parameters := [{ name := "id" }]
         body := some (.deferred (some "_scope")
           { receiver := "wrapped", method := "fetch", arguments := [{ name := "id" }] }) }]
    delegate := { name := "wrapped", type := { name := "Repository", module := some "app.repository" } }
    constructor := { parameters := [{ name := "wrapped" }], assigns := ["wrapped"] } }

/-- A scope whose own name starts with an underscore gets an alias that its users cannot evaluate. -/
theorem private_scope_mangled :
    (Aliases.choose [fetchingWrapper] (some { name := "_scope", module := some "app.scopes" })
      (some "app.wrappers")).scope = some "__scope" ∧ Mangled "__scope" := by
  decide

end SyncFacade
