import SyncFacade.Proofs.Compilation
import SyncFacade.Proofs.Source.Layout

/-! What can go wrong when a module is made from descriptions: a class has a method that needs a scope, and there is
none. Interfaces need no scope, every documentation that is not empty has a literal, and every method of a wrapper
has its body, so that nothing else stops the text. -/
namespace SyncFacade

theorem ClassInfo.exists_substitution (c : ClassInfo) (replacements : OrderedMap TypeRef TypeRef) :
    ∃ s, (c.chooseSubstitution replacements).outcome = .ok s := by
  unfold chooseSubstitution
  cases candidates : c.replaceable replacements with
  | nil => exact ⟨none, rfl⟩
  | cons replaced others =>
    simp only
    split
    · exact Logged.exists_ok_of_bind ⟨(), rfl⟩ fun _ => ⟨_, rfl⟩
    · exact ⟨_, rfl⟩

namespace Target

variable {t : Target} {w : Wrapping ClassInfo} (replacements : OrderedMap TypeRef TypeRef)

/-- The classes to wrap, each name once: the last one of a name, in the place of the first. -/
def counted (classes : List (Wrapping ClassInfo)) : List (Wrapping ClassInfo) :=
  (OrderedMap.ofList (classes.map fun w => (w.name, w))).values

theorem counted_of_nodup {classes : List (Wrapping ClassInfo)} (distinct : (classes.map Wrapping.name).Nodup) :
    counted classes = classes := by
  have keys : (classes.map fun w => (w.name, w)).map Prod.fst = classes.map Wrapping.name := by
    rw [List.map_map]
    rfl
  rw [counted, OrderedMap.ofList_of_nodup (keys ▸ distinct), OrderedMap.values, List.map_map]
  exact List.map_id _

/-- A class is wrapped, unless it has a method that needs a scope when there is none; then it is refused for the
first of these methods. -/
theorem compileClass_outcome (t : Target) (w : Wrapping ClassInfo) (replacements : OrderedMap TypeRef TypeRef) :
    ((t.scope = none → ∀ m ∈ w.key.methods, m.convention = .direct) ∧
      ∃ made, (t.compileClass pure replacements w).outcome = .ok made) ∨
    t.scope = none ∧ ∃ first m later, w.key.methods = first ++ m :: later ∧
      (∀ n ∈ first, n.convention = .direct) ∧ m.convention ≠ .direct ∧
      (t.compileClass pure replacements w).outcome = .error (.missingScope w.key.name m.name) := by
  obtain ⟨substitution, chosen⟩ := w.key.exists_substitution replacements
  simp only [compileClass, pure_bind]
  rw [Logged.bind_ok _ chosen]
  generalize ran : w.key.compile _ = run
  have outcome := ran ▸ compile_gives w.key _
  cases outcome with
  | wrapped v direct _ => exact .inl ⟨direct, _, by rw [Logged.bind_ok _ rfl]; rfl⟩
  | refused first later m methods direct indirect unscoped =>
    exact .inr ⟨unscoped, first, m, later, methods, direct, indirect, by rw [Logged.bind_error _ rfl]⟩

theorem compileClass_refused (unscoped : t.scope = none) (suspends : ∃ m ∈ w.key.methods, m.convention ≠ .direct) :
    ∃ first m later, w.key.methods = first ++ m :: later ∧ (∀ n ∈ first, n.convention = .direct) ∧
      m.convention ≠ .direct ∧
      (t.compileClass pure replacements w).outcome = .error (.missingScope w.key.name m.name) := by
  obtain ⟨m, declared, indirect⟩ := suspends
  obtain ⟨direct, _⟩ | ⟨_, refused⟩ := compileClass_outcome t w replacements
  · exact absurd (direct unscoped m declared) indirect
  · exact refused

theorem exists_compileClass (direct : t.scope = none → ∀ m ∈ w.key.methods, m.convention = .direct) :
    ∃ made, (t.compileClass pure replacements w).outcome = .ok made := by
  obtain ⟨_, wrapped⟩ | ⟨unscoped, first, m, later, methods, _, indirect, _⟩ := compileClass_outcome t w replacements
  · exact wrapped
  · exact absurd (direct unscoped m (by simp [methods])) indirect

theorem map_name_of_compileClass {classes : List (Wrapping ClassInfo)}
    {compiled : List (Option Interface × Wrapper)}
    (made : List.Forall₂ (fun w c => (t.compileClass pure replacements w).outcome = .ok c) classes compiled) :
    (compiled.map Prod.snd).map Wrapper.name = classes.map Wrapping.name := by
  rw [List.map_map]
  refine map_eq_map_of_related (made.flip.imp fun c w done => ?_)
  obtain ⟨_, _, _, _, _, wraps⟩ := compileClass_ok done
  exact wraps.name

/-- A module is refused at the first class with a method that needs a scope when there is none, for the first of
these methods. In any other case its wrappers, one for each class, have all their bodies, and it has a text. -/
inductive Outcome (t : Target) (classes : List (Wrapping ClassInfo)) : Except GenerationError String → Prop where
  | refused (before after : List (Wrapping ClassInfo)) (w : Wrapping ClassInfo) (first later : List Method)
      (m : Method) : t.scope = none → classes = before ++ w :: after →
      (∀ v ∈ before, ∀ n ∈ v.key.methods, n.convention = .direct) → w.key.methods = first ++ m :: later →
      (∀ n ∈ first, n.convention = .direct) → m.convention ≠ .direct →
      Outcome t classes (.error (.missingScope w.key.name m.name))
  | written (interfaces : List Interface) (wrappers : List Wrapper) (text : String) :
      (t.scope = none → ∀ w ∈ classes, ∀ m ∈ w.key.methods, m.convention = .direct) →
      wrappers.map Wrapper.name = classes.map Wrapping.name → Bodied wrappers →
      moduleText (some t.module) interfaces wrappers t.scope = .ok text → Outcome t classes (.ok text)

theorem exists_interfaces (t : Target) (interfaces : List (String × ClassInfo)) :
    ∃ replaced, (interfaces.mapM fun (name, key) => t.compileInterface pure name key).outcome = .ok replaced :=
  Logged.mapM_ok_of_each fun _ _ => ⟨_, rfl⟩

theorem compileItems_outcome (t : Target) (interfaces : List (String × ClassInfo))
    (classes : List (Wrapping ClassInfo)) (replacements : OrderedMap TypeRef TypeRef) :
    Outcome t (counted classes) (t.compileItems pure interfaces classes replacements).outcome := by
  obtain ⟨replaced, interfacesMade⟩ := exists_interfaces t (OrderedMap.ofList interfaces).entries
  rw [compileItems, Logged.bind_ok _ interfacesMade]
  change Outcome t (counted classes)
    ((counted classes).mapM (t.compileClass pure replacements) >>= fun compiled => .ofExcept _).outcome
  generalize counted classes = classes
  by_cases runs : t.scope = none → ∀ w ∈ classes, ∀ m ∈ w.key.methods, m.convention = .direct
  · obtain ⟨compiled, done⟩ := Logged.mapM_ok_of_each (l := classes) (f := t.compileClass pure replacements)
      fun w listed => exists_compileClass replacements fun unscoped => runs unscoped w listed
    have made := Logged.mapM_outcome_ok done
    have bodied := bodied_of_compileClass made
    obtain ⟨source, text⟩ := exists_moduleLines bodied (some t.module) (replaced ++ compiled.filterMap (·.1)) t.scope
    have written : moduleText (some t.module) (replaced ++ compiled.filterMap (·.1)) (compiled.map Prod.snd) t.scope =
        .ok (Text.joinLines source ++ "\n") := by rw [moduleText, text]; rfl
    rw [Logged.bind_ok _ done, Logged.ofExcept, written]
    exact .written _ _ _ runs (map_name_of_compileClass replacements made) bodied written
  · push Not at runs
    obtain ⟨unscoped, w, listed, m, declared, indirect⟩ := runs
    obtain ⟨before, after, v, split, direct, fails⟩ := exists_first
      (q := fun w : Wrapping ClassInfo => ∀ m ∈ w.key.methods, m.convention = .direct)
      ⟨w, listed, fun all => indirect (all m declared)⟩
    push Not at fails
    obtain ⟨first, n, later, methods, earlier, suspends, refused⟩ :=
      compileClass_refused replacements unscoped fails
    have stopped := Logged.mapM_outcome_error after
      (fun y among => exists_compileClass replacements fun _ => direct y among) refused
    rw [split, Logged.bind_error _ stopped]
    exact .refused before after v first later n unscoped rfl direct methods earlier suspends

/-- Making a module from descriptions fails for want of a scope only, and only where a class, not an interface, has
a method that needs one; the error names the first such class and its first such method. In any other case there is
a text. No documentation is without a literal but the empty one, which is left out. -/
theorem generation_outcome (t : Target) (interfaces : List (String × ClassInfo))
    (classes : List (Wrapping ClassInfo)) (replacements : OrderedMap TypeRef TypeRef) :
    Outcome t (counted classes) (t.compileItems pure interfaces classes replacements).outcome ∧
      ((∃ e, (t.compileItems pure interfaces classes replacements).outcome = .error e) ↔
        t.scope = none ∧ ∃ w ∈ counted classes, ∃ m ∈ w.key.methods, m.convention ≠ .direct) ∧
      ((classes.map Wrapping.name).Nodup → counted classes = classes) ∧
      ∀ margin doc e, Docstring.literal margin doc = .error e ↔ e = .emptyDocstring ∧ doc = "" := by
  have outcome := compileItems_outcome t interfaces classes replacements
  refine ⟨outcome, ?_, counted_of_nodup, fun _ _ _ => Docstring.literal_eq_error_iff⟩
  generalize (t.compileItems pure interfaces classes replacements).outcome = result at outcome
  cases outcome with
  | refused before after w first later m unscoped split direct methods earlier indirect =>
    refine iff_of_true ⟨_, rfl⟩ ⟨unscoped, w, by simp [split], m, by simp [methods], indirect⟩
  | written interfaces wrappers text direct names bodied written =>
    refine iff_of_false (by simp) ?_
    rintro ⟨unscoped, w, listed, m, declared, indirect⟩
    exact indirect (direct unscoped w listed m declared)

end Target

end SyncFacade
