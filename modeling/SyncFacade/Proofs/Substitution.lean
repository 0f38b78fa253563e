import SyncFacade.Proofs.OrderedMap
import SyncFacade.Proofs.Wrapping

/-! Which supertype of a wrapper is replaced. The choice is made among the declared supertypes by place, and the
replacement is made by value, so that the two agree on one place only where the supertypes are distinct. -/
namespace SyncFacade

/-- The declared supertypes, and the same with the first one that has a replacement replaced in its place. -/
inductive FirstReplaced (replacements : OrderedMap TypeRef TypeRef) : List TypeRef → List TypeRef → Prop where
  | nowhere {declared : List TypeRef} (absent : ∀ t ∈ declared, replacements.find? t = none) :
      FirstReplaced replacements declared declared
  | once {before after : List TypeRef} {t generated : TypeRef} (absent : ∀ u ∈ before, replacements.find? u = none)
      (found : replacements.find? t = some generated) :
      FirstReplaced replacements (before ++ t :: after) (before ++ generated :: after)

def ambiguityRecord (c : ClassInfo) (chosen : TypeRef) (candidates : List TypeRef) : Record :=
  { level := .warning, channel := .compiler
    message := c.name ++ " implements several wrapped interfaces (" ++
      ", ".intercalate (candidates.map TypeRef.qualifiedName) ++ "), only " ++ chosen.qualifiedName ++
      " is replaced in its wrapper" }

/-- What is recorded about the candidates of a class: a warning that names all of them, if they are several. -/
inductive WarnsOf (c : ClassInfo) : List TypeRef → List Record → Prop where
  | nothing : WarnsOf c [] []
  | sole (t : TypeRef) : WarnsOf c [t] []
  | several (t u : TypeRef) (others : List TypeRef) :
      WarnsOf c (t :: u :: others) [ambiguityRecord c t (t :: u :: others)]

/-- A value that stands once in a list is replaced at one place. -/
theorem map_replaced_of_nodup {α : Type} [DecidableEq α] {before after : List α} {a : α}
    (distinct : (before ++ a :: after).Nodup) (b : α) :
    ((before ++ a :: after).map fun x => if x = a then b else x) = before ++ b :: after := by
  have other {l : List α} (apart : a ∉ l) : (l.map fun x => if x = a then b else x) = l := by
    refine (List.map_congr_left fun x member => if_neg ?_).trans (List.map_id' l)
    rintro rfl
    exact apart member
  have elsewhere : a ∉ before ++ after := (List.nodup_middle.mp distinct).notMem
  obtain ⟨notBefore, notAfter⟩ := not_or.mp (mt List.mem_append.mpr elsewhere)
  rw [List.map_append, List.map_cons, if_pos rfl, other notBefore, other notAfter]

namespace ClassInfo

variable {c : ClassInfo} {replacements : OrderedMap TypeRef TypeRef}

theorem chooseSubstitution_none (candidates : c.replaceable replacements = []) :
    c.chooseSubstitution replacements = ⟨[], .ok none⟩ := by
  rw [chooseSubstitution, candidates]
  rfl

theorem chooseSubstitution_some {t generated : TypeRef} {others : List TypeRef}
    (candidates : c.replaceable replacements = t :: others) (found : replacements.find? t = some generated) :
    c.chooseSubstitution replacements =
      ⟨if others = [] then [] else [ambiguityRecord c t (t :: others)], .ok (some ⟨t, generated⟩)⟩ := by
  rw [chooseSubstitution, candidates]
  cases others with
  | nil => simp [pure, found]
  | cons u more => simp [pure, bind, Logged.log, found, ambiguityRecord]

/-- The choice of a substitution never fails. Made for distinct supertypes it replaces the first candidate alone. -/
theorem chooseSubstitution_replaces (distinct : c.supertypes.Nodup) (replacements : OrderedMap TypeRef TypeRef)
    (interface : Option InterfaceBinding) :
    ∃ records substitution written, c.chooseSubstitution replacements = ⟨records, .ok substitution⟩ ∧
      WarnsOf c (c.replaceable replacements) records ∧ FirstReplaced replacements c.supertypes written ∧
      wrapperSupertypes c.supertypes substitution interface =
        written ++ (interface.map InterfaceBinding.type).toList := by
  have known {t : TypeRef} : replacements.contains t = true ↔ replacements.find? t ≠ none := by
    rw [OrderedMap.contains_iff, ne_eq, OrderedMap.find?_eq_none_iff, not_not]
  cases candidates : c.replaceable replacements with
  | nil =>
    have absent : ∀ t ∈ c.supertypes, replacements.find? t = none := fun t member =>
      not_not.mp (mt known.mpr (List.filter_eq_nil_iff.mp candidates t member))
    refine ⟨_, _, c.supertypes, chooseSubstitution_none candidates, .nothing, .nowhere absent, ?_⟩
    simp [wrapperSupertypes]
  | cons t others =>
    obtain ⟨before, after, split, free, candidate, -⟩ := List.filter_eq_cons_iff.mp candidates
    obtain ⟨generated, found⟩ := Option.ne_none_iff_exists'.mp (known.mp candidate)
    have absent : ∀ u ∈ before, replacements.find? u = none := fun u member =>
      not_not.mp (mt known.mpr (free u member))
    refine ⟨_, _, before ++ generated :: after, chooseSubstitution_some candidates found, ?_, ?_, ?_⟩
    · cases others with
      | nil => exact .sole t
      | cons u more => exact .several t u more
    · rw [split]
      exact .once absent found
    · rw [wrapperSupertypes, split]
      exact congrArg (· ++ _) (map_replaced_of_nodup (split ▸ distinct) generated)

/-- Under a map of replacements a wrapper has the supertypes of its class in their order, the first of them that
has a replacement replaced in its place, and behind them the interface made from the class. A warning names the
candidates exactly where there are several. -/
theorem first_candidate_replaced (distinct : c.supertypes.Nodup) (replacements : OrderedMap TypeRef TypeRef)
    (context : Context) : ∃ records substitution written,
      c.chooseSubstitution replacements = ⟨records, .ok substitution⟩ ∧
      WarnsOf c (c.supertypes.filter fun t => t ∈ replacements.keys) records ∧
      FirstReplaced replacements c.supertypes written ∧
      ((∃ w, (c.compile { context with substitution }).outcome = .ok w) ↔
        (context.scope = none → ∀ m ∈ c.methods, m.convention = .direct)) ∧
      ∀ w, (c.compile { context with substitution }).outcome = .ok w →
        w.supertypes = written ++ (context.interface.map InterfaceBinding.type).toList := by
  obtain ⟨records, substitution, written, chosen, warned, replaced, supertypes⟩ :=
    chooseSubstitution_replaces distinct replacements context.interface
  have candidates : c.replaceable replacements = c.supertypes.filter fun t => t ∈ replacements.keys :=
    List.filter_congr fun t _ => by rw [Bool.eq_iff_iff, OrderedMap.contains_iff, decide_eq_true_eq]
  refine ⟨records, substitution, written, chosen, candidates ▸ warned, replaced, ?_, fun w compiled => ?_⟩
  · have outcome := compile_gives c { context with substitution }
    generalize c.compile { context with substitution } = run at outcome
    cases outcome with
    | refused before after m methods _ fails unscoped =>
      refine iff_of_false (fun ⟨_, impossible⟩ => nomatch impossible) fun direct => ?_
      exact fails (direct unscoped m (by simp [methods]))
    | wrapped w direct _ => exact iff_of_true ⟨w, rfl⟩ direct
  · exact (wrapsClass_of_compile compiled).supertypes.trans supertypes

/-- A class with two interfaces that have replacements. That of the first one is an interface declared behind it. -/
def archive : ClassInfo where
  name := "Archive"
  module := some "app.store"
  methods := [{ name := "read", convention := .deferred, suspends := true }]
  supertypes := [{ name := "Sized", module := some "collections.abc" }, { name := "Source", module := some "app.ports" },
    { name := "Sink", module := some "app.ports" }]

def archiveReplacements : OrderedMap TypeRef TypeRef :=
  ⟨[({ name := "Sink", module := some "app.ports" }, { name := "SinkWrapper", module := some "app.wrappers" }),
    ({ name := "Source", module := some "app.ports" }, { name := "Sink", module := some "app.ports" })]⟩

def archiveContext : Context where
  wrapperName := "ArchiveWrapper"
  module := some "app.wrappers"
  scope := some { name := "scope", module := some "app.scopes" }
  interface := some { type := { name := "ArchiveInterface", module := some "app.wrappers" } }

theorem archive_first_replaced : archive.supertypes.Nodup ∧ ∃ records substitution written,
    archive.chooseSubstitution archiveReplacements = ⟨records, .ok substitution⟩ ∧
    WarnsOf archive (archive.supertypes.filter fun t => t ∈ archiveReplacements.keys) records ∧
    FirstReplaced archiveReplacements archive.supertypes written ∧
    ((∃ w, (archive.compile { archiveContext with substitution }).outcome = .ok w) ↔
      (archiveContext.scope = none → ∀ m ∈ archive.methods, m.convention = .direct)) ∧
    ∀ w, (archive.compile { archiveContext with substitution }).outcome = .ok w →
      w.supertypes = written ++ (archiveContext.interface.map InterfaceBinding.type).toList := by
  have distinct : archive.supertypes.Nodup := by decide
  exact ⟨distinct, first_candidate_replaced distinct archiveReplacements archiveContext⟩

end ClassInfo
end SyncFacade
