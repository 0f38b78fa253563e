import SyncFacade.CommandLine.Run
import SyncFacade.Proofs.Namespace

/-! What imports do to the class table. Whatever the statements of modules are, and however often they run, classes
are only declared, one behind the other. So the table of a run of the program is one that declarations led to. -/
namespace SyncFacade

namespace Workspace

/-- What comes of a workspace has a table that declarations led to, if its own is one. -/
def Grows (w : Workspace) (run : Except ImportFailure Workspace) : Prop :=
  w.classes.Grown → ∀ u, run = .ok u → u.classes.Grown

theorem Grows.error {w : Workspace} (e : ImportFailure) : w.Grows (.error e) := by
  intro _ u done
  contradiction

theorem Grows.ok {w u : Workspace} (same : u.classes = w.classes) : w.Grows (.ok u) := by
  intro grown v done
  cases done
  exact same ▸ grown

theorem Grows.bind {w : Workspace} {run : Except ImportFailure Workspace}
    {next : Workspace → Except ImportFailure Workspace} (first : w.Grows run)
    (second : ∀ v : Workspace, v.Grows (next v)) : w.Grows (run >>= next) := by
  intro grown u done
  obtain ⟨v, ran, later⟩ := exists_of_bind_eq_ok done
  exact second v (first grown v ran) u later

theorem grows_foldlM {α : Type} {f : Workspace → α → Except ImportFailure Workspace}
    (each : ∀ (w : Workspace) a, w.Grows (f w a)) (l : List α) (w : Workspace) : w.Grows (l.foldlM f w) := by
  induction l generalizing w with
  | nil => exact .ok rfl
  | cons a rest ih => exact (each w a).bind ih

theorem register_classes {w u : Workspace} {module className : String} {number : Nat}
    {wrapper : Option WrapperMark} {interface : Option InterfaceMark}
    (done : w.register module number className wrapper interface = .ok u) : u.classes = w.classes := by
  have finish : ∀ v : Workspace, v.register module number className none interface = .ok u →
      u.classes = v.classes := by
    intro v last
    cases interface with
    | none =>
      cases last
      rfl
    | some m =>
      obtain ⟨_, same, last⟩ := exists_of_bind_eq_ok last
      obtain ⟨t, _, put⟩ := exists_of_bind_eq_ok last
      cases same
      cases put
      rfl
  cases wrapper with
  | none => exact finish w done
  | some m =>
    obtain ⟨t, _, put⟩ := exists_of_bind_eq_ok done
    exact finish { w with registry := w.registry.wrapClass t.module number className m.name m.interface } put

theorem grown_declareClass {w : Workspace} (grown : w.classes.Grown) (module : String)
    (d : ClassDeclaration) : (w.declareClass module d).1.classes.Grown := by
  simp only [declareClass]
  split <;> exact .introduce _ (.renamed _ grown)

/-- A name that is taken over is there at last, or a module below is, or it is an error. -/
theorem grown_of_resolved {w u : Workspace} {source name : String} {o : Object} (grown : w.classes.Grown)
    (done : (match w.get? source name with
      | some o => .ok (w, o)
      | none =>
        if w.loaded.contains (source ++ "." ++ name) then .ok (w, .module (source ++ "." ++ name))
        else .error (ImportFailure.noName name source)) = Except.ok (u, o)) : u.classes.Grown := by
  split at done
  · cases done
    exact grown
  · split at done
    · cases done
      exact grown
    · contradiction

section Statements

variable {sources : Sources} {load : Importer} (loads : ∀ (w : Workspace) name, w.Grows (load w name))
include loads

theorem grown_importName {w u : Workspace} {source name : String} {o : Object} (grown : w.classes.Grown)
    (done : importName sources load w source name = .ok (u, o)) : u.classes.Grown := by
  obtain ⟨v, loaded, later⟩ := exists_of_bind_eq_ok done
  have first := loads w source grown v loaded
  -- Once the module below has been tried, the name is there, or a module is, or it is an error.
  cases found : v.get? source name with
  | some o =>
    simp only [found] at later
    cases later
    exact first
  | none =>
    simp only [found] at later
    split at later
    · split at later
      · next x below => exact grown_of_resolved (loads v _ first x below) later
      · split at later
        · exact grown_of_resolved first later
        · contradiction
    · exact grown_of_resolved first later

theorem grows_runStatement (module : String) (w : Workspace) (s : Statement) :
    w.Grows (runStatement sources load module w s) := by
  cases s with
  | target global target scope =>
    simp only [runStatement]
    split
    · exact .ok rfl
    · exact .error _
  | cls name declare wrapper interface =>
    simp only [runStatement]
    split
    · exact .error _
    · next d stock made =>
      intro grown u done
      obtain ⟨v, registered, last⟩ := exists_of_bind_eq_ok done
      cases last
      have declared := grown_declareClass (w := { w with stock }) grown module d
      exact (register_classes registered).symm ▸ declared
  | importFrom source name global =>
    intro grown u done
    obtain ⟨⟨v, o⟩, named, last⟩ := exists_of_bind_eq_ok done
    have kept := grown_importName loads grown named
    cases last
    exact kept
  | set global v => exact .ok rfl
  | sameAs global source =>
    simp only [runStatement]
    split
    · exact .ok rfl
    · exact .error _
  | raise kind message => exact .error _

theorem grows_runBody (w : Workspace) (m : SourceModule) : w.Grows (runBody sources load w m) := by
  refine grows_foldlM (fun v line => ?_) m.body w
  dsimp only
  split
  · exact grows_runStatement loads m.name v line.2
  · exact .ok rfl

theorem grows_loadFresh (w : Workspace) (name : String) : w.Grows (loadFresh sources load w name) := by
  unfold loadFresh
  split
  · exact .error _
  · next m _ => exact grows_runBody loads { w with loaded := w.loaded.put name {} } m

end Statements

theorem grows_importUpTo (sources : Sources) (depth : Nat) (w : Workspace) (name : String) :
    w.Grows (importUpTo sources depth w name) := by
  induction depth generalizing w name with
  | zero => exact .error _
  | succ depth ih =>
    simp only [importUpTo]
    split
    · exact .ok rfl
    · split
      · exact grows_loadFresh ih w name
      · next parent child _ =>
        refine (ih w parent).bind fun v => ?_
        split
        · exact .ok rfl
        · split
          · exact .error _
          · exact (grows_loadFresh ih v name).bind fun x => .ok rfl

theorem grows_importNamed (sources : Sources) (w : Workspace) (name : Option String) :
    w.Grows (importNamed sources w name) := by
  unfold importNamed
  split
  · exact .error _
  · next name =>
    split
    · exact .error _
    · split
      · exact .error _
      · have loaded := grows_importUpTo sources (depth sources name) w name
        unfold importModule
        cases made : importUpTo sources (depth sources name) w name with
        | error e => exact .error _
        | ok u =>
          rw [made] at loaded
          exact loaded

theorem grows_reloadAll (sources : Sources) (names : List String) (w : Workspace) :
    w.Grows (reloadAll sources w names) := by
  have once : ∀ (v : Workspace) name, v.Grows (reload sources v name) := by
    intro v name
    unfold reload
    split
    · exact .error _
    · exact grows_runBody (fun w name => grows_importUpTo sources _ w name) v _
  have all := grows_foldlM once names { w with typeChecking := true }
  exact all.bind fun v => .ok rfl

end Workspace

namespace CommandLine

theorem grows_importAll (sources : Workspace.Sources) (asked : List (Option String)) (w : Workspace) :
    w.Grows (importAll sources asked w).2 := by
  induction asked generalizing w with
  | nil => exact .ok rfl
  | cons name rest ih =>
    have first := Workspace.grows_importNamed sources w name
    unfold importAll
    cases made : Workspace.importNamed sources w name with
    | error e => exact .error e
    | ok v => exact fun grown => ih v (first grown v made)

/-- The workspace that the modules leave behind that are asked for. -/
def Request.imported (r : Request) (sources : Workspace.Sources) : Except ImportFailure Workspace :=
  (importAll sources r.modules {}).2.bind (Workspace.reloadAll sources · (r.modules.filterMap id))

/-- Every class that the program compiles was declared into its table. -/
theorem Request.grown_imported {r : Request} {sources : Workspace.Sources} {w : Workspace}
    (ran : r.imported sources = .ok w) : w.classes.Grown :=
  (grows_importAll sources r.modules {}).bind (Workspace.grows_reloadAll sources _) .empty w ran

end CommandLine
end SyncFacade
