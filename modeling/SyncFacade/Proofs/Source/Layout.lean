import SyncFacade.Proofs.Sequencing
import SyncFacade.Proofs.Source.Documentation

/-! Where the methods of wrappers stand in the text of a module. The lines of each are found there
unbroken, and a text there is whenever no method lacks its body. -/
namespace SyncFacade

theorem infix_flatMap {α β : Type} {l : List α} (f : α → List β) {a : α} (member : a ∈ l) :
    f a <:+: l.flatMap f := by
  obtain ⟨before, after, rfl⟩ := List.append_of_mem member
  exact ⟨before.flatMap f, after.flatMap f, by simp⟩

/-- Nothing of the module is left out for want of a body. -/
def Bodied (wrappers : List Wrapper) : Prop :=
  ∀ w ∈ wrappers, ∀ m ∈ w.methods, ∃ body, m.body = some body

theorem Method.lines_eq (m : Method) (field : DelegateField) (target : Option String) (aliases : Aliases) :
    m.lines field target aliases = (renderBody m.body field aliases).map fun body =>
      m.decorators ++ [indent ++ m.header target] ++ docRows indent2 m.doc ++ [indent2 ++ "return " ++ body] := by
  rw [lines, docLines_eq]
  rfl

theorem Method.lines_ok {m : Method} {body : Body} (bodied : m.body = some body)
    (field : DelegateField) (target : Option String) (aliases : Aliases) :
    m.lines field target aliases = .ok (m.decorators ++ [indent ++ m.header target] ++ docRows indent2 m.doc ++
      [indent2 ++ "return " ++ body.render field aliases]) := by
  rw [lines_eq, bodied]
  rfl

namespace Interface

/-- The lines of an interface before its methods. -/
def opening (i : Interface) (target : Option String) : List String :=
  ["class " ++ i.name ++ "(" ++ ", ".intercalate (i.supertypes.map (·.render target) ++ [protocolBase]) ++ "):"] ++
    classDocRows i.doc ++ (if i.methods.isEmpty && (i.doc.getD "").isEmpty then [indent ++ "pass"] else [])

def methodLines (i : Interface) (target : Option String) : List String :=
  i.methods.map fun m => indent ++ m.header target ++ " ..."

def rows (i : Interface) (target : Option String) : List String := i.opening target ++ i.methodLines target

theorem lines_eq (i : Interface) (target : Option String) : i.lines target = .ok (i.rows target) := by
  rw [lines, classDocLines_eq]
  rfl

end Interface

namespace Wrapper

/-- The lines of a wrapper before its methods. -/
def opening (w : Wrapper) (target : Option String) : List String :=
  [w.header target] ++ classDocRows w.doc ++ w.constructor.lines w.delegate target

theorem lines_eq (w : Wrapper) (target : Option String) (aliases : Aliases) :
    w.lines target aliases = (w.methods.mapM fun m : Method => m.lines w.delegate target aliases).map
      fun blocks => w.opening target ++ blocks.flatMap fun block => "" :: block := by
  rw [lines, classDocLines_eq]
  rfl

theorem exists_lines {w : Wrapper} (target : Option String) (aliases : Aliases)
    (bodied : ∀ m ∈ w.methods, ∃ body, m.body = some body) :
    ∃ ls, w.lines target aliases = .ok ls := by
  obtain ⟨methods, done⟩ := mapM_ok_of_exists (l := w.methods)
    (f := fun m : Method => m.lines w.delegate target aliases) fun m member => by
      obtain ⟨body, present⟩ := bodied m member
      exact ⟨_, m.lines_ok present w.delegate target aliases⟩
  exact ⟨_, by rw [lines_eq, done]; rfl⟩

theorem method_infix {w : Wrapper} {target : Option String} {aliases : Aliases}
    {ls : List String} (written : w.lines target aliases = .ok ls) {m : Method}
    (member : m ∈ w.methods) :
    ∃ block, m.lines w.delegate target aliases = .ok block ∧ block <:+: ls := by
  obtain ⟨methods, done, rfl⟩ := exists_of_map_ok (w.lines_eq .. ▸ written)
  obtain ⟨block, among, lines⟩ := exists_of_mapM_ok done m member
  refine ⟨block, lines, ?_⟩
  have inside : block <:+: methods.flatMap fun ls => "" :: ls :=
    (List.suffix_cons "" block).isInfix.trans (infix_flatMap (fun ls => "" :: ls) among)
  exact inside.trans (List.suffix_append _ _).isInfix

end Wrapper

/-- Nothing but a missing body keeps a module from being written. Its interfaces always are. -/
theorem moduleLines_eq (target : Option String) (interfaces : List Interface) (wrappers : List Wrapper)
    (scope : Option ScopeProvider) : moduleLines target interfaces wrappers scope =
      (wrappers.mapM fun w : Wrapper => w.lines target (Aliases.choose wrappers scope target)).map fun classes =>
        let imports := aliasImports (Aliases.choose wrappers scope target)
          (wrappers.flatMap fun w => w.methods.filterMap Method.body) target scope
        prologue ++ importLines (importedModules target interfaces wrappers) ++
          (if imports.isEmpty then [] else "" :: imports) ++
          interfaces.flatMap (fun i => setOff (i.rows target)) ++ classes.flatMap setOff := by
  have protocols : (interfaces.mapM fun i : Interface => i.lines target) = .ok (interfaces.map (·.rows target)) :=
    mapM_eq_pure fun i _ => i.lines_eq target
  have spaced : (interfaces.map (·.rows target)).flatMap setOff = interfaces.flatMap fun i => setOff (i.rows target) :=
    List.flatMap_map ..
  rw [moduleLines, protocols]
  simp only [← spaced]
  rfl

theorem exists_moduleLines {wrappers : List Wrapper} (bodied : Bodied wrappers)
    (target : Option String) (interfaces : List Interface) (scope : Option ScopeProvider) :
    ∃ source, moduleLines target interfaces wrappers scope = .ok source := by
  obtain ⟨classes, done⟩ := mapM_ok_of_exists (l := wrappers)
    (f := fun w : Wrapper => w.lines target (Aliases.choose wrappers scope target)) fun w member =>
      w.exists_lines target _ (bodied w member)
  exact ⟨_, by rw [moduleLines_eq, done]; rfl⟩

/-- Each method of a wrapper is found in the text of the module, line by line. -/
theorem method_infix_module {wrappers : List Wrapper} {target : Option String}
    {interfaces : List Interface} {scope : Option ScopeProvider} {source : List String}
    (written : moduleLines target interfaces wrappers scope = .ok source) {w : Wrapper}
    (among : w ∈ wrappers) {m : Method} (member : m ∈ w.methods) :
    ∃ block, m.lines w.delegate target (Aliases.choose wrappers scope target) = .ok block ∧
      block <:+: source := by
  obtain ⟨classes, done, rfl⟩ := exists_of_map_ok (moduleLines_eq .. ▸ written)
  obtain ⟨ls, listed, lines⟩ := exists_of_mapM_ok done w among
  obtain ⟨block, methodLines, inside⟩ := w.method_infix lines member
  refine ⟨block, methodLines, inside.trans ?_⟩
  have spaced : ls <:+: setOff ls := ⟨["", ""], [], by simp [setOff]⟩
  exact (spaced.trans (infix_flatMap setOff listed)).trans (List.suffix_append _ _).isInfix

end SyncFacade
