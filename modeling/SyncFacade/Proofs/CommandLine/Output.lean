import SyncFacade.Proofs.Importing
import SyncFacade.Proofs.Source.Unbroken
import SyncFacade.Proofs.TargetOrder

/-! What the program prints, and how it is divided into files again. A run that does not return has printed nothing.
One that returns has printed a header and a text for each target, and since no line of a text begins like a header,
the headers alone tell where the files begin. -/
namespace SyncFacade.CommandLine

/-- How the line begins that names a file. -/
def fileMark : String := "# File: "

/-- Lines divided at those that begin with a mark: what stands before the first of these, and each of them with
what follows it. -/
def cutAt (mark : String) : List String → List String × List (String × List String)
  | [] => ([], [])
  | l :: ls =>
    let (before, pieces) := cutAt mark ls
    if Opens mark l then ([], (l, before) :: pieces) else (l :: before, pieces)

theorem cutAt_append {mark : String} {ls : List String} (plain : ∀ l ∈ ls, ¬ Opens mark l) (rest : List String) :
    cutAt mark (ls ++ rest) = (ls ++ (cutAt mark rest).1, (cutAt mark rest).2) := by
  induction ls with
  | nil => rfl
  | cons l ls ih =>
    rw [List.forall_mem_cons] at plain
    rw [List.cons_append, cutAt, ih plain.2]
    exact if_neg plain.1

theorem cutAt_flatMap {mark : String} {blocks : List (String × List String)}
    (headers : ∀ b ∈ blocks, Opens mark b.1) (plain : ∀ b ∈ blocks, ∀ l ∈ b.2, ¬ Opens mark l) :
    cutAt mark (blocks.flatMap fun b => b.1 :: b.2) = ([], blocks) := by
  induction blocks with
  | nil => rfl
  | cons b rest ih =>
    rw [List.forall_mem_cons] at headers plain
    rw [List.flatMap_cons, List.cons_append, cutAt, cutAt_append plain.1, ih headers.2 plain.2]
    simp [headers.1]

theorem printModules_plain (files : List (String × String)) (behaviours : List Formatter.Behaviour) :
    (printModules false files behaviours).stdout = files.flatMap (fun f => [fileHeader f.1, f.2]) ∧
      (printModules false files behaviours).ending = .returned := by
  induction files with
  | nil => exact ⟨rfl, rfl⟩
  | cons f rest ih =>
    obtain ⟨stdout, ending⟩ := ih
    simp [printModules, stdout, ending]

/-- The targets that are found in these modules. -/
def Request.targets (r : Request) (w : Workspace) : List Target := targetsOf w (r.modules.filterMap id)

/-- The generated modules in the order in which they are printed. -/
def printedFiles (texts : OrderedMap String String) : List (String × String) :=
  texts.entries.mergeSort fun a b => a.1 ≤ b.1

/-- What a run has printed in the end: nothing, if it does not return, or else all that was generated. -/
inductive Printed (r : Request) (sources : Workspace.Sources) (t : Transcript) : Prop where
  | nothing : t.stdout = [] → t.ending ≠ .returned → Printed r sources t
  | files (w : Workspace) (texts : OrderedMap String String) : r.imported sources = .ok w →
      (w.registry.compileAll w.catalogue (r.targets w)).outcome = .ok texts →
      t.stdout = (printedFiles texts).flatMap (fun f => [fileHeader f.1, f.2]) → t.ending = .returned →
      Printed r sources t

theorem generate_printed {r : Request} (unformatted : r.ruff = false) {sources : Workspace.Sources} {w : Workspace}
    (imported : r.imported sources = .ok w) (behaviours : List Formatter.Behaviour) (before : List String) :
    Printed r sources (generate r behaviours w (r.targets w) before) := by
  cases done : (w.registry.compileAll w.catalogue (r.targets w)).outcome with
  | error e =>
    simp only [generate, done]
    exact .nothing rfl (by simp)
  | ok texts =>
    simp only [generate, done]
    split
    · exact .nothing rfl (by simp)
    · obtain ⟨stdout, ending⟩ := printModules_plain (printedFiles texts) behaviours
      rw [unformatted]
      exact .files w texts imported done stdout ending

theorem run_printed {r : Request} (unformatted : r.ruff = false) (sources : Workspace.Sources)
    (behaviours : List Formatter.Behaviour) : Printed r sources (r.run sources behaviours) := by
  cases reached : r.imported sources with
  | error e =>
    have stopped := reached
    rw [Request.imported] at stopped
    simp only [Request.run, stopped]
    exact .nothing rfl (by simp)
  | ok w =>
    have found := reached
    rw [Request.imported] at found
    simp only [Request.run, found]
    split
    · exact .nothing rfl (by simp)
    · exact generate_printed unformatted reached behaviours _

theorem printed_eq_ended : printed = Text.ended := rfl

/-- A text cut at the lines that name files: the lines before the first of these, and each of them with the text
between it and the next one. -/
def cut (text : String) : List String × List (String × String) :=
  let (before, pieces) := cutAt fileMark (Text.endedLines text)
  (before, pieces.map fun p => (p.1, Text.ended p.2))

theorem oneLine_filePath {module : String} (plain : OneLine module) : OneLine (filePath module) := by
  have components : ∀ s ∈ Text.components module, OneLine s := by
    intro s member
    obtain ⟨cs, among, rfl⟩ := List.mem_map.mp member
    intro inside
    rw [String.toList_ofList] at inside
    exact plain (Text.subset_of_mem_pieces among inside)
  exact oneLine_append.mpr ⟨oneLine_intercalate (by decide) components, by decide⟩

/-- The lines of a file as they are printed: the one that names it, and those that hold its text. -/
structure FileLines (f : String × String) (b : String × List String) : Prop where
  header : b.1 = fileMark ++ filePath f.1
  content : Text.ended b.2 = "\n" ++ f.2 ++ "\n"
  unbroken : ∀ l ∈ b.1 :: b.2, OneLine l
  unmarked : ∀ l ∈ b.2, ¬ Opens fileMark l

theorem exists_fileLines {r : Registry Nat} {catalogue : Catalogue Nat} {targets : List Target}
    {texts : OrderedMap String String} (unbroken : r.Unbroken catalogue.describe targets)
    (done : (r.compileAll catalogue targets).outcome = .ok texts) {f : String × String} (listed : f ∈ texts.entries) :
    ∃ b, FileLines f b := by
  obtain ⟨t, chosen, module, made⟩ := exists_related_left (Registry.compileAll_ok done) f listed
  have fewer := unbroken.mono (Target.onePerModule_spec targets).1
  obtain ⟨_, _, source, lines, text, plain⟩ := Registry.exists_lines_of_compile fewer chosen made
  have named : OneLine f.1 := module ▸ fewer.modules t chosen
  have prologueUnmarked : ∀ l ∈ prologue, ¬ Opens fileMark l := by decide
  refine ⟨(fileMark ++ filePath f.1, "" :: source ++ [""]), rfl, ?_, ?_, ?_⟩
  · simp [text, String.append_assoc]
  · simp only [List.cons_append, List.forall_mem_cons, List.forall_mem_append]
    exact ⟨oneLine_append.mpr ⟨by decide, oneLine_filePath named⟩, oneLine_empty, plain, oneLine_empty, by simp⟩
  · simp only [List.cons_append, List.forall_mem_cons, List.forall_mem_append]
    refine ⟨by decide, fun l member opens => ?_, by decide, by simp⟩
    exact prologueUnmarked l (mem_prologue_of_opens lines (c := '#') rfl (by decide) member opens) opens

/-- What is printed of some files is cut into these files again. -/
theorem cut_printed {files : List (String × String)} {blocks : List (String × List String)}
    (related : List.Forall₂ FileLines files blocks) :
    cut (printed (files.flatMap fun f => [fileHeader f.1, f.2])) =
      ([], files.map fun f => (fileMark ++ filePath f.1, "\n" ++ f.2 ++ "\n")) := by
  have text : printed (files.flatMap fun f => [fileHeader f.1, f.2]) =
      Text.ended (blocks.flatMap fun b => b.1 :: b.2) := by
    rw [printed_eq_ended]
    induction related with
    | nil => rfl
    | cons first _ ih =>
      rw [List.flatMap_cons, List.flatMap_cons, Text.ended_append, Text.ended_append, ih, Text.ended_cons,
        Text.ended_cons, Text.ended_cons, Text.ended_nil, first.content, first.header]
      simp only [fileHeader, fileMark, String.append_assoc, String.append_empty]
  have lines : ∀ l ∈ blocks.flatMap fun b => b.1 :: b.2, OneLine l := by
    rw [List.forall_mem_flatMap]
    intro b among
    obtain ⟨f, _, block⟩ := exists_related_left related b among
    exact block.unbroken
  have pieces : cutAt fileMark (blocks.flatMap fun b => b.1 :: b.2) = ([], blocks) := by
    refine cutAt_flatMap (fun b among => ?_) fun b among => ?_
    · obtain ⟨f, _, block⟩ := exists_related_left related b among
      exact block.header ▸ opens_append fileMark _
    · obtain ⟨f, _, block⟩ := exists_related_left related b among
      exact block.unmarked
  have contents : blocks.map (fun b => (b.1, Text.ended b.2)) =
      files.map fun f => (fileMark ++ filePath f.1, "\n" ++ f.2 ++ "\n") :=
    map_eq_map_of_related (related.flip.imp fun b f block => by rw [block.header, block.content])
  simp only [cut, text, Text.endedLines_ended lines, pieces, contents]

/-- One file for each module of some targets, in the order of the names, with the text generated for it. -/
structure FilesOf (targets : List Target) (texts : OrderedMap String String) (files : List (String × String)) :
    Prop where
  ascending : (files.map Prod.fst).Pairwise (· < ·)
  modules : ∀ module, module ∈ files.map Prod.fst ↔ ∃ t ∈ targets, t.module = module
  contents : ∀ module source, (module, source) ∈ files ↔ texts.find? module = some source

theorem filesOf_printedFiles {r : Registry Nat} {catalogue : Catalogue Nat} {targets : List Target}
    {texts : OrderedMap String String} (done : (r.compileAll catalogue targets).outcome = .ok texts) :
    FilesOf targets texts (printedFiles texts) := by
  obtain ⟨sound, distinct, complete⟩ := Target.onePerModule_spec targets
  have keys := Registry.keys_compileAll done
  rw [← keys] at distinct
  constructor
  · exact ascending_mergeSort Prod.fst distinct
  · intro module
    have printed : module ∈ (printedFiles texts).map Prod.fst ↔ module ∈ texts.keys :=
      ((List.mergeSort_perm texts.entries _).map Prod.fst).mem_iff
    rw [printed, keys]
    constructor
    · intro member
      obtain ⟨t, chosen, named⟩ := List.mem_map.mp member
      exact ⟨t, sound t chosen, named⟩
    · rintro ⟨t, listed, rfl⟩
      exact complete t listed
  · intro module source
    rw [← OrderedMap.mem_entries_iff distinct]
    exact List.mem_mergeSort

/-- Unless help is asked for or a formatter is to rewrite the output, a run that does not return has printed nothing,
and what one that returns has printed is cut into one file for each module of the targets that were found, in the
order of their names, with its path in front and the text that was generated for it behind. -/
theorem output_cut_into_files (sources : Workspace.Sources) (behaviours : List Formatter.Behaviour)
    (arguments : List String) (unhelped : read arguments ≠ .help)
    (unformatted : ∀ r, read arguments = .request r → r.ruff = false)
    (unbroken : ∀ r w, read arguments = .request r → r.imported sources = .ok w →
      w.registry.Unbroken w.catalogue.describe (r.targets w)) :
    ((run sources behaviours arguments).ending ≠ .returned →
      printed (run sources behaviours arguments).stdout = "") ∧
    ((run sources behaviours arguments).ending = .returned → ∃ r w texts files,
      read arguments = .request r ∧ r.imported sources = .ok w ∧
      (w.registry.compileAll w.catalogue (r.targets w)).outcome = .ok texts ∧
      FilesOf (r.targets w) texts files ∧
      cut (printed (run sources behaviours arguments).stdout) =
        ([], files.map fun f => ("# File: " ++ filePath f.1, "\n" ++ f.2 ++ "\n"))) := by
  cases given : read arguments with
  | help => exact absurd given unhelped
  | error e =>
    simp only [run, given]
    exact ⟨fun _ => rfl, by simp⟩
  | request r =>
    have ran := run_printed (unformatted r given) sources behaviours
    simp only [run, given]
    generalize r.run sources behaviours = t at ran
    cases ran with
    | nothing silent failed =>
      rw [silent]
      exact ⟨fun _ => rfl, fun returned => absurd returned failed⟩
    | files w texts imported done stdout returned =>
      refine ⟨fun failed => absurd returned failed, fun _ => ?_⟩
      obtain ⟨blocks, related⟩ := exists_related fun f listed =>
        exists_fileLines (unbroken r w given imported) done (List.mem_mergeSort.mp listed)
      rw [stdout]
      exact ⟨r, w, texts, printedFiles texts, rfl, imported, done, filesOf_printedFiles done, cut_printed related⟩

/-- A module with one class, whose documentation has a line that looks like the header of a file. -/
def notesModule : SourceModule :=
  { name := "notes"
    body := [
      (.always, .target "API" (some "notes_sync") none),
      (.always, .cls "Notes"
        (fun _ => pure
          { name := "Notes", module := "notes", qualifiedName := "Notes"
            members := [.function "read" .method
              { name := "read", parameters := [{ name := "self" }], doc := some "Read.\n# File: notes.py" }] })
        (some { global := "API" }) none)] }

def notesRequest : Request := { modules := [some "notes"] }

def notesWorkspace : Workspace := (notesRequest.imported [notesModule]).toOption.getD {}

theorem notes_read : read ["-m", "notes"] = .request notesRequest := rfl

theorem notes_imported : notesRequest.imported [notesModule] = .ok notesWorkspace := rfl

theorem notes_targets : notesRequest.targets notesWorkspace = [{ module := "notes_sync" }] := by
  have held : (notesWorkspace.globals "notes").entries = [("API", .target 1), ("Notes", .cls 1)] := rfl
  have sorted : [("API", Object.target 1), ("Notes", Object.cls 1)].Pairwise
      fun a b => decide (a.1 ≤ b.1) = true := by
    rw [List.pairwise_pair]
    decide
  have found : targetsIn notesWorkspace "notes" = [1] := by
    rw [targetsIn, held, List.mergeSort_of_pairwise sorted]
    rfl
  have asked : notesRequest.modules.filterMap id = ["notes"] := rfl
  rw [Request.targets, targetsOf, asked, List.flatMap_cons, found]
  rfl

theorem notes_unbroken : notesWorkspace.registry.Unbroken notesWorkspace.catalogue.describe
    [{ module := "notes_sync" }] := by
  have wrapped : notesWorkspace.registry.wrappings "notes_sync" = [{ name := "NotesWrapper", key := 1 }] := rfl
  have described : (notesWorkspace.catalogue.describe 1).outcome = .ok
      { name := "Notes", module := some "notes"
        methods := [{ name := "read", doc := some "Read.\n# File: notes.py" }] } := rfl
  constructor
  · decide
  · simp
  · have none_shown : (notesWorkspace.registry.interfacesOf "notes_sync").entries = [] := rfl
    simp [none_shown]
  · simp only [List.forall_mem_singleton, wrapped, described]
    refine ⟨by decide, by simp, fun c same => ?_⟩
    cases same
    decide

theorem notes_returned : (run [notesModule] [] ["-m", "notes"]).ending = .returned := by
  obtain ⟨texts, done⟩ : ∃ texts, (notesWorkspace.registry.compileAll notesWorkspace.catalogue
    [{ module := "notes_sync" }]).outcome = .ok texts :=
      Registry.exists_compileAll_iff.mpr (by decide +kernel)
  have imported := notes_imported
  have targets := notes_targets
  rw [Request.imported] at imported
  rw [Request.targets] at targets
  simp only [run, notes_read, Request.run, imported, targets]
  rw [if_neg (by decide)]
  simp only [generate, done]
  rw [if_neg (by decide)]
  exact (printModules_plain _ _).2

theorem notes_cut_into_file : (run [notesModule] [] ["-m", "notes"]).ending = .returned ∧
    ∃ r w texts files, read ["-m", "notes"] = .request r ∧ r.imported [notesModule] = .ok w ∧
      (w.registry.compileAll w.catalogue (r.targets w)).outcome = .ok texts ∧
      FilesOf (r.targets w) texts files ∧
      cut (printed (run [notesModule] [] ["-m", "notes"]).stdout) =
        ([], files.map fun f => ("# File: " ++ filePath f.1, "\n" ++ f.2 ++ "\n")) := by
  have only : ∀ r, read ["-m", "notes"] = .request r → r = notesRequest := by
    intro r given
    rw [notes_read] at given
    exact (Reading.request.inj given).symm
  have unbroken : ∀ r w, read ["-m", "notes"] = .request r → r.imported [notesModule] = .ok w →
      w.registry.Unbroken w.catalogue.describe (r.targets w) := by
    intro r w given imported
    cases only r given
    rw [notes_imported] at imported
    cases imported
    rw [notes_targets]
    exact notes_unbroken
  obtain ⟨_, files⟩ := output_cut_into_files [notesModule] [] ["-m", "notes"] (by simp [notes_read])
    (fun r given => by cases only r given; rfl) unbroken
  exact ⟨notes_returned, files notes_returned⟩

end SyncFacade.CommandLine
