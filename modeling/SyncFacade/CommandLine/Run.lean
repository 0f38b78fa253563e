import SyncFacade.CommandLine.Arguments
import SyncFacade.Formatter
import SyncFacade.Workspace.Import

/-! Running the program: the modules that are asked for are imported, run again while types are checked,
and searched for targets; what is registered for these is generated and printed. -/
namespace SyncFacade.CommandLine

inductive RunError where
  | importing (e : ImportFailure)
  | generating (e : GenerationError)
deriving DecidableEq

/-- An error as it is reported at last: its kind and its message. -/
def RunError.line : RunError → String
  | .importing e => e.kind ++ ": " ++ e.message
  | .generating e => e.message

inductive Ending where
  | returned
  | exited (code : Nat)
  | failed (e : RunError)
deriving DecidableEq

/-- What the program printed, the commands it called, and how it ended. Each printed text is followed by
a line feed. -/
structure Transcript where
  stdout : List String := []
  stderr : List String := []
  calls : List (List String) := []
  ending : Ending := .returned

def printed (texts : List String) : String := String.join (texts.map (· ++ "\n"))

/-- Import the modules that are asked for, and the lines that say so. -/
def importAll (sources : Workspace.Sources) :
    List (Option String) → Workspace → List String × Except ImportFailure Workspace
  | [], w => ([], .ok w)
  | m :: ms, w =>
    let line := "  Importing module: " ++ m.getD "[]"
    match Workspace.importNamed sources w m with
    | .error e => ([line], .error e)
    | .ok w =>
      let (lines, r) := importAll sources ms w
      (line :: lines, r)

/-- The targets in the variables of a module, in the order of the variables' names. -/
def targetsIn (w : Workspace) (module : String) : List Nat :=
  ((w.globals module).entries.mergeSort fun a b => a.1 ≤ b.1).filterMap fun (_, o) => match o with
    | .target number => some number
    | _ => none

def targetsOf (w : Workspace) (modules : List String) : List Target :=
  (modules.flatMap (targetsIn w)).eraseDups.filterMap fun number => w.targets[number]?

def itemCount (w : Workspace) (module : String) : Nat := (w.registry.itemsOf module).entries.length

def foundLine (w : Workspace) (t : Target) : String :=
  "  Found Module: " ++ t.module ++ " with " ++ toString (itemCount w t.module) ++ " items"

def noTargetLines : List String := [
  "\nError: No Module objects found in the specified modules.",
  "Make sure you have created a Module instance and decorated your classes with it:",
  "  wrapper_module = Module('my_lib.wrappers', scope_provider='my_lib.scopes.scope')",
  "  @wrapper_module.wrap_class"]

/-- A record as it is printed. Without details there are only warnings, and only their messages. -/
def recordLine (verbose : Bool) (r : Record) : Option String :=
  if verbose then some r.line else if r.level = .warning then some r.message else none

def filePath (module : String) : String := "/".intercalate (Text.components module) ++ ".py"

def fileHeader (module : String) : String := "# File: " ++ filePath module ++ "\n"

/-- Print generated modules, formatted if that is asked for. It is assumed that the standard output takes
every text: printing does not fail, whatever the encoding of the stream, so it is none of the errors that
a run ends with. -/
def printModules (ruff : Bool) : List (String × String) → List Formatter.Behaviour → Transcript
  | [], _ => {}
  | (module, source) :: rest, behaviours =>
    if ruff then
      let f := Formatter.format behaviours source
      let t := printModules ruff rest f.left
      { stdout := fileHeader module :: f.source :: t.stdout
        stderr := f.messages ++ ("  Formatted: " ++ module) :: t.stderr
        calls := f.calls ++ t.calls }
    else
      let t := printModules ruff rest behaviours
      { t with stdout := fileHeader module :: source :: t.stdout }

/-- Generate and print what is registered for some targets. Nothing is printed unless all of it is
generated. -/
def generate (r : Request) (behaviours : List Formatter.Behaviour) (w : Workspace) (targets : List Target)
    (before : List String) : Transcript :=
  let modules := (targets.map Target.module).eraseDups
  let total := modules.foldl (fun count module => count + itemCount w module) 0
  let compiled := w.registry.compileAll w.catalogue targets
  let progress := before ++
    ["\nTotal registered items: " ++ toString total, "Compiling wrappers..."] ++
    compiled.records.filterMap (recordLine r.verbose)
  match compiled.outcome with
  | .error e => { stderr := progress, ending := .failed (.generating e) }
  | .ok texts =>
    if total = 0 then { stderr := progress ++ ["No modules generated"], ending := .exited 1 }
    else
      let t := printModules r.ruff (texts.entries.mergeSort fun a b => a.1 ≤ b.1) behaviours
      { t with
        stderr := progress ++
          ("Generated " ++ toString texts.entries.length ++ " module(s)") :: t.stderr }

/-- Do what is asked for, with the given modules to import. -/
def Request.run (r : Request) (sources : Workspace.Sources) (behaviours : List Formatter.Behaviour) :
    Transcript :=
  let (lines, imported) := importAll sources r.modules {}
  let progress := "Importing modules..." :: lines
  let names := r.modules.filterMap id
  match imported.bind (Workspace.reloadAll sources · names) with
  | .error e => { stderr := progress, ending := .failed (.importing e) }
  | .ok w =>
    let targets := targetsOf w names
    let progress := progress ++ targets.map (foundLine w)
    if targets.isEmpty then { stderr := progress ++ noTargetLines, ending := .exited 1 }
    else generate r behaviours w targets progress

def run (sources : Workspace.Sources) (behaviours : List Formatter.Behaviour) (arguments : List String) :
    Transcript :=
  match read arguments with
  | .help => { stdout := [help], ending := .exited 0 }
  | .error e => { stderr := e.lines, ending := .exited 2 }
  | .request r => r.run sources behaviours

end SyncFacade.CommandLine
