import SyncFacade.Text.Digit
import SyncFacade.Text.Quoted

/-! The arguments of the command line. Options may be shortened as far as they stay unambiguous, letters
of options without a value may be grouped, and a value follows its option or is attached to it. -/
namespace SyncFacade.CommandLine

inductive Flag where
  | help
  | module
  | ruff
  | verbose
deriving DecidableEq

/-- The spellings of options, in the order in which messages list them. -/
def spellings : List (String × Flag) :=
  [("-h", .help), ("--help", .help), ("-m", .module), ("--module", .module), ("--ruff", .ruff),
   ("-v", .verbose), ("--verbose", .verbose)]

namespace Flag

def shown : Flag → String
  | .help => "-h/--help"
  | .module => "-m/--module"
  | .ruff => "--ruff"
  | .verbose => "-v/--verbose"

def takesValue (f : Flag) : Bool := f = .module

end Flag

inductive UsageError where
  | ambiguous (argument : String) (candidates : List String)
  | ignoredValue (flag : Flag) (value : String)
  | missingValue (flag : Flag)
  | required
  | unrecognized (arguments : List String)
deriving DecidableEq

def UsageError.message : UsageError → String
  | .ambiguous a candidates =>
    "ambiguous option: " ++ a ++ " could match " ++ ", ".intercalate candidates
  | .ignoredValue f v => "argument " ++ f.shown ++ ": ignored explicit argument " ++ Text.quote v
  | .missingValue f => "argument " ++ f.shown ++ ": expected one argument"
  | .required => "the following arguments are required: " ++ Flag.module.shown
  | .unrecognized as => "unrecognized arguments: " ++ " ".intercalate as

/-- An argument by its form: an option that is known with what is attached to it, and whether it was
spelled with one dash; an option that is not known; the separator behind which there are no options; or
anything else. -/
inductive Token where
  | option (flag : Flag) (short : Bool) (attached : Option String)
  | unknown (argument : String)
  | separator
  | plain (argument : String)
deriving DecidableEq

def Token.leftover : Token → List String
  | .option _ _ _ => []
  | .unknown a => [a]
  | .separator => ["--"]
  | .plain a => [a]

/-- What stands before and after the first equality sign. -/
def splitAtEquals (cs : List Char) : Option (List Char × List Char) :=
  if '=' ∈ cs then some (cs.takeWhile (· ≠ '='), (cs.dropWhile (· ≠ '=')).drop 1) else none

def isDigits (cs : List Char) : Bool := !cs.isEmpty && cs.all Text.isDigit

def dropLineBreak (cs : List Char) : List Char := if cs.getLast? = some '\n' then cs.dropLast else cs

/-- Whether an argument is a negative number, which is no option. -/
def isNegativeNumber (cs : List Char) : Bool :=
  match dropLineBreak cs with
  | '-' :: ds => isDigits ds || ((ds.dropWhile Text.isDigit).head? = some '.' &&
      isDigits ((ds.dropWhile Text.isDigit).drop 1))
  | _ => false

/-- The options that an argument may shorten or have something attached to. -/
def candidates (cs : List Char) : List (String × Flag × Option String) :=
  match cs with
  | '-' :: '-' :: _ =>
    let (beginning, attached) := match splitAtEquals cs with
      | some (before, after) => (before, some (String.ofList after))
      | none => (cs, none)
    (spellings.filter fun e => beginning.isPrefixOf e.1.toList).map fun (s, f) => (s, f, attached)
  | dash :: letter :: attached =>
    (spellings.filter (·.1.toList = [dash, letter])).map fun (s, f) => (s, f, some (String.ofList attached))
  | _ => []

def isShort (spelling : String) : Bool := spelling.toList.take 2 ≠ ['-', '-']

/-- The form of an argument in front of the separator. -/
def classify (argument : String) : Except UsageError Token :=
  let cs := argument.toList
  if cs.head? ≠ some '-' || cs = ['-'] then .ok (.plain argument)
  else
    match spellings.lookup argument with
    | some f => .ok (.option f (isShort argument) none)
    | none =>
      match (splitAtEquals cs).bind fun (before, after) =>
          (spellings.lookup (String.ofList before)).map fun f => (f, before, after) with
      | some (f, before, after) =>
        .ok (.option f (isShort (String.ofList before)) (some (String.ofList after)))
      | none =>
        match candidates cs with
        | [(s, f, attached)] => .ok (.option f (isShort s) attached)
        | _ :: _ :: _ => .error (.ambiguous argument ((candidates cs).map (·.1)))
        | [] => .ok (if isNegativeNumber cs || ' ' ∈ cs then .plain argument else .unknown argument)

def tokens : List String → Except UsageError (List Token)
  | [] => .ok []
  | a :: as =>
    if a = "--" then .ok (.separator :: as.map Token.plain)
    else do return (← classify a) :: (← tokens as)

/-- Options that are spelled as one group: those without a value, the last one, and what is attached to
that one. -/
structure Group where
  flags : List Flag := []
  last : Flag
  attached : Option String := none

/-- The group that letters attached to an option without a value make up. -/
def group (flag : Flag) : List Char → Except UsageError Group
  | [] => .ok { last := flag }
  | c :: cs =>
    match spellings.lookup (String.ofList ['-', c]) with
    | none => .error (.ignoredValue flag (String.ofList (c :: cs)))
    | some next =>
      if next.takesValue && !cs.isEmpty then
        .ok { flags := [flag], last := next, attached := some (String.ofList cs) }
      else do
        let g ← group next cs
        return { g with flags := flag :: g.flags }

/-- The options that an argument stands for. -/
def expand (flag : Flag) (short : Bool) : Option String → Except UsageError Group
  | none => .ok { last := flag }
  | some attached =>
    if flag.takesValue then .ok { last := flag, attached := some attached }
    else if short && attached ≠ "" then group flag attached.toList
    else .error (.ignoredValue flag attached)

/-- What is asked for. A module is absent where the separator alone was attached to its option. -/
structure Request where
  modules : List (Option String) := []
  ruff : Bool := false
  verbose : Bool := false
  leftovers : List String := []

def Request.set (r : Request) : Flag → Request
  | .ruff => { r with ruff := true }
  | .verbose => { r with verbose := true }
  | _ => r

def Request.addModule (r : Request) (value : String) : Request :=
  { r with modules := r.modules ++ [if value = "--" then none else some value] }

inductive Reading where
  | request (r : Request)
  | help
  | error (e : UsageError)

/-- The verdict when all arguments are taken: a module is required, and nothing may be left over. -/
def Request.finish (r : Request) : Reading :=
  if r.modules.isEmpty then .error .required
  else if r.leftovers ≠ [] then .error (.unrecognized r.leftovers)
  else .request r

/-- Take the arguments in order. Help is given as soon as it is asked for. -/
def take (r : Request) : List Token → Reading
  | [] => r.finish
  | .option flag short attached :: ts =>
    match expand flag short attached with
    | .error e => .error e
    | .ok g =>
      let r' := g.flags.foldl Request.set r
      if g.last.takesValue then
        match g.attached, ts with
        | some value, ts => if .help ∈ g.flags then .help else take (r'.addModule value) ts
        | none, .plain value :: ts => if .help ∈ g.flags then .help else take (r'.addModule value) ts
        | none, _ => .error (.missingValue g.last)
      else if .help ∈ g.last :: g.flags then .help
      else take (r'.set g.last) ts
  | t :: ts => take { r with leftovers := r.leftovers ++ t.leftover } ts

def read (arguments : List String) : Reading :=
  match tokens arguments with
  | .ok ts => take {} ts
  | .error e => .error e

def usage : String := "usage: suspendwrap [-h] -m MODULES [--ruff] [-v]"

def help : String :=
usage ++ "

Generate non-suspending wrappers for classes registered with suspendwrap Modules

options:
  -h, --help            show this help message and exit
  -m MODULES, --module MODULES
                        Qualified module name to import (can be specified
                        multiple times)
  --ruff                Run ruff to autofix and format the generated modules
  -v, --verbose         Log details of the compilation to stderr

Examples:
  # Print generated modules
  python -m suspendwrap.codegen -m my.package._impl
  suspendwrap -m my.package._impl

  # Generate and format with ruff
  suspendwrap -m my.package._impl --ruff

  # Generate wrappers for multiple modules
  suspendwrap -m package._a -m package._b
        "

/-- The lines about arguments that are not accepted. -/
def UsageError.lines (e : UsageError) : List String := [usage, "suspendwrap: error: " ++ e.message]

end SyncFacade.CommandLine
