import SyncFacade.Text.Blank

/-! Fixing and formatting source with external commands. Each command reads the source and writes the new
one. A source is left as far as it came when a command is missing or fails without writing anything. -/
namespace SyncFacade.Formatter

structure Completion where
  code : Int := 0
  output : String := ""
  errors : String := ""

/-- What running a command does with its input: nothing, if there is no such command. -/
abbrev Behaviour := String → Option Completion

/-- The commands, in the order in which they run. -/
def commands : List (List String) :=
  [["ruff", "check", "--fix", "--quiet", "-"], ["ruff", "format", "-"]]

def missingMessage : String := "  ruff not found, leaving output unformatted"

def failureMessage (command : List String) (errors : String) : String :=
  "  " ++ " ".intercalate (command.take 2) ++ " failed: " ++ String.ofList (Text.trim errors.toList)

/-- A formatted source, the commands that were called, the messages, and the behaviours that are left for
later calls. -/
structure Result where
  source : String
  calls : List (List String) := []
  messages : List String := []
  left : List Behaviour := []

/-- Whether a command failed: an exit code alone is no failure, if something was written. -/
def Completion.failed (c : Completion) : Bool := c.code != 0 && c.output.isEmpty

/-- Run commands on a source, one after the other. Where the behaviours are used up, commands are
missing. -/
def run : List (List String) → List Behaviour → String → Result
  | [], left, source => { source, left }
  | command :: rest, behaviours, source =>
    match (behaviours.head?.bind fun behave => behave source) with
    | none => { source, calls := [command], messages := [missingMessage], left := behaviours.tail }
    | some c =>
      if c.failed then
        { source, calls := [command], messages := [failureMessage command c.errors], left := behaviours.tail }
      else
        let r := run rest behaviours.tail c.output
        { r with calls := command :: r.calls }

def format (behaviours : List Behaviour) (source : String) : Result := run commands behaviours source

end SyncFacade.Formatter
