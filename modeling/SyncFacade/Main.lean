import SyncFacade.CommandLine.Run

/-! The program as a command. It imports from an empty workspace, as there are no modules around it, and
finds no formatter. -/

/-- Print what a run printed, and end as it ended. -/
def SyncFacade.CommandLine.Transcript.replay (t : SyncFacade.CommandLine.Transcript) : IO UInt32 := do
  IO.print (SyncFacade.CommandLine.printed t.stdout)
  IO.eprint (SyncFacade.CommandLine.printed t.stderr)
  match t.ending with
  | .returned => return 0
  | .exited code => return code.toUInt32
  | .failed e =>
    IO.eprintln e.line
    return 1

def main (arguments : List String) : IO UInt32 :=
  (SyncFacade.CommandLine.run [] [] arguments).replay
