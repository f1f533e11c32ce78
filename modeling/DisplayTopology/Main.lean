import DisplayTopology.CommandLine.Rehearsal

/-!
# The setup command

Reads the arguments, rehearses the command, and prints the tree that it leaves behind.
-/

open DisplayTopology

/-- Runs the setup command with the program's arguments. -/
def main (args : List String) : IO UInt32 := do
  match Command.ofArguments args with
  | .error e =>
    IO.eprintln e.message
    IO.eprintln Command.usage
    return 1
  | .ok command =>
    match command.rehearse Command.freshDevice with
    | .error e =>
      IO.eprintln e.message
      return 1
    | .ok d =>
      for line in d.surface.tree Settings.standard.root do
        IO.println line.render
      return 0
