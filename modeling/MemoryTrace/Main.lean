import MemoryTrace.CommandLine.Run

namespace MemoryTrace

/-- Shows the run and takes keys by name, one a line, until it is quit. -/
partial def view (viewer : Viewer) : IO Unit := do
  let (viewer, rows) := viewer.draw 100 41
  for row in rows do
    IO.println (Viewer.Row.text row).toName
  if viewer.quit then
    return
  let line ← (← IO.getStdin).getLine
  if line.isEmpty then
    return
  view (viewer.press (.named line.trimAscii.toString) true)

/-- What an argument leads to, taken as a path. -/
def find? (path : String) : IO (Option CommandLine.Found) := do
  try
    return some (.file (← IO.FS.readFile path))
  catch
    | .inappropriateType none _ _ => return some .directory
    | _ => return none

end MemoryTrace

open MemoryTrace

/-- Runs a command line. Only here are files read and is anything printed. -/
def main (arguments : List String) : IO UInt32 := do
  let found ← arguments.mapM fun path => return (path, ← find? path)
  match CommandLine.run "memory-trace" arguments fun path => (found.lookup path).join with
  | .view viewer =>
    view viewer
    return 0
  | .output output =>
    IO.print output.standard
    IO.eprint output.error
    return output.status.toUInt32
