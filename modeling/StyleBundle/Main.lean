import StyleBundle.Command.Request

/-!
# StyleBundle.Main

The program: reads the style sheet that the command line names, and prints and writes what the
request comes to.
-/

namespace StyleBundle

/-- Prints a reply, writes its file and gives its status. -/
def emit (r : Reply) : IO UInt32 := do
  IO.eprint (r.diagnosticsOn (← (← IO.getStderr).isTty))
  match r.file with
  | some (path, text) => IO.FS.writeFile path text
  | none => pure ()
  IO.print (r.outputOn (← (← IO.getStdout).isTty))
  return r.status.toUInt32

/-- Says that the command line cannot be understood. -/
def usage : IO UInt32 := do
  IO.eprintln "Usage: native-css [-v] (compile | inspect) [OPTIONS] STYLESHEET"
  return Request.usageStatus.toUInt32

end StyleBundle

open StyleBundle in
/-- Runs the command line. -/
def main (args : List String) : IO UInt32 := do
  match Request.ofArguments? args with
  | none => usage
  | some .version => emit { output := textOfLines [Request.versionText] }
  | some (.run i) =>
    let source? ← (some <$> IO.FS.readFile i.stylesheet).catchExceptions fun _ => pure none
    match source? with
    | none => usage
    | some source =>
      match i.run source with
      | .ok r => emit r
      | .error e => emit { status := 1, diagnostics := textOfLines [e.message] }
