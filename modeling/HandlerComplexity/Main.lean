import HandlerComplexity.Command.Run

/-!
# The command line

Lists the files below the working directory, runs the command on them, and writes what it has to say.
No grammars are linked in, so that every source file is reported as one that cannot be parsed.
-/

namespace HandlerComplexity.Command

def textOfPlace (place : Place) : String := "/".intercalate ("." :: place)

/-- The files and the directories among the entries of a directory and below them. Links are not
followed. -/
partial def listEntries (place : Place) (entries : Array IO.FS.DirEntry) :
    IO (List Place × List Place) := do
  let mut files : List Place := []
  let mut directories : List Place := []
  for e in entries do
    let child := place ++ [e.fileName]
    match (← e.path.symlinkMetadata).type with
    | .dir =>
      let (fs, ds) ← listEntries child (← e.path.readDir)
      files := files ++ fs
      directories := directories ++ child :: ds
    | .file => files := files ++ [child]
    | _ => pure ()
  return (files, directories)

/-- The workspace below the working directory. Of all contents only that of the configuration file is
needed. -/
def loadWorkspace (config : Option String) : IO Workspace := do
  let (files, directories) ← listEntries [] (← (← IO.currentDir).readDir)
  let w : Workspace := { files := files.map (·, []), directories := directories }
  match config.map fun c => w.locate (Path.ofString c) with
  | some (.ok (.inside place)) =>
    if (w.file? place).isSome then
      let bytes ← IO.FS.readBinFile (textOfPlace place)
      return { w with files := Workspace.put place bytes.toList w.files }
    else return w
  | _ => return w

/-- Write what a run has to say, and give its code. -/
def conclude (time : String) : Outcome → IO UInt32
  | .stopped (.help p) => do
    IO.println ("usage: " ++ p.name ++ " [options]")
    return 0
  | .stopped s => do
    IO.eprintln s.message
    return s.exitCode.toUInt32
  | .crashed c => do
    IO.eprintln c.message
    return 1
  | .finished f => do
    IO.eprint (f.stderr time)
    IO.print f.stdout
    match f.written with
    | some file => IO.FS.writeFile (textOfPlace file.place) file.text
    | none => pure ()
    return f.exitCode.toUInt32

end HandlerComplexity.Command

open HandlerComplexity in
def main (args : List String) : IO UInt32 := do
  let config := match Command.Arguments.parse args with
    | .ok a => a.config
    | .error _ => none
  let w ← Command.loadWorkspace config
  let time := toString (← IO.monoMsNow)
  Command.conclude time (Command.run .inOrder w .missing args)
