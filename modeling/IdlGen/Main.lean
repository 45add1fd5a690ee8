import IdlGen.Command.Run

/-!
The command line program. Standard input lists the files of the working directory, one path a
line; the command runs on them, the files that it changed are written, and the log goes to
standard error.
-/
namespace IdlGen.Main

def usage : String :=
  "usage: idlgen [-h] [-p PATHS [PATHS ...]] [-e EXCLUDES [EXCLUDES ...]] [-o OUTPUT_DIR]\n" ++
  "              [-t TEST_DATA_DIR] [-r] [--no-format] [-v]"

partial def readLines (stream : IO.FS.Stream) : IO (List String) := do
  let line ← stream.getLine
  if line.isEmpty then return []
  return (Text.dropEnding? "\n" line).getD line :: (← readLines stream)

def textOf (path : String) : IO String :=
  try IO.FS.readFile path catch _ => return ""

def addFile (working : String) (tree : FileTree) (path : String) : IO FileTree := do
  let path := Path.absolute working path
  return (tree.add path (← textOf path)).toOption.getD tree

def writeOut (names : List String) (content : String) : IO Unit := do
  let path := Path.joinAll ("/" :: names)
  IO.FS.createDirAll (Path.directory path)
  IO.FS.writeFile path content

def finish (before after : World) (result : Except Fault Nat) : IO UInt32 := do
  let stderr ← IO.getStderr
  for line in after.log do
    stderr.putStrLn line.text
  for (names, content) in before.tree.changes after.tree [] do
    writeOut names content
  match result with
  | .ok code => return code.toUInt32
  | .error fault =>
    stderr.putStrLn (fault.message?.getD "The run failed.")
    return 1

end IdlGen.Main

open IdlGen in
def main (arguments : List String) : IO UInt32 := do
  match Command.Options.ofArguments arguments with
  | .error stop =>
    IO.eprintln Main.usage
    return stop.code.toUInt32
  | .ok options =>
    let working := toString (← IO.currentDir)
    let rooted := (FileTree.makeDirectory {} working).toOption.getD {}
    let paths ← Main.readLines (← IO.getStdin)
    let world : World := { working, tree := ← paths.foldlM (Main.addFile working) rooted }
    let (result, after) := Command.start options world
    Main.finish world after result
