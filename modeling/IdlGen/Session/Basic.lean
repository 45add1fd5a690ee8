import IdlGen.Files.Tree
import IdlGen.Log

/-!
Sessions: computations that write files and keep a log. What was written and logged before a
fault stays. Those that read work on a file tree, the others on any file system.
-/
namespace IdlGen

/-! ## Formatting -/

inductive Formatter where
  /-- It cannot be started. -/
  | missing
  /-- It gives up, with the reason and what it printed. -/
  | failing (reason printed : String)
  | formats (format : String → String)

namespace Formatter

def plainBreaks : List Char → List Char
  | [] => []
  | '\r' :: '\n' :: rest => '\n' :: plainBreaks rest
  | '\r' :: rest => '\n' :: plainBreaks rest
  | c :: rest => c :: plainBreaks rest

def apply (formatter : Formatter) (source : String) : String :=
  match formatter with
  | missing | failing .. => source
  | formats format => String.ofList (plainBreaks (format source).toList)

def log : Formatter → List LogLine
  | missing => [⟨.warning, "run", "ruff not found, writing unformatted outputs"⟩]
  | failing reason printed =>
    [⟨.error, "run", s!"Ruff formatting failed: {reason}"⟩,
     ⟨.error, "run", s!"Stderr: {printed}"⟩]
  | formats _ => []

end Formatter

/-! ## Sessions -/

/-- A file system as far as writing needs it, with nothing in it at first. -/
class FileSystem (files : Type) extends Inhabited files where
  makeDirectory : files → String → Except Fault files
  write : files → String → String → Except Fault files

@[default_instance]
instance : FileSystem FileTree where
  makeDirectory := FileTree.makeDirectory
  write := FileTree.write

structure WorldOn (files : Type) [FileSystem files] where
  /-- The directory that relative paths start from, as a normal absolute path. -/
  working : String := "/"
  tree : files := default
  formatter : Formatter := .missing
  log : List LogLine := []

abbrev World := WorldOn FileTree

abbrev SessionOn (files : Type) [FileSystem files] := ExceptT Fault (StateM (WorldOn files))

abbrev Session := SessionOn FileTree

namespace Session

variable {files : Type} [FileSystem files]

def note (lines : List LogLine) : SessionOn files Unit :=
  modify fun world => { world with log := world.log ++ lines }

def ofExcept {α : Type} (result : Except Fault α) : SessionOn files α := ExceptT.mk (pure result)

def absolute (path : String) : SessionOn files String := do
  return Path.join (← get).working path

def makeDirectory (path : String) : SessionOn files Unit := do
  let path ← absolute path
  let tree ← ofExcept (FileSystem.makeDirectory (← get).tree path)
  modify fun world => { world with tree }

def writeFile (path content : String) : SessionOn files Unit := do
  let path ← absolute path
  let tree ← ofExcept (FileSystem.write (← get).tree path content)
  modify fun world => { world with tree }

end Session
end IdlGen
