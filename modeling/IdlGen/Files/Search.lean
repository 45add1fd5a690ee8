import IdlGen.Files.Pattern
import IdlGen.Files.Tree
import IdlGen.Name
import IdlGen.Table

/-!
Searching a file tree for schema documents. A directory gives the documents in it, and below
it in a recursive search; any other path is a pattern whose matches are taken as they
are. Paths are compared as texts, so two spellings of one file are two results.
-/
namespace IdlGen.FileTree

def isHidden (name : String) : Bool := Text.hasStart "." name

def anyDepth : String := "**"

/-- The names below a directory that fit the last part of a pattern. Hidden names need a
    pattern that starts with a dot. -/
def fitting (tree : FileTree) (recursive directoriesOnly : Bool) (directory last : String) :
    List String :=
  let wanted (node : FileNode) := !directoriesOnly || node == .directory
  if !Pattern.isPattern last then
    if last = "" then if tree.isDirectory directory then [""] else []
    else if tree.holds (Path.join directory last) then [last] else []
  else match tree.at? directory, tree.locate directory with
    | some .directory, .ok place =>
      if recursive && last = anyDepth then
        "" :: (tree.below place).filterMap fun (names, node) =>
          if wanted node && !names.any isHidden then some (Path.joinAll names) else none
      else
        (tree.children place).filterMap fun (name, node) =>
          if wanted node && (isHidden last || !isHidden name) && Pattern.accepts last name then
            some name
          else none
    | _, _ => []

def expandWithin (tree : FileTree) (recursive : Bool) : Nat → Bool → String → List String
  | 0, _, _ => []
  | n + 1, directoriesOnly, pattern =>
    let (directory, last) := Path.splitLast pattern
    if !Pattern.isPattern pattern then
      if last = "" then if tree.isDirectory directory then [pattern] else []
      else if tree.holds pattern then [pattern] else []
    else
      let directories := if Pattern.isPattern directory then
          tree.expandWithin recursive n true directory
        else [directory]
      directories.flatMap fun directory =>
        (tree.fitting recursive directoriesOnly directory last).map (Path.join directory)

def expand (tree : FileTree) (recursive : Bool) (pattern : String) : List String :=
  tree.expandWithin recursive (pattern.toList.length + 1) false pattern

def documents (tree : FileTree) (recursive : Bool) (directory : String) : List String :=
  match tree.locate directory with
  | .error _ => []
  | .ok place =>
    let files := if recursive then tree.below place
      else (tree.children place).map fun (name, node) => ([name], node)
    files.filterMap fun (names, node) =>
      if node != .directory && Text.hasEnding Name.documentEnding (names.getLast?.getD "") then
        some (Path.joinAll (directory :: names))
      else none

def searchOne (tree : FileTree) (recursive : Bool) (path : String) : List String :=
  if tree.isDirectory path then tree.documents recursive path else tree.expand recursive path

/-- The paths found from a root directory, sorted, each once, without those that an excluding
    pattern gives. -/
def search (tree : FileTree) (root : String) (paths excludes : List String) (recursive : Bool) :
    List String :=
  let excluded := excludes.flatMap fun pattern => tree.expand recursive (Path.join root pattern)
  let found := paths.flatMap fun path => tree.searchOne recursive (Path.join root path)
  ((firstOccurrences found).filter fun path => !excluded.contains path).mergeSort
    fun a b => !decide (b < a)

end IdlGen.FileTree
