import IdlGen.Fault
import IdlGen.Path

/-!
File trees. A tree says what stands at each place: a directory or a file with its text. A
path is followed one name at a time, so every name before the last has to be a
directory that exists, also one that `..` leaves again; the place that is reached is
the one that the normal path names.
-/
namespace IdlGen

/-- A place in a file tree: its own name, then the names of the directories around it,
    innermost first. The root has no name. -/
abbrev Place := List String

def Place.ofPath (path : String) : Place :=
  (Text.split '/' path).foldl (Path.normalStep true) []

inductive FileNode where
  | directory
  | file (content : String)
deriving DecidableEq, Repr, Inhabited

/-- Directories and files by place. The root is always a directory. -/
structure FileTree where
  nodes : List (Place × FileNode) := []
deriving Repr, Inhabited

namespace FileTree

/-! ## Looking -/

def node? (tree : FileTree) (place : Place) : Option FileNode :=
  if place = [] then some .directory else tree.nodes.lookup place

def follow (tree : FileTree) (path : String) (here : Place) : List String → Except Fault Place
  | [] => .ok here
  | name :: rest =>
    match tree.node? here with
    | some .directory =>
      let next := Path.normalStep true here name
      if (tree.node? next).isSome then tree.follow path next rest else .error (.fileMissing path)
    | _ => .error (.notDirectory path)

def locate (tree : FileTree) (path : String) : Except Fault Place :=
  tree.follow path [] (Text.split '/' path)

def at? (tree : FileTree) (path : String) : Option FileNode :=
  (tree.locate path).toOption.bind tree.node?

def holds (tree : FileTree) (path : String) : Bool := (tree.at? path).isSome

def isDirectory (tree : FileTree) (path : String) : Bool := tree.at? path == some .directory

def read (tree : FileTree) (path : String) : Except Fault String := do
  match tree.node? (← tree.locate path) with
  | some (.file content) => return content
  | _ => throw (.isDirectory path)

def children (tree : FileTree) (directory : Place) : List (String × FileNode) :=
  tree.nodes.filterMap fun (place, node) =>
    match place with
    | name :: parent => if parent = directory then some (name, node) else none
    | [] => none

def below (tree : FileTree) (directory : Place) : List (List String × FileNode) :=
  tree.nodes.filterMap fun (place, node) =>
    if directory.isSuffixOf place && directory.length < place.length then
      some ((place.take (place.length - directory.length)).reverse, node)
    else none

/-! ## Changing -/

def put (tree : FileTree) (place : Place) (node : FileNode) : FileTree :=
  ⟨(place, node) :: tree.nodes.filter fun entry => entry.1 ≠ place⟩

def makeFrom (path : String) (tree : FileTree) (here : Place) : List String → Except Fault FileTree
  | [] => .ok tree
  | name :: rest =>
    let next := Path.normalStep true here name
    match tree.node? next with
    | some .directory => makeFrom path tree next rest
    | some (.file _) =>
      .error (if rest.all (· == "") then .fileExists path else .notDirectory path)
    | none => makeFrom path (tree.put next .directory) next rest

def makeDirectory (tree : FileTree) (path : String) : Except Fault FileTree :=
  makeFrom path tree [] (Text.split '/' path)

def write (tree : FileTree) (path content : String) : Except Fault FileTree := do
  let (directory, name) := Path.splitLast path
  let parent ← tree.locate directory
  if tree.node? parent ≠ some .directory then throw (.notDirectory path)
  let place := Path.normalStep true parent name
  if tree.node? place = some .directory then throw (.isDirectory path)
  return tree.put place (.file content)

def add (tree : FileTree) (path content : String) : Except Fault FileTree := do
  (← tree.makeDirectory (Path.directory path)).write path content

def changes (before after : FileTree) (directory : Place) : List (List String × String) :=
  (after.below directory).filterMap fun (names, node) =>
    match node with
    | .file content =>
      if before.node? (names.reverse ++ directory) = some node then none else some (names, content)
    | .directory => none

end FileTree
end IdlGen
