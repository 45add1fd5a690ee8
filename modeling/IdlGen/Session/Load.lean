import IdlGen.Group.Basic
import IdlGen.Json.Reader
import IdlGen.Schema.Reader
import IdlGen.Session.Basic

/-!
Groups of schemas that are read from files. A module belongs to one file of a group.
-/
namespace IdlGen.Session

def documentOf (path : String) (text : Except Fault String) : Except Fault Value :=
  match text with
  | .error cause => .error (.unreadable path cause)
  | .ok text =>
    match Json.parse text with
    | .error .malformedText => .error (.unreadable path .malformedText)
    | .error fault => .error fault
    | .ok (.dict entries) => .ok (.dict entries)
    | .ok _ => .error (.notADocument path)

def loadSchema (path : String) : Session Schema := do
  let world ← get
  let text := world.tree.read (Path.join world.working path)
  ofExcept (do Schema.load (← documentOf path text) path)

def loadInto (g : Group) (path : String) : Session Group := do
  let s ← loadSchema path
  if s.module.hashable && (g.schema? s.module).isSome then throw (.repeatedModule s.module)
  let g ← ofExcept (g.add s)
  note [⟨.info, "loader", s!"Loaded schema '{s.module.display}' from '{path}'."⟩]
  return g

def loadGroup (paths : List String) : Session Group := paths.foldlM loadInto {}

end IdlGen.Session
