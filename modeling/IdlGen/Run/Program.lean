import IdlGen.Code.Module
import IdlGen.Run.Execute
import IdlGen.Stream.Generate

/-!
Programs: all generated modules of a group, ready to be imported. Importing a module loads
its packages and runs its statements, once. Companions are called to draw
strategies and to apply declared defaults.
-/
namespace IdlGen.Run

open Code

structure Program where
  outputs : List Output

namespace Program

def ofStreams (s : Streams) : Program := ⟨(s.main ++ s.companions).map (·.2)⟩

def output? (p : Program) (path : String) : Option Output :=
  p.outputs.reverse.find? fun o => o.home == path

def isPackage (p : Program) (path : String) : Bool :=
  p.outputs.any fun o => Text.hasStart (path ++ ".") o.home

/-! ## Importing -/

def enclosing (path : String) : List String :=
  let segments := Text.split '.' path
  (List.range segments.length).map fun n => Text.join "." (segments.take (segments.length - n))

def initialNames (p : Program) (path : String) : Table Object :=
  let around := if p.isPackage path then path else (Text.partitionLast '.' path).1
  [("__name__", .value (.text path)), ("__doc__", .value .null),
    ("__package__", .value (.text around)), ("__loader__", .other "loader"),
    ("__spec__", .other "spec"), ("__builtins__", .other "builtins"),
    (Site.annotationsName, .other Site.annotationsName)] ++
  if p.isPackage path then [("__path__", .value (.list []))] else []

def runModule (h : Hooks) (id : Nat) (o : Output) : Running Unit := do
  let body ← match o.statements with
    | .ok body => pure body
    | .error cause => throw (.malformedSource cause)
  if let .expression (.literal (.text remark)) :: _ := body then
    Running.bindName id "__doc__" (.value (.text remark))
  let _ ← runAll h { home := id } body

def loadLibrary (path : String) : Running Nat :=
  match laterLibrary? path with
  | some library => Running.addModule library
  | none => throw (.missingModule path)

/-- Loads the module or package at a path. If it fails, its path is free again. -/
def loadModule (p : Program) (h : Hooks) (path : String) : Running Nat := do
  if (p.output? path).isNone && !p.isPackage path then return ← loadLibrary path
  let id ← Running.addModule
    { path, isPackage := p.isPackage path, names := p.initialNames path }
  if let some o := p.output? path then
    try runModule h id o
    catch fault => do
      Running.unload path
      throw fault
  return id

/-- The number of the first of some paths, each of which lies below the next; those that are not
    loaded are loaded from the outside in, and become attributes of what they lie below. -/
def requireChain (p : Program) (h : Hooks) : List String → Running Nat
  | [] => throw .emptyPath
  | path :: around => do
    if let some id ← Running.loaded? path then return id
    if around.isEmpty then return ← p.loadModule h path
    let outer ← p.requireChain h around
    if let some id ← Running.loaded? path then return id
    if !(← Running.moduleAt outer).isPackage then throw (.missingModule path)
    let id ← p.loadModule h path
    Running.bindName outer (Text.partitionLast '.' path).2 (.module id)
    return id

/-! ## Defaults -/

def companionPath (output : String) : String := Name.modulePath (Name.companion output)

def defaultAll (h : Hooks) (c : Object) : List Value → Running (List Value)
  | [] => pure []
  | v :: rest => do
    let v ← h.applyDefaults (.value v) c
    let rest ← defaultAll h c rest
    return v.toValue :: rest

def defaultEntries (h : Hooks) (c : Object) : List (Value × Value) → Running (List (Value × Value))
  | [] => pure []
  | (k, v) :: rest => do
    let key ← h.applyDefaults (.value k) c
    let value ← h.applyDefaults (.value v) c
    let rest ← defaultEntries h c rest
    return (key.toValue, value.toValue) :: rest

/-- Applies declared defaults: to the fields of records through their companions, and to all
    parts of containers. -/
def defaulted (h : Hooks) (o c : Object) : Running Object :=
  match o with
  | .value (.record cls fields) =>
    match cls.label with
    | .output => do
      let companion ← h.require (companionPath cls.name)
      call h (← attributeOf (.module companion) "apply_defaults") [.value (.record cls fields), c] []
    | _ => pure o
  | .value (.list items) => do return .value (.list (← defaultAll h c items))
  | .value (.tuple items) => do return .value (.tuple (← defaultAll h c items))
  | .value (.set items) => do
    return .value (.set (← Running.of (setItems (← defaultAll h c items))))
  | .value (.frozenset items) => do
    return .value (.frozenset (← Running.of (setItems (← defaultAll h c items))))
  | .value (.dict entries) => do
    return .value (.dict (← Running.of (dictEntries (← defaultEntries h c entries))))
  | o => pure o

/-! ## Running -/

/-- What running terms needs of the program, within a number of nested uses. -/
def hooks (p : Program) : Nat → Hooks
  | 0 => {
    require := fun _ => throw .endlessType
    invoke := fun _ _ => throw .endlessType
    applyDefaults := fun _ _ => throw .endlessType }
  | fuel + 1 => {
    require := fun path => p.requireChain (p.hooks fuel) (enclosing path)
    invoke := fun r args => invokeWith (p.hooks fuel) r args
    applyDefaults := fun o c => defaulted (p.hooks fuel) o c }

def importable (p : Program) : Nat :=
  (p.outputs.flatMap fun o => Text.split '.' o.home).length

/-- Nested uses that suffice for a value. Every module begins at most once on a way down, and
    defaults are applied to parts of the value only. -/
def fuelFor (p : Program) (v : Value) : Nat := p.importable + 3 * v.height + 8

def plainHooks (p : Program) : Hooks := p.hooks (p.fuelFor .null)

def importPath (p : Program) (path : String) : Running Nat :=
  if path = "" then throw .emptyPath
  else if Text.hasStart "." path then throw (.relativePath path)
  else p.plainHooks.require path

def applyDefaults (p : Program) (c : Context) (v : Value) : Running Value := do
  let o ← (p.hooks (p.fuelFor v)).applyDefaults (.value v) (.context c)
  Running.of o.data

/-! ## Companions -/

def companionFunction (p : Program) (output name : String) : Running Object := do
  let id ← p.importPath (companionPath output)
  attributeOf (.module id) name

/-- A value with the defaults of the companion of an output applied. The companion is imported
    before the value is made. -/
def companionDefaults (p : Program) (output : String) (c : Context) (value : Running Value) :
    Running Value := do
  let apply ← p.companionFunction output "apply_defaults"
  let v ← value
  let o ← call (p.hooks (p.fuelFor v)) apply [.value v, .context c] []
  Running.of o.data

def generate (p : Program) (source : Source) (c : Context) : Running Strategy :=
  match source with
  | .routine r => do return (← p.plainHooks.invoke r [.context c]).toStrategy
  | .plain name => pure (.plain name)
  | .other => throw (.notCallable "nested")

def companionTree (p : Program) (output : String) (c : Context) (depth : Nat) : Running Tree := do
  let generator ← p.companionFunction output "get_generator"
  let o ← call p.plainHooks generator [.context c] []
  o.toStrategy.expand (fun _ => pure ()) p.generate depth

/-! ## Modules and their classes -/

def classOf (p : Program) (output : String) : Running Object := do
  let id ← p.importPath (Name.modulePath output)
  attributeOf (.module id) (Name.className output)

def dataOf (id : Nat) : List String → Running (List (String × Value))
  | [] => pure []
  | name :: rest => do
    let o ← attributeOf (.module id) name
    let v ← Running.of o.data
    let rest ← dataOf id rest
    return (name, v) :: rest

def annotatedValues (p : Program) (output : String) : Running (List (String × Value)) := do
  let id ← p.importPath (Name.modulePath output)
  dataOf id (← Running.moduleAt id).annotated

end Program
end IdlGen.Run
