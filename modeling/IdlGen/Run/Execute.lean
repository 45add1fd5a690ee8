import IdlGen.Run.Eval

/-!
Running statements. A module binds its names as it runs, so that others which it imports see
what it has bound so far; a class body collects its names until the class is made.
-/
namespace IdlGen.Run

open Code

structure Site where
  home : Nat
  frame? : Option Frame := none

namespace Site

def scope (s : Site) : Scope :=
  { home := s.home, inner := (s.frame?.map fun f => f.bindings.reverse).getD [] }

def nameHere (s : Site) (name : String) : String :=
  nameWithin (s.frame?.map (·.className)) name

def bind (s : Site) (name : String) (o : Object) : Running Site :=
  match s.frame? with
  | none => do
    Running.bindName s.home (s.nameHere name) o
    return s
  | some f =>
    pure { s with frame? := some { f with bindings := f.bindings ++ [(s.nameHere name, o)] } }

def annotationsName : String := "__annotations__"

def hidesAnnotations (s : Site) : Running Bool := do
  let bound? ← match s.frame? with
    | none => do pure ((← Running.moduleAt s.home).names.get? annotationsName)
    | some f => pure (f.get? annotationsName)
  return match bound? with
    | none => false
    | some (.other name) => name != annotationsName
    | some _ => true

def annotate (s : Site) (name : String) (leading? : Option String) : Running Site := do
  if ← s.hidesAnnotations then throw (.notKeyed .null)
  match s.frame? with
  | none =>
    Running.noteAnnotation s.home (s.nameHere name)
    return s
  | some f =>
    return { s with frame? := some { f with annotated := f.annotated.put (s.nameHere name) leading? } }

end Site

/-! ## Targets -/

def assignTo (h : Hooks) (s : Site) (o : Object) : Term → Running Site
  | .name id => s.bind id o
  | .attr value name => do
    match ← eval h s.scope value with
    | .module id =>
      Running.bindName id name o
      return s
    | _ => throw (.missingAttribute name)
  | .item container keys => do
    let _ ← eval h s.scope container
    let _ ← evalAll h s.scope keys
    throw (.notCallable "item")
  | _ => throw (.notIterable o.toValue)

def assignToAll (h : Hooks) (o : Object) : Site → List Term → Running Site
  | s, [] => pure s
  | s, t :: rest => do assignToAll h o (← assignTo h s o t) rest

/-! ## Imports -/

def importedName (h : Hooks) (path name : String) : Running Object := do
  let id ← h.require path
  match (← Running.moduleAt id).attribute? name with
  | some o => return o
  | none => throw (.missingExport name)

def importModule (h : Hooks) (s : Site) (path : String) (short? : Option String) :
    Running Site := do
  let id ← h.require path
  match short? with
  | some short => s.bind short (.module id)
  | none =>
    let (first, _) := Text.partition '.' path
    s.bind first (.module (← h.require first))

/-! ## Classes -/

/-- Whether a name belongs to the class by its annotation: the annotation begins with a name
    that means so in the module. -/
def classVarTest (home : Nat) : Running (String → Bool) := do
  let names := (← Running.moduleAt home).names
  return fun leading => match names.get? leading with
    | some (.native .classVar) => true
    | _ => false

def applyDecorators (h : Hooks) (cls : Object) : List Object → Running Object
  | [] => pure cls
  | decorator :: rest => do call h decorator [← applyDecorators h cls rest] []

/-! ## Statements -/

mutual

def runStatement (h : Hooks) (s : Site) : Statement → Running Site
  | .expression value => do
    let _ ← eval h s.scope value
    return s
  | .assign targets value => do assignToAll h (← eval h s.scope value) s targets
  | .annotate target isBare leading? value? => do
    let s ← match value? with
      | some value => assignTo h s (← eval h s.scope value) target
      | none => pure s
    match isBare, target with
    | true, .name id => s.annotate id leading?
    | _, _ => return s
  | .importModule path short? => importModule h s path short?
  | .importFrom path name short? => do
    let o ← importedName h path name
    s.bind (short?.getD name) o
  | .classDef name decorators bases body => do
    let decorators ← evalAll h s.scope decorators
    let bases ← evalAll h s.scope bases
    let inner ← runAll h { home := s.home, frame? := some { className := name } } body
    let cls ← Running.of (makeClass (← classVarTest s.home) bases
      (inner.frame?.getD { className := name }))
    s.bind name (← applyDecorators h cls decorators)
  | .function name decorators params body => do
    let decorators ← evalAll h s.scope decorators
    let routine : Object := .routine { home := s.home, params := params.map (·.name), body }
    s.bind name (← applyDecorators h routine decorators)
  | .branch condition yes no => do
    if (← eval h s.scope condition).toValue.truthy then runAll h s yes else runAll h s no
  | .result _ => pure s
  | .pass => pure s

def runAll (h : Hooks) (s : Site) : List Statement → Running Site
  | [] => pure s
  | statement :: rest => do
    let s ← runStatement h s statement
    runAll h s rest

end

/-! ## Functions -/

def resultOf : List Statement → Option Term
  | [] => none
  | .result value? :: _ => value?
  | _ :: rest => resultOf rest

def invokeWith (h : Hooks) (r : Routine) (args : List Object) : Running Object := do
  if r.params.length ≠ args.length then throw (.notCallable "function")
  match resultOf r.body with
  | some t => eval h { home := r.home, inner := r.params.zip args } t
  | none => return .value .null

end IdlGen.Run
