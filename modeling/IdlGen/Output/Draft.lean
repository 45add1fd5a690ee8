import IdlGen.Output.Basic

/-!
Drafts of outputs. Expressions and annotations go through the draft, which takes down the
imports that they need in the module of the output.
-/
namespace IdlGen

structure Draft where
  group : Group
  output : Output

/-- A step that works on a draft. What it takes down before a failure stays. -/
abbrev Drafting := ExceptT Fault (StateM Draft)

namespace Draft

/-- The first line of documentation of an output, with the schema's path if it has one. -/
def docstring (path : Value) : String :=
  if path.truthy then
    "Autogenerated by thrift-generator from `" ++ path.display ++ "`. Do not edit."
  else "Autogenerated by thrift-generator. Do not edit."

def start (group : Group) (name generator : String) (kind : OutputKind) (path : Value) : Draft :=
  { group, output := { name, kind, generator, docstring := docstring path } }

def addLine (lines : List String) (line : String) : List String :=
  if lines.contains line then lines else lines ++ [line]

def addImport (d : Draft) (line : String) : Draft :=
  { d with output := { d.output with imports := addLine d.output.imports line } }

def addTypeImport (d : Draft) (line : String) : Draft :=
  { d with output := { d.output with typeImports := addLine d.output.typeImports line } }

def add (d : Draft) (declaration : Declaration) : Draft :=
  { d with output := { d.output with body := d.output.body ++ [declaration] } }

def addExpr (d : Draft) (e : Expr) : Draft :=
  (Expr.importLines (some d.output.home) [e]).foldl addImport d

def addClasses (d : Draft) (refs : List Ref) : Draft :=
  (refs.filterMap (Ref.importLine? (some d.output.home))).foldl addTypeImport d

end Draft

namespace Drafting

def ofExcept {α : Type} (result : Except Fault α) : Drafting α := ExceptT.mk (pure result)

def addImport (line : String) : Drafting Unit := modify (Draft.addImport · line)

def add (declaration : Declaration) : Drafting Unit := modify (Draft.add · declaration)

def uses (e : Expr) : Drafting Expr := do
  modify (Draft.addExpr · e)
  return e

def source (e : Expr) (level : Int) : Drafting String := do
  let e ← uses e
  let d ← get
  ofExcept (e.source (some d.output.home) level)

def annotate (type : FieldType) (frozen : Bool) : Drafting TypeHint := do
  let d ← get
  let trail := d.group.hint type frozen
  modify (Draft.addClasses · trail.notes)
  ofExcept trail.outcome

def attributes (fields : List Field) : Drafting (List Attribute) :=
  fields.mapM fun field => do
    return { name := Name.attributeName field.name, hint := ← annotate field.type false }

def run (d : Draft) (steps : Drafting Unit) : Except Fault Output :=
  match StateT.run (ExceptT.run steps) d with
  | (.ok (), d) => .ok d.output
  | (.error fault, _) => .error fault

end Drafting
end IdlGen
