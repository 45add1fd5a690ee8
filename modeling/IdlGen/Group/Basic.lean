import IdlGen.Name
import IdlGen.Schema.Basic
import IdlGen.Value.Equality

/-!
Groups of schemas that share their output names. Schemas are known by module; a module
that is added again keeps its place and takes the new schema. Names are resolved
across the group, through chains of aliases, to declarations.
-/
namespace IdlGen

structure Group where
  schemas : List (Value × Schema) := []
  current : Option Value := none
deriving Repr, Inhabited

namespace Group

/-! ## Members -/

def schema? (g : Group) (module : Value) : Option Schema :=
  (g.schemas.find? fun entry => entry.1.same module).map (·.2)

def schemaNamed? (g : Group) (module : String) : Option Schema := g.schema? (.text module)

def add (g : Group) (s : Schema) : Except Fault Group :=
  if !s.module.hashable then .error (.unhashable s.module)
  else if (g.schema? s.module).isSome then
    .ok { g with schemas := g.schemas.map fun entry =>
      if entry.1.same s.module then (entry.1, s) else entry }
  else .ok { g with schemas := g.schemas ++ [(s.module, s)] }

def ofSchemas (schemas : List Schema) : Except Fault Group := schemas.foldlM add {}

def seenFrom (g : Group) (module : Value) : Group := { g with current := some module }

/-! ## Output names -/

def scopePrefix : Option Schema → Except Fault String
  | none => .ok ""
  | some s =>
    if !s.scope.truthy then .ok ""
    else match s.scope with
      | .text scope => .ok (Text.join "." ((Text.split '.' scope).map Name.camelize) ++ ".")
      | v => .error (.notText v)

def constantsOutput (g : Group) (module : Value) : Except Fault String := do
  if !module.hashable then throw (.unhashable module)
  let scope ← scopePrefix (g.schema? module)
  match module with
  | .text name => return scope ++ Name.camelize name
  | v => throw (.notText v)

def outputName (g : Group) (name : String) : Except Fault String := do
  let (module, rest) ← Name.split name
  return (← scopePrefix (g.schemaNamed? module)) ++ Name.camelize rest

def currentConstantsOutput (g : Group) : Except Fault String :=
  match g.current with
  | none => .error .noCurrentModule
  | some module => g.constantsOutput module

/-- Whether a constant of a qualified name is declared by the current module, and not taken over
    from an include. -/
def owns (g : Group) (name : String) : Except Fault Bool := do
  let (module, _) ← Name.split name
  return match g.current with
    | some current => current.equal (.text module)
    | none => false

/-! ## Resolution -/

def resolve (g : Group) (name : String) : Except Fault Entity := do
  let (module, rest) ← Name.split name
  match (g.schemaNamed? module).bind (·.find? rest) with
  | some entity => return entity
  | none => throw (.unresolved name)

/-- What a type is once its aliases are followed: a type that is no reference, or a declaration
    that is no alias. -/
inductive Resolved where
  | primitive (p : Primitive)
  | list (element : FieldType)
  | set (element : FieldType)
  | map (key value : FieldType)
  | record (r : Record)
  | enum (e : Enum)
  | constant (c : Constant)
  | service (s : Service)
deriving Repr, Inhabited

def aliases (g : Group) : List Typedef := g.schemas.flatMap fun entry => entry.2.typedefs.values

def aliasCount (g : Group) : Nat := g.aliases.length

def follow (g : Group) : Nat → List String → FieldType → Except Fault Resolved
  | _, _, .primitive p => .ok (.primitive p)
  | _, _, .list element => .ok (.list element)
  | _, _, .set element => .ok (.set element)
  | _, _, .map key value => .ok (.map key value)
  | fuel, seen, .ref name => do
    if seen.contains name then throw (.aliasCycle name)
    match ← g.resolve name with
    | .record r => return .record r
    | .enum e => return .enum e
    | .constant c => return .constant c
    | .service s => return .service s
    | .typedef t =>
      match fuel with
      | 0 => throw (.aliasCycle name)
      | fuel + 1 => g.follow fuel (name :: seen) t.type

/-- What a type is once its aliases are followed. Every step passes another alias, so the
    number of aliases bounds the chain. -/
def resolveType (g : Group) (type : FieldType) : Except Fault Resolved :=
  g.follow (g.aliasCount + 1) [] type

inductive Referent where
  | constant (c : Constant)
  | member (e : Enum) (name : String)
deriving Repr, Inhabited

/-- The constant or enum member of a qualified name. A constant wins over a member. -/
def resolveValue (g : Group) (name : String) : Except Fault Referent := do
  let (module, rest) ← Name.split name
  match (g.schemaNamed? module).bind (·.constants.get? rest) with
  | some c => return .constant c
  | none =>
    let (owner, member) := Text.partitionLast '.' rest
    if owner = "" then throw (.unresolvedValue name)
    match ← g.resolve (module ++ "." ++ owner) with
    | .enum e =>
      if e.values.any (fun value => value.1 == member) then return .member e member
      else throw (.unresolvedValue name)
    | _ => throw (.unresolvedValue name)

end Group
end IdlGen
