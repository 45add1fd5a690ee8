import IdlGen.Name
import IdlGen.Schema.Basic
import IdlGen.Value.Equality

/-!
Reading a schema from its document. Types are primitive names, names of declarations, or
objects `list`, `set` and `map`; a literal `ref` object refers to a constant or an
enum member. Names are qualified with the schema's own module unless their first
segment is an include. Parts are read in a fixed order, and the first fault wins.
-/
namespace IdlGen.Schema

/-! ## Shapes of a document -/

def iterate : Value → Except Fault (List Value)
  | .list items => .ok items
  | .text s => .ok (s.toList.map fun c => .text (String.ofList [c]))
  | .dict entries => .ok (entries.map (·.1))
  | v => .error (.notIterable v)

def entriesOf : Value → Except Fault (List (Value × Value))
  | .dict entries => .ok entries
  | v => .error (.notAnObject v)

def required (raw : Value) (key : String) : Except Fault Value :=
  match raw with
  | .dict entries =>
    match Value.field? entries key with
    | some v => .ok v
    | none => .error (.missingKey (.text key))
  | v => .error (.notKeyed v)

def optional (entries : List (Value × Value)) (key : String) (absent : Value) : Value :=
  (Value.field? entries key).getD absent

def integer : Value → Except Fault Int
  | .int n => .ok n
  | .bool b => .ok (if b then 1 else 0)
  | .float x =>
    match x with
    | .nan => .error (.badNumber (.float x))
    | .infinity _ => .error (.infiniteNumber (.float x))
    | .finite .. => .ok (x.truncate?.getD 0)
  | .text s =>
    match readInteger? s with
    | some n => .ok n
    | none => .error (.badNumber (.text s))
  | v => .error (.notNumeric v)

/-! ## Names, types and literals -/

structure Home where
  module : Value
  includes : List Value

def Home.qualify (home : Home) : Value → Except Fault String
  | .text name =>
    let (first, rest) := Text.partition '.' name
    if rest != "" && home.includes.any (fun v => v.equal (.text first)) then .ok name
    else .ok (home.module.display ++ "." ++ name)
  | v => .error (.notText v)

def Home.type (home : Home) : Value → Except Fault FieldType
  | .text name =>
    match Primitive.ofName? name with
    | some p => .ok (.primitive p)
    | none => .ref <$> home.qualify (.text name)
  | .dict [(.text "list", inner)] => .list <$> home.type inner
  | .dict [(.text "set", inner)] => .set <$> home.type inner
  | .dict [(.text "map", .list [key, value])] => do
    let key ← home.type key
    let value ← home.type value
    return .map key value
  | raw => .error (.invalidType raw home.module)

mutual

/-- The literal that a value denotes: an object with the only key `ref` is a reference. -/
def Home.literal (home : Home) : Value → Except Fault Value
  | .dict [(.text "ref", target)] => .ref <$> home.qualify target
  | .dict entries => .dict <$> home.literalEntries entries
  | .list items => .list <$> home.literalItems items
  | v => .ok v

def Home.literalItems (home : Home) : List Value → Except Fault (List Value)
  | [] => .ok []
  | v :: rest => do
    let v ← home.literal v
    let rest ← home.literalItems rest
    return v :: rest

def Home.literalEntries (home : Home) : List (Value × Value) → Except Fault (List (Value × Value))
  | [] => .ok []
  | (k, v) :: rest => do
    let v ← home.literal v
    let rest ← home.literalEntries rest
    return (k, v) :: rest

end

/-! ## Declarations -/

def Home.fieldKey (home : Home) (entries : List (Value × Value)) (key : String) :
    Except Fault Value :=
  match Value.field? entries key with
  | some v => .ok v
  | none => .error (.fieldLacks home.module key)

def Home.field (home : Home) (raw : Value) : Except Fault Field := do
  let entries ← entriesOf raw
  let name ← home.fieldKey entries "name"
  let type ← home.type (← home.fieldKey entries "type")
  let given := optional entries "default" .null
  let default ← if given.isNull then pure .null else home.literal given
  return {
    id := optional entries "id" (.int 0)
    name
    type
    required := (optional entries "required" (.bool false)).truthy
    default }

def hasRepeat : List Value → Bool
  | [] => false
  | name :: rest => rest.any (fun other => name.same other) || hasRepeat rest

def Home.fields (home : Home) (raw : Value) : Except Fault (List Field) := do
  let fields ← (← iterate raw).mapM home.field
  let names := fields.map (·.name)
  match names.find? (fun name => !name.hashable) with
  | some name => throw (.unhashable name)
  | none =>
    if hasRepeat names then throw (.repeatedFields names home.module) else return fields

def Home.record (home : Home) (kind : RecordKind) (raw : Value) :
    Except Fault (String × Record) := do
  let key ← required raw "name"
  let name ← home.qualify key
  let entries ← entriesOf raw
  let fields ← home.fields (optional entries "fields" (.list []))
  return (key.display, { kind, name, fields })

def memberPairs : Value → Except Fault (List (List Value))
  | .dict entries => .ok (entries.map fun entry => [entry.1, entry.2])
  | raw => do (← iterate raw).mapM iterate

def member : List Value → Except Fault (String × Int)
  | [name, value] => do return (name.display, ← integer value)
  | parts => .error (.badPair parts.length)

def Home.enum (home : Home) (raw : Value) : Except Fault (String × Enum) := do
  let entries ← entriesOf raw
  let pairs ← memberPairs (optional entries "values" (.dict []))
  let key ← required raw "name"
  let name ← home.qualify key
  let values ← pairs.mapM member
  return (key.display, { name, values })

def Home.constant (home : Home) (raw : Value) : Except Fault (String × Constant) := do
  let name ← home.qualify (← required raw "name")
  let type ← home.type (← required raw "type")
  let value ← home.literal (← required raw "value")
  return (Name.last name, { name, type, value })

/-- The method that a value describes. No result, or `void`, is no result. -/
def Home.method (home : Home) (raw : Value) : Except Fault Method := do
  let entries ← entriesOf raw
  let name ← required raw "name"
  let params ← home.fields (optional entries "params" (.list []))
  let returns ← match optional entries "returns" .null with
    | .null => pure none
    | .text "void" => pure none
    | type => some <$> home.type type
  let throws ← home.fields (optional entries "throws" (.list []))
  let oneway := (optional entries "oneway" (.bool false)).truthy
  return { name, params, returns, throws, oneway }

def Home.service (home : Home) (raw : Value) : Except Fault (String × Service) := do
  let entries ← entriesOf raw
  let parent := optional entries "extends" .null
  let key ← required raw "name"
  let name ← home.qualify key
  let methods ← (← iterate (optional entries "functions" (.list []))).mapM home.method
  let extends? ← if parent.truthy then some <$> home.qualify parent else pure none
  return (key.display, { name, methods, extends? })

def Home.typedef (home : Home) (entry : Value × Value) : Except Fault (String × Typedef) := do
  let name ← home.qualify entry.1
  let type ← home.type entry.2
  return (entry.1.display, { name, type })

/-! ## Whole documents -/

def tableOf {α : Type} (read : Value → Except Fault (String × α)) (raw : Value) :
    Except Fault (Table α) := do
  (← iterate raw).foldlM (fun table item => do
    let (key, entity) ← read item
    return table.put key entity) []

def Home.declarations (home : Home) (entries : List (Value × Value)) (schema : Schema) :
    Except Fault Schema := do
  let typedefs ← (← entriesOf (optional entries "typedefs" (.dict []))).foldlM
    (fun (table : Table Typedef) entry => do
      let (key, entity) ← home.typedef entry
      return table.put key entity) []
  let listed (key : String) : Value := optional entries key (.list [])
  let structs ← tableOf (home.record .struct) (listed "structs")
  let unions ← tableOf (home.record .union) (listed "unions")
  let exceptions ← tableOf (home.record .exception) (listed "exceptions")
  let enums ← tableOf home.enum (listed "enums")
  let constants ← tableOf home.constant (listed "constants")
  let services ← tableOf home.service (listed "services")
  return { schema with typedefs, structs, unions, exceptions, enums, constants, services }

def moduleOf (entries : List (Value × Value)) (path : String) : Value :=
  let written := optional entries "module" .null
  if written.truthy then written
  else .text (Name.ofFileName (Path.withoutEnding (Path.fileName path)))

def load (document : Value) (path : String) : Except Fault Schema := do
  let entries ← entriesOf document
  let module := moduleOf entries path
  if !module.truthy then throw (.noModuleName path)
  let includes ← iterate (optional entries "includes" (.list []))
  let schema : Schema := {
    module
    path := optional entries "path" (.text (module.display ++ Name.schemaEnding))
    scope := optional entries "namespace" .null
    includes }
  match Home.declarations { module, includes } entries schema with
  | .ok schema => return schema
  | .error fault =>
    if fault.isShape then
      throw (.invalidSchema (if path = "" then module.display else path) fault)
    else throw fault

end IdlGen.Schema
