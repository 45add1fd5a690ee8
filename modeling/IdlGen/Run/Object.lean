import IdlGen.Code.Check
import IdlGen.Run.Support

/-!
Objects of a running program: values, strategies, contexts, classes, functions and modules.
Calling a class builds an instance or looks up a member.
-/
namespace IdlGen.Run

structure RecordType where
  cls : RecordClass
  fields : List (String × Value)
  /-- The fields for which a value has to be given. -/
  required : List String := []
  obstacle? : Option Fault := none
deriving Repr, Inhabited

/-- An enum class. Members with the number of an earlier one are other names for that one. -/
structure EnumType where
  name : String
  members : List (String × Int)
  attributes : List (String × Value) := []
deriving Repr, Inhabited

structure ClassBody where
  name : String
  isException : Bool
  names : List (String × Value)
  annotated : List String
  /-- Whether an annotation begins with a name of the module itself. -/
  namesOwn : Bool
deriving Repr, Inhabited

inductive Native where
  | dataclass
  | replace
  | classVar
  | protocol
  | intEnum
  /-- A base of enum classes without members. -/
  | enumBase
  | exception
  | float
  | set
  | frozenset
deriving DecidableEq, Repr, Inhabited

inductive Object where
  | value (v : Value)
  | strategy (s : Strategy)
  | context (c : Context)
  | record (t : RecordType)
  | enum (t : EnumType)
  | handler
  | classBody (b : ClassBody)
  | decorator (isFrozen : Bool)
  | routine (r : Routine)
  | draw (name : String)
  | support (name : String)
  | native (n : Native)
  | module (id : Nat)
  | other (name : String)
deriving Repr, Inhabited

/-! ## Record classes -/

def RecordType.description (t : RecordType) : Value := .record { name := "type" } t.fields

def RecordType.make (t : RecordType) (args : List Value) (given : List (String × Value)) :
    Except Fault Value := do
  if let some fault := t.obstacle? then throw fault
  let placed := (t.fields.map (·.1)).zip args
  if t.fields.length < args.length then throw (.unexpectedArgument t.cls.name)
  if let some field := given.find? fun field => (placed.lookup field.1).isSome then
    throw (.unexpectedArgument field.1)
  if let some field := t.required.find? fun field => ((placed ++ given).lookup field).isNone then
    throw (.unexpectedArgument field)
  return .record t.cls (← replaceFields t.fields (placed ++ given))

/-! ## Enum classes -/

def EnumType.distinctMembers (t : EnumType) : List (String × Int) :=
  t.members.foldl (fun kept m => if kept.any (fun k => k.2 == m.2) then kept else kept ++ [m]) []

def EnumType.ofNumber? (t : EnumType) (n : Int) : Option Value :=
  (t.members.find? fun m => m.2 == n).map fun m => .member t.name m.1 n

def EnumType.ofName? (t : EnumType) (name : String) : Option Value :=
  (t.members.find? fun m => m.1 == name).bind fun m => t.ofNumber? m.2

/-- The member that a value stands for. Without members a class cannot be called, and neither
    can one that handles missing members on its own and does not. -/
def EnumType.make (t : EnumType) (v : Value) : Except Fault Value :=
  match t.members.find? (fun m => v.equal (.int m.2)) with
  | some m => .ok (.member t.name m.1 m.2)
  | none =>
    if t.members.isEmpty || (t.attributes.lookup "_missing_").isSome then
      .error (.notCallable t.name)
    else .error (.notAMember v)

/-! ## Containers -/

def setItems (items : List Value) : Except Fault (List Value) :=
  match items.find? (fun v => !v.hashable) with
  | some v => .error (.unhashable v)
  | none => .ok (Value.distinct items)

def dictEntries (entries : List (Value × Value)) : Except Fault (List (Value × Value)) :=
  match entries.find? (fun entry => !entry.1.hashable) with
  | some entry => .error (.unhashable entry.1)
  | none => .ok (Value.distinctEntries entries)

/-! ## Objects as values and as strategies -/

namespace Object

/-- The object as part of a value. Classes of records show their fields; what else is no value
    is known by a name only. -/
def toValue : Object → Value
  | value v => v
  | record t => t.description
  | enum t => .object t.name
  | strategy _ => .object "strategy"
  | context _ => .object "context"
  | handler => .object "handler"
  | classBody b => .object b.name
  | decorator _ => .object "decorator"
  | routine _ => .object "function"
  | draw name => .object name
  | support name => .object name
  | native _ => .object "native"
  | module _ => .object "module"
  | other name => .object name

def data (o : Object) : Except Fault Value :=
  if o.toValue.isData then .ok o.toValue else .error (.notData o.toValue)

def toStrategy : Object → Strategy
  | strategy s => s
  | record t =>
    if t.cls.label = .plain then .held (.value t.description) else .held (.cls t.cls.shownName?)
  | enum t => .held (.members t.distinctMembers)
  | native .intEnum => .held (.members [])
  | native .enumBase => .held (.members [])
  | o => .held (.value o.toValue)

def context? : Object → Except Fault Context
  | context c => .ok c
  | _ => .error (.missingAttribute "size")

end Object

/-! ## Calls of library functions -/

def callStrategy (name : String) (args : List Object) (kwargs : List (String × Object)) : Strategy :=
  match name, args, kwargs with
  | "integers", [], [("min_value", .value (.int low)), ("max_value", .value (.int high))] =>
    .integers low high
  | "floats", [], [("allow_nan", .value (.bool nan)), ("allow_infinity", .value (.bool infinity))] =>
    .floats nan infinity
  | "text", [], [("max_size", .value (.int n))] => .text n
  | "binary", [], [("max_size", .value (.int n))] => .binary n
  | "one_of", options, [] => .oneOf (options.map Object.toStrategy)
  | "just", [.value v], [] => .just v
  | "sampled_from", [.enum t], [] => .sampledFrom t.name t.distinctMembers
  | "builds", [.record t], fields =>
    if t.cls.label = .plain then
      .other name [(Object.record t).toStrategy] (fields.map fun f => (f.1, f.2.toStrategy))
    else .builds t.cls (fields.map fun f => (f.1, f.2.toStrategy))
  | name, [], [] => .plain name
  | name, args, kwargs =>
    .other name (args.map Object.toStrategy) (kwargs.map fun arg => (arg.1, arg.2.toStrategy))

def Object.source : Object → Source
  | routine r => .routine r
  | _ => .other

def supportStrategy? (name : String) (args : List Object) : Option (Except Fault Strategy) :=
  let single (make : Strategy → Context → Strategy) (e c : Object) : Except Fault Strategy := do
    return make e.toStrategy (← c.context?)
  let double (make : Strategy → Strategy → Context → Strategy) (k v c : Object) :
      Except Fault Strategy := do
    return make k.toStrategy v.toStrategy (← c.context?)
  match name, args with
  | "optional", [e, c] => some (single optional e c)
  | "list_of", [e, c] => some (single listOf e c)
  | "set_of", [e, c] => some (single setOf e c)
  | "tuple_of", [e, c] => some (single tupleOf e c)
  | "frozenset_of", [e, c] => some (single frozensetOf e c)
  | "unique_list_of", [e, c] => some (single distinctListOf e c)
  | "dict_of", [k, v, c] => some (double dictOf k v c)
  | "frozen_items_of", [k, v, c] => some (double frozenItemsOf k v c)
  | "pairs_of", [k, v, c] => some (double pairsOf k v c)
  | "nested", [g, c] => some (do return nested g.source (← c.context?))
  | _, _ => none

def callUnionDefault (union : Object) (defaults : List (String × Object)) : Except Fault Object :=
  match union with
  | .value (.record cls fields) => do
    match ← unionDefault? fields (defaults.map fun d => (d.1, d.2.toValue)) with
    | none => return union
    | some fields => return .value (.record cls fields)
  | _ => if defaults.isEmpty then .ok union else .error (.notCallable "union_default")

def callSupport (name : String) (args : List Object) (kwargs : List (String × Object)) :
    Except Fault Object :=
  match supportStrategy? name args, name, args with
  | some s, _, _ => Object.strategy <$> s
  | none, "default_if_absent", [v, d] =>
    match v, d with
    | .value v, .value d => .ok (.value (defaultIfAbsent v d))
    | .value v, d => .ok (if v.isAbsent then d else .value v)
    | o, _ => .ok o
  | none, "union_default", [union] => callUnionDefault union kwargs
  | none, name, _ => .error (.notCallable name)

/-! ## Calls of built-ins -/

def numberOfText? (s : String) : Option Binary64 :=
  match s with
  | "inf" => some (.infinity false)
  | "-inf" => some (.infinity true)
  | "nan" => some .nan
  | _ => none

def itemsOf : Value → Option (List Value)
  | .list items | .tuple items | .set items | .frozenset items => some items
  | .dict entries => some (entries.map (·.1))
  | _ => none

def callNative (n : Native) (args : List Object) (kwargs : List (String × Object)) :
    Except Fault Object :=
  let items (make : List Value → Value) : Except Fault Object :=
    match args with
    | [] => .ok (.value (make []))
    | [.value v] =>
      match itemsOf v with
      | some items => do return .value (make (← setItems items))
      | none => .error (.notIterable v)
    | _ => .error (.notCallable "set")
  match n, args, kwargs with
  | .float, [.value (.text s)], [] =>
    match numberOfText? s with
    | some x => .ok (.value (.float x))
    | none => .error (.badNumber (.text s))
  | .set, _, [] => items .set
  | .frozenset, _, [] => items .frozenset
  | .replace, [.value (.record cls fields)], kwargs => do
    let fields ← replaceFields fields (kwargs.map fun arg => (arg.1, arg.2.toValue))
    return .value (.record cls fields)
  | _, _, _ => .error (.notCallable "call")

end IdlGen.Run
