import IdlGen.Run.Object

/-!
How classes come into being: a class body binds and annotates names, its bases decide what
kind of class it becomes, and a decorator makes it a record class. Some names mean
something to every class, and cannot be used freely.
-/
namespace IdlGen.Run

structure Frame where
  className : String
  bindings : List (String × Object) := []
  annotated : Table (Option String) := []

def Frame.get? (f : Frame) (name : String) : Option Object := f.bindings.reverse.lookup name

/-! ## Record classes -/

def ClassBody.bindsAny (b : ClassBody) (names : List String) : Bool :=
  names.any fun name => (b.names.lookup name).isSome

/-- The attributes that a record class has whatever its body binds. -/
def classAttributes (className : String) (isException : Bool) : List (String × Value) :=
  let number (plain exception : Int) : Value := .int (if isException then exception else plain)
  [("__name__", .text className), ("__base__", .object "__base__"),
    ("__bases__", .object "__bases__"), ("__mro__", .object "__mro__"),
    ("__class__", .object "__class__"), ("__dataclass_params__", .object "__dataclass_params__"),
    ("__dataclass_fields__", .object "__dataclass_fields__"), ("__basicsize__", number 24 80),
    ("__itemsize__", number 0 0), ("__flags__", number 546320 1074288128),
    ("__weakrefoffset__", number 16 72), ("__dictoffset__", number (-48) 16)]

/-- What stands for a field in its class. -/
def ClassBody.fieldValue (b : ClassBody) (field : String) : Value :=
  ((classAttributes b.name b.isException).lookup field).getD ((b.names.lookup field).getD .null)

/-- Why instances of a record class cannot be made: what makes or describes them is hidden. -/
def ClassBody.obstacle? (b : ClassBody) (isFrozen : Bool) : Option Fault :=
  let makers := ["__init__", "__new__", "__post_init__", "__class__", "__getattribute__"]
  if b.bindsAny makers || (!isFrozen && b.bindsAny ["__setattr__"]) then
    some (.notCallable b.name)
  else if b.annotated.contains "__dataclass_fields__" then
    some (.missingAttribute "values")
  else none

def labelName : String := "THRIFT_NAME"

def ClassBody.recordClass (b : ClassBody) : RecordClass :=
  let hashable := !b.isException && !b.bindsAny ["__hash__"]
  match b.names.lookup labelName with
  | some (.text output) => { name := output, hashable }
  | some _ => { name := b.name, hashable, label := .hidden }
  | none => { name := b.name, hashable, label := .plain }

def ClassBody.requires (b : ClassBody) (field : String) : Bool :=
  (b.names.lookup field).isNone && (b.fieldValue field).isNull

/-- The record class of a body. What annotations name is looked up in the module of the class;
    fields that need a value come first; immutable classes define how attributes are set. -/
def RecordType.ofBody (isFrozen : Bool) (b : ClassBody) : Except Fault RecordType :=
  if b.namesOwn && b.bindsAny ["__module__"] then .error (.missingAttribute "__dict__")
  else if b.annotated.contains "__dict__" then .error (.mutableDefault "__dict__")
  else if (b.annotated.dropWhile b.requires).any b.requires then .error (.badClass b.name)
  else if isFrozen && b.bindsAny ["__setattr__", "__delattr__"] then .error (.badClass b.name)
  else .ok {
    cls := b.recordClass
    fields := b.annotated.map fun field => (field, b.fieldValue field)
    required := b.annotated.filter b.requires
    obstacle? := b.obstacle? isFrozen }

/-! ## Enum classes -/

def isBetween (underscores : String) (name : String) : Bool :=
  let marks := underscores.toList
  let inner := (name.toList.drop marks.length).take (name.length - 2 * marks.length)
  decide (2 * marks.length < name.length) && marks.isPrefixOf name.toList &&
    marks.isSuffixOf name.toList && inner.head? != some '_' && inner.getLast? != some '_'

def isPrivateTo (className name : String) : Bool :=
  let start := "_" ++ className ++ "__"
  decide (start.length < name.length) && Text.hasStart start name && !Text.hasEnding "__" name

/-- Names between single underscores that an enum class may bind. -/
def enumHooks : List String :=
  ["_order_", "_generate_next_value_", "_numeric_repr_", "_missing_", "_ignore_", "_iter_member_",
    "_iter_member_by_value_", "_iter_member_by_def_"]

def EnumType.bind (t : EnumType) (name : String) (o : Object) : Except Fault EnumType :=
  let plain (name : String) : EnumType :=
    { t with attributes := Table.put t.attributes name o.toValue }
  if isPrivateTo t.name name then .ok (plain name)
  else if isBetween "_" name then
    if !enumHooks.contains name then .error (.reservedMember name)
    else if name = "_ignore_" then .error (.notIterable o.toValue)
    else .ok (plain name)
  else if isBetween "__" name then .ok (plain (if name = "__order__" then "_order_" else name))
  else if t.members.any fun m => m.1 == name then .error (.repeatedMember name)
  else match o with
    | .value (.int n) => .ok { t with members := t.members ++ [(name, n)] }
    | _ => .ok (plain name)

/-- Names that make or look up members; no enum class with members can give them a value. -/
def memberMakers : List String :=
  ["__init__", "__new__", "__setattr__", "__getattr__", "__getattribute__"]

def EnumType.ofFrame (f : Frame) : Except Fault EnumType := do
  let t ← f.bindings.foldlM (fun t binding => t.bind binding.1 binding.2)
    { name := f.className, members := [] }
  if t.members.any fun m => m.1 == "mro" then throw (.reservedMember "mro")
  if (t.attributes.lookup "_order_").isSome then throw (.badClass f.className)
  if !t.members.isEmpty && memberMakers.any fun name => (t.attributes.lookup name).isSome then
    throw (.badClass f.className)
  return t

def EnumType.attribute? (t : EnumType) (name : String) : Option Object :=
  match t.ofName? name with
  | some v => some (.value v)
  | none =>
    if name = "__name__" then some (.value (.text t.name))
    else if ["__base__", "__bases__", "__class__", "__dict__", "__members__", "__mro__",
        "__new__"].contains name then some (.other name)
    else (t.attributes.lookup name).map Object.value

/-! ## Classes -/

def isProtocol : Object → Bool
  | .handler => true
  | .native .protocol => true
  | _ => false

def fixedNames : List String := ["__slots__", "__classcell__", "__qualname__"]

/-- The class that a body with some bases makes. Annotated names that `isClassVar` tells to
    belong to the class are not fields of its instances. -/
def makeClass (isClassVar : String → Bool) (bases : List Object) (f : Frame) :
    Except Fault Object := do
  let binds (names : List String) : Bool := names.any fun name => (f.get? name).isSome
  let body (isException : Bool) : Object := .classBody {
    name := f.className
    isException
    names := f.bindings.reverse.map fun binding => (binding.1, binding.2.toValue)
    annotated := (f.annotated.filter fun entry => !entry.2.any isClassVar).map (·.1)
    namesOwn := f.annotated.any fun entry => entry.2.isSome }
  let cls ← match bases with
    | [] => pure (body false)
    | [.native .exception] => pure (body true)
    | [.native .intEnum] => Object.enum <$> EnumType.ofFrame f
    | bases =>
      if bases.all isProtocol && !binds ["__orig_bases__"] then pure Object.handler
      else throw (.badClass f.className)
  if binds fixedNames then throw (.badClass f.className)
  return cls

end IdlGen.Run
