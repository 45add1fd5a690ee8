import IdlGen.Run.Class
import IdlGen.Run.Machine

/-!
Running terms. Names are looked up among the parameters or in the class body, then in the
module, then among the built-ins. Arguments are evaluated before a call is made.
-/
namespace IdlGen.Run

open Code

/-! ## Names -/

def otherBuiltins : List String :=
  ["ArithmeticError", "AssertionError", "AttributeError", "BaseException", "BaseExceptionGroup",
    "BlockingIOError", "BrokenPipeError", "BufferError", "BytesWarning", "ChildProcessError",
    "ConnectionAbortedError", "ConnectionError", "ConnectionRefusedError", "ConnectionResetError",
    "DeprecationWarning", "EOFError", "Ellipsis", "EncodingWarning", "EnvironmentError",
    "ExceptionGroup", "FileExistsError", "FileNotFoundError", "FloatingPointError",
    "FutureWarning", "GeneratorExit", "IOError", "ImportError", "ImportWarning",
    "IndentationError", "IndexError", "InterruptedError", "IsADirectoryError", "KeyError",
    "KeyboardInterrupt", "LookupError", "MemoryError", "ModuleNotFoundError", "NameError",
    "NotADirectoryError", "NotImplemented", "NotImplementedError", "OSError", "OverflowError",
    "PendingDeprecationWarning", "PermissionError", "ProcessLookupError", "RecursionError",
    "ReferenceError", "ResourceWarning", "RuntimeError", "RuntimeWarning", "StopAsyncIteration",
    "StopIteration", "SyntaxError", "SyntaxWarning", "SystemError", "SystemExit", "TabError",
    "TimeoutError", "TypeError", "UnboundLocalError", "UnicodeDecodeError", "UnicodeEncodeError",
    "UnicodeError", "UnicodeTranslateError", "UnicodeWarning", "UserWarning", "ValueError",
    "Warning", "ZeroDivisionError", "__build_class__", "__import__", "abs", "aiter", "all",
    "anext", "any", "ascii", "bin", "bool", "breakpoint", "bytearray", "bytes", "callable", "chr",
    "classmethod", "compile", "complex", "copyright", "credits", "delattr", "dict", "dir",
    "divmod", "enumerate", "eval", "exec", "exit", "filter", "format", "getattr", "globals",
    "hasattr", "hash", "help", "hex", "id", "input", "int", "isinstance", "issubclass", "iter",
    "len", "license", "list", "locals", "map", "max", "memoryview", "min", "next", "object",
    "oct", "open", "ord", "pow", "print", "property", "quit", "range", "repr", "reversed",
    "round", "setattr", "slice", "sorted", "staticmethod", "str", "sum", "super", "tuple", "type",
    "vars", "zip"]

def builtin? (name : String) : Option Object :=
  match name with
  | "float" => some (.native .float)
  | "set" => some (.native .set)
  | "frozenset" => some (.native .frozenset)
  | "Exception" => some (.native .exception)
  | "__debug__" => some (.value (.bool true))
  | name => if otherBuiltins.contains name then some (.other name) else none

structure Scope where
  home : Nat
  inner : List (String × Object) := []

def Scope.name (s : Scope) (id : String) : Running Object := do
  let globals := (← Running.moduleAt s.home).names
  match (s.inner.lookup id <|> globals.get? id <|> builtin? id) with
  | some o => return o
  | none => throw (.unboundName id)

/-! ## Attributes -/

def Module.attribute? (m : Module) (name : String) : Option Object :=
  if name = "__class__" || name = "__dict__" then some (.other name)
  else match m.names.get? name with
    | some o => some o
    | none =>
      if m.path = strategiesPath && !Text.hasStart "__" name then some (.draw name) else none

def Context.attribute? (c : Context) (name : String) : Option Object :=
  match name with
  | "size" => some (.value (.int c.size))
  | "exhausted" => some (.value (.bool c.exhausted))
  | "depth" => some (.value (.int c.depth))
  | "max_depth" => some (.value (.int c.maxDepth))
  | "max_size" => some (.value (.int c.maxSize))
  | _ => none

def attributeOf (o : Object) (name : String) : Running Object := do
  let found? ← match o with
    | .module id => do pure ((← Running.moduleAt id).attribute? name)
    | .enum t => pure (t.attribute? name)
    | .context c => pure (c.attribute? name)
    | .value (.record _ fields) => pure ((fields.lookup name).map Object.value)
    | .record t => pure ((t.fields.lookup name).map Object.value)
    | _ => pure none
  match found? with
  | some o => return o
  | none => throw (.missingAttribute name)

/-! ## Calls -/

structure Hooks where
  require : String → Running Nat
  invoke : Routine → List Object → Running Object
  applyDefaults : Object → Object → Running Object

def decorate (isFrozen : Bool) (b : ClassBody) : Except Fault Object :=
  Object.record <$> RecordType.ofBody isFrozen b

def call (h : Hooks) (func : Object) (args : List Object) (kwargs : List (String × Object)) :
    Running Object :=
  match func, args, kwargs with
  | .draw name, args, kwargs => pure (.strategy (callStrategy name args kwargs))
  | .support "apply_defaults", [v, c], [] => h.applyDefaults v c
  | .support name, args, kwargs => Running.of (callSupport name args kwargs)
  | .native .dataclass, [.classBody b], [] => Running.of (decorate false b)
  | .native .dataclass, [], [("frozen", .value (.bool isFrozen))] => pure (.decorator isFrozen)
  | .native n, args, kwargs => Running.of (callNative n args kwargs)
  | .decorator isFrozen, [.classBody b], [] => Running.of (decorate isFrozen b)
  | .record t, args, kwargs =>
    Running.of (Object.value <$>
      t.make (args.map Object.toValue) (kwargs.map fun arg => (arg.1, arg.2.toValue)))
  | .enum t, [.value v], [] => Running.of (Object.value <$> t.make v)
  | .enum t, [], [("value", .value v)] => Running.of (Object.value <$> t.make v)
  | .routine r, args, [] => h.invoke r args
  | _, _, _ => throw (.notCallable "call")

/-! ## Terms -/

mutual

def eval (h : Hooks) (s : Scope) : Term → Running Object
  | .name id => s.name id
  | .attr value name => do attributeOf (← eval h s value) name
  | .literal v => pure (.value v)
  | .list items => do return .value (.list ((← evalAll h s items).map Object.toValue))
  | .tuple items => do return .value (.tuple ((← evalAll h s items).map Object.toValue))
  | .set items => do
    let items ← evalAll h s items
    return .value (.set (← Running.of (setItems (items.map Object.toValue))))
  | .dict entries => do
    return .value (.dict (← Running.of (dictEntries (← evalEntries h s entries))))
  | .call func args kwargs => do
    let func ← eval h s func
    let args ← evalAll h s args
    call h func args (← evalKeywords h s kwargs)
  | .item container keys => do
    let _ ← eval h s container
    let _ ← evalAll h s keys
    throw (.notCallable "item")
  | .choice yes condition no => do
    if (← eval h s condition).toValue.truthy then eval h s yes else eval h s no
  | .operation symbol parts => do
    let _ ← evalAll h s parts
    throw (.notCallable symbol)

def evalAll (h : Hooks) (s : Scope) : List Term → Running (List Object)
  | [] => pure []
  | t :: rest => do
    let o ← eval h s t
    let rest ← evalAll h s rest
    return o :: rest

def evalEntries (h : Hooks) (s : Scope) : List (Term × Term) → Running (List (Value × Value))
  | [] => pure []
  | (k, v) :: rest => do
    let key ← eval h s k
    let value ← eval h s v
    let rest ← evalEntries h s rest
    return (key.toValue, value.toValue) :: rest

def evalKeywords (h : Hooks) (s : Scope) : List (String × Term) → Running (List (String × Object))
  | [] => pure []
  | (name, t) :: rest => do
    let o ← eval h s t
    let rest ← evalKeywords h s rest
    return (name, o) :: rest

end

end IdlGen.Run
