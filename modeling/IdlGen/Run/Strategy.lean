import IdlGen.Code.Term
import IdlGen.Fault
import IdlGen.Run.Context

/-!
Strategies as data: what a companion asks to be drawn. The strategy of a nested record is
deferred; expanding a strategy follows the deferred ones to a given depth and gives
a tree of calls.
-/
namespace IdlGen.Run

inductive Distinction where
  | whole
  | first
deriving DecidableEq, Repr, Inhabited

inductive Conversion where
  | toTuple
  | toFrozenItems
deriving DecidableEq, Repr, Inhabited

structure Routine where
  home : Nat
  params : List String
  body : List Code.Statement
deriving Repr, Inhabited

inductive Source where
  | routine (r : Routine)
  | plain (name : String)
  | other
deriving Repr, Inhabited

inductive Held where
  | value (v : Value)
  | cls (name : Option String)
  | members (ms : List (String × Int))
deriving Repr, Inhabited

inductive Strategy where
  /-- A strategy without arguments. -/
  | plain (name : String)
  | integers (low high : Int)
  | floats (nan infinity : Bool)
  | text (maxSize : Int)
  | binary (maxSize : Int)
  | lists (element : Strategy) (maxSize : Int)
  | distinctLists (element : Strategy) (maxSize : Int) (distinction : Distinction)
  | sets (element : Strategy) (maxSize : Int)
  | frozensets (element : Strategy) (maxSize : Int)
  | dictionaries (key value : Strategy) (maxSize : Int)
  | tuples (first second : Strategy)
  | oneOf (options : List Strategy)
  | just (value : Value)
  | sampledFrom (owner : String) (members : List (String × Int))
  | builds (cls : RecordClass) (fields : List (String × Strategy))
  | converted (source : Strategy) (how : Conversion)
  | deferred (source : Source) (context : Context)
  | held (what : Held)
  /-- A strategy with arguments of another form. -/
  | other (name : String) (args : List Strategy) (kwargs : List (String × Strategy))
deriving Repr, Inhabited

/-! ## Samples -/

def Conversion.apply : Conversion → Value → Value
  | .toTuple, .list items => .tuple items
  | .toFrozenItems, .dict entries =>
    .frozenset (entries.map fun entry => .tuple [entry.1, entry.2])
  | _, v => v

def Distinction.key : Distinction → Value → String
  | .first, .tuple (v :: _) => v.literal
  | _, v => v.literal

def Strategy.sample : Strategy → Value
  | dictionaries .. => .dict [(.int 1, .int 2)]
  | _ => .list [.int 1, .int 2]

def Strategy.sampleItem : Strategy → Value
  | tuples .. => .tuple [.int 1, .text "a"]
  | _ => .text "a"

/-! ## Trees -/

inductive Tree where
  | call (name : String) (args : List Tree) (kwargs : List (String × Tree))
  | converted (of : Tree) (sample : Value)
  | deferred (of : Option Tree)
  | value (v : Value)
  | cls (name : Option String)
  | members (ms : List (String × Int))
deriving Repr, Inhabited

def sizeArgument (key : String) (n : Int) : String × Tree := (key, .value (.int n))

variable {m : Type → Type} [Monad m] [MonadExceptOf Fault m]

def dataTree (v : Value) : m Tree := if v.isData then pure (.value v) else throw (.notData v)

def Held.tree : Held → m Tree
  | value v => dataTree v
  | cls name => pure (.cls name)
  | members ms => pure (.members ms)

mutual

def Strategy.tree (follow : Source → Context → m (Option Tree)) :
    Strategy → m Tree
  | plain name => return .call name [] []
  | integers low high =>
    return .call "integers" [] [sizeArgument "min_value" low, sizeArgument "max_value" high]
  | floats nan infinity =>
    return .call "floats" []
      [("allow_nan", .value (.bool nan)), ("allow_infinity", .value (.bool infinity))]
  | text maxSize => return .call "text" [] [sizeArgument "max_size" maxSize]
  | binary maxSize => return .call "binary" [] [sizeArgument "max_size" maxSize]
  | lists element maxSize => do
    return .call "lists" [← element.tree follow] [sizeArgument "max_size" maxSize]
  | distinctLists element maxSize distinction => do
    return .call "lists" [← element.tree follow]
      [sizeArgument "max_size" maxSize,
        ("unique_by", .value (.text (distinction.key element.sampleItem)))]
  | sets element maxSize => do
    return .call "sets" [← element.tree follow] [sizeArgument "max_size" maxSize]
  | frozensets element maxSize => do
    return .call "frozensets" [← element.tree follow] [sizeArgument "max_size" maxSize]
  | dictionaries key value maxSize => do
    let key ← key.tree follow
    let value ← value.tree follow
    return .call "dictionaries" [key, value] [sizeArgument "max_size" maxSize]
  | tuples first second => do
    let first ← first.tree follow
    let second ← second.tree follow
    return .call "tuples" [first, second] []
  | oneOf options => do return .call "one_of" (← Strategy.trees follow options) []
  | just v => do return .call "just" [← dataTree v] []
  | sampledFrom _ members => return .call "sampled_from" [.members members] []
  | builds cls fields => do
    return .call "builds" [.cls cls.shownName?] (← Strategy.fieldTrees follow fields)
  | converted source how => do
    return .converted (← source.tree follow) (how.apply source.sample)
  | deferred source context => do return .deferred (← follow source context)
  | held what => what.tree
  | other name args kwargs => do
    let args ← Strategy.trees follow args
    return .call name args (← Strategy.fieldTrees follow kwargs)

def Strategy.trees (follow : Source → Context → m (Option Tree)) :
    List Strategy → m (List Tree)
  | [] => return []
  | s :: rest => do
    let tree ← s.tree follow
    let rest ← Strategy.trees follow rest
    return tree :: rest

def Strategy.fieldTrees (follow : Source → Context → m (Option Tree)) :
    List (String × Strategy) → m (List (String × Tree))
  | [] => return []
  | (name, s) :: rest => do
    let tree ← s.tree follow
    let rest ← Strategy.fieldTrees follow rest
    return (name, tree) :: rest

end

/-- The tree of a strategy with deferred strategies expanded `depth` levels deep; `visit` sees
    the contexts in which deferred strategies are expanded. -/
def Strategy.expand (visit : Context → m Unit) (generate : Source → Context → m Strategy) :
    Nat → Strategy → m Tree
  | 0, s => s.tree fun _ _ => pure none
  | depth + 1, s => s.tree fun source context => do
    visit context
    let next ← generate source context
    return some (← next.expand visit generate depth)

end IdlGen.Run
