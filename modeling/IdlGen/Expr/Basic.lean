import IdlGen.Text.Split
import IdlGen.Value.Basic

/-!
Expressions of the generated code as trees. They are composed first and become text in
one pass; the imports that the text needs are read off the same trees.
-/
namespace IdlGen

structure Ref where
  module : String
  /-- The name inside that module; it may be dotted. -/
  attr : String
  /-- The name under which the module is imported, if it is not its path. -/
  alias? : Option String := none
deriving DecidableEq, Repr, Inhabited

namespace Ref

def shortName? (r : Ref) : Option String := r.alias?.filter (· != "")

/-- The text of a reference in the module `home`: bare if `home` is the defining module. -/
def lower (home : Option String) (r : Ref) : String :=
  if home = some r.module then r.attr
  else r.shortName?.getD r.module ++ "." ++ r.attr

def importLine? (home : Option String) (r : Ref) : Option String :=
  if home = some r.module then none
  else match r.shortName? with
    | none => some ("import " ++ r.module)
    | some short =>
      let (parent, last) := Text.partitionLast '.' r.module
      if parent = "" then some ("import " ++ r.module ++ " as " ++ short)
      else if last = short then some ("from " ++ parent ++ " import " ++ last)
      else some ("from " ++ parent ++ " import " ++ last ++ " as " ++ short)

def strategiesModule : String := "hypothesis.strategies"

def supportModule : String := "thrift_generator.runtime"

def strategy (attr : String) : Ref := { module := strategiesModule, attr, alias? := some "st" }

def support (attr : String) : Ref := { module := supportModule, attr, alias? := some "runtime" }

def replace : Ref := { module := "dataclasses", attr := "replace" }

end Ref

inductive Expr where
  /-- A node without a text of its own. -/
  | blank
  /-- A parameter or a built-in name. -/
  | name (id : String)
  | ref (r : Ref)
  | attr (value : Expr) (name : String)
  | literal (value : Value)
  | list (items : List Expr)
  | tuple (items : List Expr)
  | set (items : List Expr)
  | dict (entries : List (Expr × Expr))
  | call (func : Expr) (args : List Expr) (kwargs : List (String × Expr))
  /-- Draws every binding on its own, then builds one value from all of them. -/
  | letAll (constructor : Expr) (bindings : List (String × Expr))
  /-- The target with all given fields replaced in one step. -/
  | rebuild (target : Expr) (fields : List (String × Expr))
deriving Repr, Inhabited

namespace Expr

def apply (func : Ref) (args : List Expr) : Expr := call (ref func) args []

mutual

/-- The nodes of an expression, each before its parts. The last two forms stand for calls, and
    their parts are those of the calls. -/
def nodes : Expr → List Expr
  | blank => [blank]
  | name id => [name id]
  | ref r => [ref r]
  | attr value a => attr value a :: nodes value
  | literal v => [literal v]
  | list items => list items :: nodesOfAll items
  | tuple items => tuple items :: nodesOfAll items
  | set items => set items :: nodesOfAll items
  | dict entries => dict entries :: nodesOfEntries entries
  | call func args kwargs =>
    call func args kwargs :: (nodes func ++ nodesOfAll args ++ nodesOfKeywords kwargs)
  | letAll constructor bindings =>
    letAll constructor bindings ::
      ref (Ref.strategy "builds") :: (nodes constructor ++ nodesOfKeywords bindings)
  | rebuild target fields =>
    rebuild target fields :: ref Ref.replace :: (nodes target ++ nodesOfKeywords fields)

def nodesOfAll : List Expr → List Expr
  | [] => []
  | e :: rest => nodes e ++ nodesOfAll rest

def nodesOfEntries : List (Expr × Expr) → List Expr
  | [] => []
  | (k, v) :: rest => nodes k ++ nodes v ++ nodesOfEntries rest

def nodesOfKeywords : List (String × Expr) → List Expr
  | [] => []
  | (_, e) :: rest => nodes e ++ nodesOfKeywords rest

end

def ref? : Expr → Option Ref
  | ref r => some r
  | _ => none

def refs (e : Expr) : List Ref := e.nodes.filterMap ref?

def isBlank : Expr → Bool
  | blank => true
  | _ => false

def isConcrete (e : Expr) : Bool := e.nodes.all fun node => !node.isBlank

end Expr
end IdlGen
