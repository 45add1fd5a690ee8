import IdlGen.Value.Basic

/-!
The language of generated modules, as far as it matters when they run: terms, statements
and parameters. Annotations are not kept; of an annotation only the name it begins
with is needed.
-/
namespace IdlGen.Code

inductive Term where
  | name (id : String)
  | attr (value : Term) (name : String)
  | literal (value : Value)
  | list (items : List Term)
  | tuple (items : List Term)
  | set (items : List Term)
  | dict (entries : List (Term × Term))
  | call (func : Term) (args : List Term) (kwargs : List (String × Term))
  | item (container : Term) (keys : List Term)
  /-- One of two terms by a condition, which is found out first. -/
  | choice (yes condition no : Term)
  /-- An operation that no generated value is computed with. -/
  | operation (symbol : String) (parts : List Term)
deriving Repr, Inhabited

def Term.leading? : Term → Option String
  | name id => some id
  | item container _ => container.leading?
  | choice yes _ _ => yes.leading?
  | operation _ (first :: _) => first.leading?
  | _ => none

structure Param where
  name : String
  default? : Option Term := none
deriving Repr, Inhabited

inductive Statement where
  | expression (value : Term)
  | assign (targets : List Term) (value : Term)
  /-- A target with an annotation that begins with a name. Only a bare name is recorded. -/
  | annotate (target : Term) (isBare : Bool) (leading? : Option String) (value? : Option Term)
  | importModule (path : String) (short? : Option String)
  | importFrom (path name : String) (short? : Option String)
  | classDef (name : String) (decorators bases : List Term) (body : List Statement)
  | function (name : String) (decorators : List Term) (params : List Param) (body : List Statement)
  | branch (condition : Term) (yes no : List Statement)
  | result (value? : Option Term)
  | pass
deriving Repr, Inhabited

def Term.dotted (first : String) (rest : List String) : Term := rest.foldl attr (name first)

end IdlGen.Code
