import IdlGen.Code.Term
import IdlGen.Table
import IdlGen.Text.Split

/-!
What a module that can be read must also obey before it runs: calls do not repeat keyword
arguments, functions do not repeat parameters, results stand in functions, and an import
that changes the meaning of the module comes first.
-/
namespace IdlGen.Code

/-- The name that a class really gets for a name inside it: two leading underscores, and not as
    many trailing ones, make a name private to its class. -/
def privateName (className name : String) : String :=
  if Text.hasStart "__" name && !Text.hasEnding "__" name then
    let bare := String.ofList (className.toList.dropWhile (· == '_'))
    if bare = "" then name else "_" ++ bare ++ name
  else name

def nameWithin (className? : Option String) (name : String) : String :=
  (className?.map fun cls => privateName cls name).getD name

def allDifferent (texts : List String) : Bool := (firstOccurrences texts).length == texts.length

def isBindable (name : String) : Bool := name != "__debug__"

mutual

def Term.isAllowed : Term → Bool
  | .name _ => true
  | .literal _ => true
  | .attr value _ => value.isAllowed
  | .list items => Term.allAllowed items
  | .tuple items => Term.allAllowed items
  | .set items => Term.allAllowed items
  | .dict entries => Term.entriesAllowed entries
  | .call func args kwargs =>
    func.isAllowed && Term.allAllowed args && Term.keywordsAllowed kwargs &&
      allDifferent (kwargs.map (·.1))
  | .item container keys => container.isAllowed && Term.allAllowed keys
  | .choice yes condition no => yes.isAllowed && condition.isAllowed && no.isAllowed
  | .operation _ parts => Term.allAllowed parts

def Term.allAllowed : List Term → Bool
  | [] => true
  | t :: rest => t.isAllowed && Term.allAllowed rest

def Term.entriesAllowed : List (Term × Term) → Bool
  | [] => true
  | (k, v) :: rest => k.isAllowed && v.isAllowed && Term.entriesAllowed rest

def Term.keywordsAllowed : List (String × Term) → Bool
  | [] => true
  | (keyword, t) :: rest => isBindable keyword && t.isAllowed && Term.keywordsAllowed rest

end

mutual

def Term.isAllowedTarget : Term → Bool
  | .name id => isBindable id
  | .attr value label => isBindable label && value.isAllowed
  | .tuple items => Term.allAllowedTargets items
  | .list items => Term.allAllowedTargets items
  | t => t.isAllowed

def Term.allAllowedTargets : List Term → Bool
  | [] => true
  | t :: rest => t.isAllowedTarget && Term.allAllowedTargets rest

end

def paramsAllowed (className? : Option String) (params : List Param) : Bool :=
  allDifferent (params.map fun p => nameWithin className? p.name) &&
    params.all fun p => isBindable p.name && p.default?.all Term.isAllowed

structure Position where
  className? : Option String := none
  inFunction : Bool := false

mutual

def Statement.isAllowed (p : Position) : Statement → Bool
  | .expression value => value.isAllowed
  | .assign targets value => Term.allAllowedTargets targets && value.isAllowed
  | .annotate target _ _ value? => target.isAllowedTarget && value?.all Term.isAllowed
  | .importModule _ short? => short?.all isBindable
  | .importFrom _ name short? => isBindable (short?.getD name)
  | .classDef name decorators bases body =>
    isBindable name && Term.allAllowed decorators && Term.allAllowed bases &&
      Statement.allAllowed { className? := some name } body
  | .function name decorators params body =>
    isBindable name && Term.allAllowed decorators && paramsAllowed p.className? params &&
      Statement.allAllowed { p with inFunction := true } body
  | .branch condition yes no =>
    condition.isAllowed && Statement.allAllowed p yes && Statement.allAllowed p no
  | .result value? => p.inFunction && value?.all Term.isAllowed
  | .pass => true

def Statement.allAllowed (p : Position) : List Statement → Bool
  | [] => true
  | s :: rest => s.isAllowed p && Statement.allAllowed p rest

end

def futureModule : String := "__future__"

def Statement.isFuture : Statement → Bool
  | .importFrom path _ _ => path == futureModule
  | _ => false

def Statement.isRemark : Statement → Bool
  | .expression (.literal (.text _)) => true
  | _ => false

/-- Whether a module may run: its statements are allowed, and only remarks stand before the
    imports that change its meaning. -/
def mayRun (body : List Statement) : Bool :=
  Statement.allAllowed {} body &&
    !(body.dropWhile fun s => s.isRemark || s.isFuture).any Statement.isFuture

end IdlGen.Code
