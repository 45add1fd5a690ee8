import IdlGen.Run.Strategy
import IdlGen.Value.Equality

/-!
The support functions that generated companions call: strategies that respect the context,
and the application of a single default.
-/
namespace IdlGen.Run

/-! ## Strategies in a context -/

def optional (s : Strategy) (c : Context) : Strategy :=
  if c.exhausted then .plain "none" else .oneOf [s, .plain "none"]

def listOf (element : Strategy) (c : Context) : Strategy := .lists element c.size

def setOf (element : Strategy) (c : Context) : Strategy := .sets element c.size

def dictOf (key value : Strategy) (c : Context) : Strategy := .dictionaries key value c.size

def tupleOf (element : Strategy) (c : Context) : Strategy :=
  .converted (.lists element c.size) .toTuple

def frozensetOf (element : Strategy) (c : Context) : Strategy := .frozensets element c.size

def frozenItemsOf (key value : Strategy) (c : Context) : Strategy :=
  .converted (.dictionaries key value c.size) .toFrozenItems

/-- Draws a set of elements that cannot be hashed, as a list without repeats. -/
def distinctListOf (element : Strategy) (c : Context) : Strategy :=
  .distinctLists element c.size .whole

/-- Draws a map with keys that cannot be hashed, as a list of pairs with different keys. -/
def pairsOf (key value : Strategy) (c : Context) : Strategy :=
  .distinctLists (.tuples key value) c.size .first

def nested (source : Source) (c : Context) : Strategy := .deferred source c.descend

/-! ## Defaults -/

def defaultIfAbsent (value default : Value) : Value :=
  if value.isAbsent then default else value

def replaceFields (fields : List (String × Value)) :
    List (String × Value) → Except Fault (List (String × Value))
  | [] => .ok fields
  | (name, value) :: rest =>
    if fields.any (fun field => field.1 == name) then
      replaceFields (fields.map fun field => if field.1 == name then (name, value) else field) rest
    else .error (.unexpectedArgument name)

/-- The fields of a union without any set member, with the first default set; nothing if the
    union stays as it is. -/
def unionDefault? (fields defaults : List (String × Value)) :
    Except Fault (Option (List (String × Value))) :=
  match defaults with
  | [] => .ok none
  | first :: _ =>
    if fields.any (fun field => !field.2.isNull) then .ok none
    else some <$> replaceFields fields [first]

end IdlGen.Run
