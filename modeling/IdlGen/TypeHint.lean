import IdlGen.Literal
import IdlGen.Trail

/-!
Annotations of generated fields. An annotation names the representation that values of a
type have: set elements and map keys are frozen, sets of elements that cannot be
hashed are lists, and maps with such keys are lists of pairs. Classes of other modules
are noted on the way, since their modules are imported for type checking.
-/
namespace IdlGen

inductive TypeHint where
  | builtin (word : String)
  | cls (r : Ref)
  | list (element : TypeHint)
  | tuple (element : TypeHint)
  | set (element : TypeHint)
  | frozenset (element : TypeHint)
  | dict (key value : TypeHint)
  | pair (key value : TypeHint)
deriving DecidableEq, Repr, Inhabited

def TypeHint.text (home : String) : TypeHint → String
  | .builtin word => word
  | .cls r => r.lower (some home)
  | .list element => "list[" ++ element.text home ++ "]"
  | .tuple element => "tuple[" ++ element.text home ++ ", ...]"
  | .set element => "set[" ++ element.text home ++ "]"
  | .frozenset element => "frozenset[" ++ element.text home ++ "]"
  | .dict key value => "dict[" ++ key.text home ++ ", " ++ value.text home ++ "]"
  | .pair key value => "tuple[" ++ key.text home ++ ", " ++ value.text home ++ "]"

def Primitive.hint : Primitive → Except Fault TypeHint
  | .bool => .ok (.builtin "bool")
  | .byte => .ok (.builtin "int")
  | .i8 => .ok (.builtin "int")
  | .i16 => .ok (.builtin "int")
  | .i32 => .ok (.builtin "int")
  | .i64 => .ok (.builtin "int")
  | .double => .ok (.builtin "float")
  | .string => .ok (.builtin "str")
  | .binary => .ok (.builtin "bytes")
  | .other name => .error (.missingKey (.text name))

namespace Group

def classHint (g : Group) (name : String) : Trail Ref Fault TypeHint := do
  let r ← Trail.lift (g.classRef name)
  Trail.note r
  return .cls r

def hintWithin (g : Group) : Nat → FieldType → Bool → Trail Ref Fault TypeHint
  | 0, _, _ => .fail .endlessType
  | fuel + 1, type, frozen => do
    match ← Trail.lift (g.resolveType type) with
    | .primitive p => Trail.lift p.hint
    | .list element =>
      let element ← g.hintWithin fuel element frozen
      return if frozen then .tuple element else .list element
    | .set element =>
      if ← Trail.lift (g.isHashable element true) then
        let element ← g.hintWithin fuel element true
        return if frozen then .frozenset element else .set element
      else return .list (← g.hintWithin fuel element false)
    | .map key value =>
      let value ← g.hintWithin fuel value frozen
      if frozen then
        return .frozenset (.pair (← g.hintWithin fuel key true) value)
      else if ← Trail.lift (g.isHashable key true) then
        return .dict (← g.hintWithin fuel key true) value
      else return .list (.pair (← g.hintWithin fuel key false) value)
    | .record r => g.classHint r.name
    | .enum e => g.classHint e.name
    | .constant c => g.classHint c.name
    | .service s => g.classHint s.name

/-- Levels that suffice for every type that has an end: each node is met at most once frozen
    and once plain on a way down. -/
def typeFuel (g : Group) (type : FieldType) : Nat := 2 * (type.size + g.aliasNodes) + 1

def hint (g : Group) (type : FieldType) (frozen : Bool) : Trail Ref Fault TypeHint :=
  g.hintWithin (g.typeFuel type) type frozen

end Group
end IdlGen
