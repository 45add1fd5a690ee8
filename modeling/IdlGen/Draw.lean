import IdlGen.TypeHint

/-!
Strategies that draw values of a type, as expressions over the variable `context`. Records
are drawn through their own companions, one level deeper. Set elements and map keys are
drawn frozen, sets of elements that cannot be hashed as lists without repeats, and
maps with such keys as lists of pairs.
-/
namespace IdlGen

namespace Expr

def context : Expr := name "context"

def contextSize : Expr := attr context "size"

def strategy (attr : String) (kwargs : List (String × Expr)) : Expr :=
  call (ref (Ref.strategy attr)) [] kwargs

def support (attr : String) (args : List Expr) : Expr := apply (Ref.support attr) args

end Expr

def Primitive.draw (p : Primitive) : Except Fault Expr :=
  match p.range? with
  | some (low, high) =>
    .ok (.strategy "integers"
      [("min_value", .literal (.int low)), ("max_value", .literal (.int high))])
  | none =>
    match p with
    | .bool => .ok (.strategy "booleans" [])
    | .double =>
      .ok (.strategy "floats"
        [("allow_nan", .literal (.bool false)), ("allow_infinity", .literal (.bool false))])
    | .string => .ok (.strategy "text" [("max_size", .contextSize)])
    | .binary => .ok (.strategy "binary" [("max_size", .contextSize)])
    | p => .error (.unknownPrimitive p.name)

namespace Group

def companionRef (g : Group) (name attr : String) : Except Fault Ref := do
  let output ← g.outputName name
  return { module := Name.modulePath (Name.companion output), attr }

def typeName : FieldType → String
  | .ref name => name
  | _ => ""

def drawWithin (g : Group) : Nat → FieldType → Bool → Except Fault Expr
  | 0, _, _ => .error .endlessType
  | fuel + 1, type, frozen => do
    match ← g.resolveType type with
    | .primitive p => p.draw
    | .list element =>
      let element ← g.drawWithin fuel element frozen
      return .support (if frozen then "tuple_of" else "list_of") [element, .context]
    | .set element =>
      if ← g.isHashable element true then
        let element ← g.drawWithin fuel element true
        return .support (if frozen then "frozenset_of" else "set_of") [element, .context]
      else
        let element ← g.drawWithin fuel element false
        return .support "unique_list_of" [element, .context]
    | .map key value =>
      let hashes ← if frozen then pure true else g.isHashable key true
      let function :=
        if frozen then "frozen_items_of" else if hashes then "dict_of" else "pairs_of"
      let key ← g.drawWithin fuel key hashes
      let value ← g.drawWithin fuel value frozen
      return .support function [key, value, .context]
    | .enum e => return .apply (Ref.strategy "sampled_from") [.ref (← g.classRef e.name)]
    | .record r =>
      return .support "nested" [.ref (← g.companionRef r.name "get_generator"), .context]
    | .constant _ => throw (.notGenerable (typeName type))
    | .service _ => throw (.notGenerable (typeName type))

def draw (g : Group) (type : FieldType) (frozen : Bool) : Except Fault Expr :=
  g.drawWithin (g.typeFuel type) type frozen

end Group
end IdlGen
