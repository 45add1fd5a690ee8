import IdlGen.Expr.Lower
import IdlGen.Group.Hashable

/-!
Literals of a schema as expressions. Set elements and map keys are written in frozen form;
sets of elements that cannot be hashed become lists, and maps with such keys become
lists of pairs. The members of a set are sorted by their text, so that the order of a
set never shows.
-/
namespace IdlGen.Group

def classRef (g : Group) (name : String) : Except Fault Ref := do
  let output ← g.outputName name
  return { module := Name.modulePath output, attr := Name.className output }

def constantRef (g : Group) (c : Constant) : Except Fault Ref := do
  let (module, rest) ← Name.split c.name
  let output ← g.constantsOutput (.text module)
  return { module := Name.modulePath output, attr := Name.sanitize rest }

def referentRef (g : Group) (name : String) : Except Fault Ref := do
  match ← g.resolveValue name with
  | .constant c => g.constantRef c
  | .member e member =>
    let cls ← g.classRef e.name
    return { module := cls.module, attr := cls.attr ++ "." ++ member }

def resolveType? (g : Group) : Option FieldType → Except Fault (Option Resolved)
  | none => .ok none
  | some type => some <$> g.resolveType type

def pairList (pairs : List (Expr × Expr)) : Expr :=
  .list (pairs.map fun pair => .tuple [pair.1, pair.2])

def frozen (items : Expr) : Expr := .call (.name "frozenset") [items] []

def fieldType? (fields : List Field) (key : Value) : Option FieldType :=
  (fields.reverse.find? fun field => field.name.same key).map (·.type)

def scalarExpr (v : Value) (resolved : Option Resolved) : Except Fault Expr :=
  let asDouble (n : Int) : Except Fault Expr :=
    match resolved with
    | some (.primitive .double) =>
      match Binary64.ofInt? n with
      | some x => .ok (.literal (.float x))
      | none => .error (.tooLarge n)
    | _ => .ok (.literal v)
  match v with
  | .int n => asDouble n
  | .bool b => asDouble (if b then 1 else 0)
  | .member _ _ n => asDouble n
  | v => .ok (.literal v)

structure Shape where
  element : Option FieldType
  isSet : Bool
  hashes : Bool

/-- The shape of a literal with items; one without a declared type is a set if it is written so. -/
def shapeOf (g : Group) (writtenAsSet : Bool) (resolved : Option Resolved) :
    Except Fault Shape :=
  match resolved with
  | some (.list element) => .ok ⟨some element, false, false⟩
  | some (.set element) => do return ⟨some element, true, ← g.isHashable element true⟩
  | some _ => .ok ⟨none, false, false⟩
  | none => .ok ⟨none, writtenAsSet, writtenAsSet⟩

def Shape.expr (shape : Shape) (isFrozen : Bool) (items : List Expr) : Expr :=
  if !shape.isSet then if isFrozen then .tuple items else .list items
  else if !shape.hashes then .list items
  else if isFrozen then frozen (.list items)
  else .set items

def sortByText (items : List Expr) : List Expr :=
  items.mergeSort fun a b => decide (a.lower none 0 ≤ b.lower none 0)

def entryTypes (g : Group) (resolved : Option Resolved) :
    Except Fault (Option FieldType × Option FieldType × Bool) :=
  match resolved with
  | some (.map key value) => do return (some key, some value, ← g.isHashable key true)
  | _ => .ok (none, none, true)

def entriesExpr (isFrozen hashes : Bool) (pairs : List (Expr × Expr)) : Expr :=
  if isFrozen then frozen (pairList pairs)
  else if hashes then .dict pairs
  else pairList pairs

mutual

/-- The expression of a literal of a declared type, if that is known; `isFrozen` holds for set
    elements and map keys. -/
def literalExpr (g : Group) : Value → Option FieldType → Bool → Except Fault Expr
  | .ref name, _, _ => .ref <$> g.referentRef name
  | .dict entries, type, isFrozen => do
    match ← g.resolveType? type with
    | some (.record r) =>
      let kwargs ← g.literalFields r.fields entries
      return .call (.ref (← g.classRef r.name)) [] kwargs
    | resolved =>
      let (keyType, valueType, hashes) ← g.entryTypes resolved
      let pairs ← g.literalEntries keyType valueType hashes isFrozen entries
      return entriesExpr isFrozen hashes pairs
  | .list items, type, isFrozen => do
    let shape ← g.shapeOf false (← g.resolveType? type)
    return shape.expr isFrozen (← g.literalItems shape.element (isFrozen || shape.hashes) items)
  | .tuple items, type, isFrozen => do
    let shape ← g.shapeOf false (← g.resolveType? type)
    return shape.expr isFrozen (← g.literalItems shape.element (isFrozen || shape.hashes) items)
  | .set items, type, isFrozen => do
    let shape ← g.shapeOf true (← g.resolveType? type)
    let exprs ← g.literalItems shape.element (isFrozen || shape.hashes) items
    return shape.expr isFrozen (sortByText exprs)
  | .frozenset items, type, isFrozen => do
    let shape ← g.shapeOf true (← g.resolveType? type)
    let exprs ← g.literalItems shape.element (isFrozen || shape.hashes) items
    return shape.expr isFrozen (sortByText exprs)
  | .int n, type, _ => do
    match ← g.resolveType? type with
    | some (.enum e) => return .call (.ref (← g.classRef e.name)) [.literal (.int n)] []
    | resolved => scalarExpr (.int n) resolved
  | v, type, _ => do scalarExpr v (← g.resolveType? type)

def literalItems (g : Group) (type : Option FieldType) (isFrozen : Bool) :
    List Value → Except Fault (List Expr)
  | [] => .ok []
  | v :: rest => do
    let e ← g.literalExpr v type isFrozen
    let rest ← g.literalItems type isFrozen rest
    return e :: rest

def literalEntries (g : Group) (keyType valueType : Option FieldType) (hashes isFrozen : Bool) :
    List (Value × Value) → Except Fault (List (Expr × Expr))
  | [] => .ok []
  | (k, v) :: rest => do
    let key ← g.literalExpr k keyType hashes
    let value ← g.literalExpr v valueType isFrozen
    let rest ← g.literalEntries keyType valueType hashes isFrozen rest
    return (key, value) :: rest

def literalFields (g : Group) (fields : List Field) :
    List (Value × Value) → Except Fault (List (String × Expr))
  | [] => .ok []
  | (k, v) :: rest => do
    let e ← g.literalExpr v (fieldType? fields k) false
    let rest ← g.literalFields fields rest
    return (Name.attributeName k, e) :: rest

end

end IdlGen.Group
