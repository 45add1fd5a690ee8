import IdlGen.Draw

/-!
The expressions of test-data companions: how each field is drawn and how its declared
default is applied, and the same for whole records.
-/
namespace IdlGen.Companion

def recordParam : String := "struct_"

def valueParam : String := "value"

def defaulted (e : Expr) : Expr := .support "apply_defaults" [e, .context]

def defaultedField (field : Field) : Expr :=
  defaulted (.attr (.name recordParam) (Name.attributeName field.name))

/-- How a field is drawn. One that is not required may also be absent. -/
def draw (g : Group) (field : Field) : Except Fault Expr := do
  let strategy ← g.draw field.type false
  return if field.required then strategy else .support "optional" [strategy, .context]

def declaredDefault (g : Group) (field : Field) : Except Fault Expr :=
  g.literalExpr field.default (some field.type) false

/-- How a field is defaulted: inside first, and by the declared default if it is then absent. -/
def default (g : Group) (field : Field) : Except Fault Expr := do
  if field.default.isNull then return defaultedField field
  return .support "default_if_absent" [defaultedField field, ← declaredDefault g field]

structure FieldExprs where
  name : String
  draw : Expr
  default : Expr

def field (g : Group) (f : Field) : Except Fault FieldExprs := do
  let draw ← draw g f
  let default ← default g f
  return { name := Name.attributeName f.name, draw, default }

def memberDraw (g : Group) (constructor : Expr) (f : Field) : Except Fault Expr := do
  return .letAll constructor [(Name.attributeName f.name, ← g.draw f.type false)]

/-- The strategy of a record. A union draws one member; any other record draws every field. -/
def generator (g : Group) (kind : String) (constructor : Expr) (fields : List Field) :
    Except Fault Expr := do
  if fields.isEmpty then return .letAll constructor []
  if kind = "union" then
    return .apply (Ref.strategy "one_of") (← fields.mapM (memberDraw g constructor))
  let exprs ← fields.mapM (field g)
  return .letAll constructor (exprs.map fun e => (e.name, e.draw))

def memberDefaults (g : Group) (fields : List Field) : Except Fault (List (String × Expr)) :=
  (fields.filter fun f => !f.default.isNull).mapM fun f => do
    return (Name.attributeName f.name, ← declaredDefault g f)

/-- A record with all defaults applied. The members of a union are defaulted inside, and a
    declared default is set only if no member is. -/
def applyDefaults (g : Group) (r : Record) : Except Fault Expr := do
  if r.fields.isEmpty then return .name recordParam
  if r.kind != .union then
    let exprs ← r.fields.mapM (field g)
    return .rebuild (.name recordParam) (exprs.map fun e => (e.name, e.default))
  let rebuilt := .rebuild (.name recordParam)
    (r.fields.map fun f => (Name.attributeName f.name, defaultedField f))
  let defaults ← memberDefaults g r.fields
  if defaults.isEmpty then return rebuilt
  return .call (.ref (Ref.support "union_default")) [rebuilt] defaults

end IdlGen.Companion
