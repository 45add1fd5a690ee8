import IdlGen.Expr.Basic
import IdlGen.Fault
import IdlGen.Table

/-!
Expressions as text. `Expr.lower` writes an expression for the module `home`, starting on a
line with a given indentation; a call with several keyword arguments is spread over
lines. `importLines` lists the imports that the text needs.
-/
namespace IdlGen.Expr

def indentation (level : Int) : String := String.ofList (List.replicate (4 * level.toNat) ' ')

def literalText : Value → String
  | .float x => if x.isFinite then x.text else "float(\"" ++ x.text ++ "\")"
  | v => v.literal

def callText (spread : Bool) (level : Int) (func : String) (args : List String) : String :=
  if spread then
    func ++ "(\n" ++
      "\n".intercalate (args.map fun arg => indentation (level + 1) ++ arg ++ ",") ++
      "\n" ++ indentation level ++ ")"
  else Value.bracketed (func ++ "(") ")" args

def isSpread (kwargs : List (String × Expr)) : Bool := decide (1 < kwargs.length)

def argumentLevel (kwargs : List (String × Expr)) (level : Int) : Int :=
  if isSpread kwargs then level + 1 else level

mutual

def lower (home : Option String) : Int → Expr → String
  | _, blank => ""
  | _, name id => id
  | _, ref r => r.lower home
  | level, attr value a => lower home level value ++ "." ++ a
  | _, literal v => literalText v
  | level, list items => Value.bracketed "[" "]" (lowerAll home level items)
  | level, tuple items => Value.tupleText (lowerAll home level items)
  | level, set items =>
    if items.isEmpty then "set()" else Value.bracketed "\x7b" "\x7d" (lowerAll home level items)
  | level, dict entries => Value.bracketed "\x7b" "\x7d" (lowerEntries home level entries)
  | level, call func args kwargs =>
    callText (isSpread kwargs) level (lower home level func)
      (lowerAll home (argumentLevel kwargs level) args ++
        lowerKeywords home (argumentLevel kwargs level) kwargs)
  | level, letAll constructor bindings =>
    callText (isSpread bindings) level ((Ref.strategy "builds").lower home)
      (lower home (argumentLevel bindings level) constructor ::
        lowerKeywords home (argumentLevel bindings level) bindings)
  | level, rebuild target fields =>
    callText (isSpread fields) level (Ref.replace.lower home)
      (lower home (argumentLevel fields level) target ::
        lowerKeywords home (argumentLevel fields level) fields)

def lowerAll (home : Option String) : Int → List Expr → List String
  | _, [] => []
  | level, e :: rest => lower home level e :: lowerAll home level rest

def lowerEntries (home : Option String) : Int → List (Expr × Expr) → List String
  | _, [] => []
  | level, (k, v) :: rest =>
    (lower home level k ++ ": " ++ lower home level v) :: lowerEntries home level rest

def lowerKeywords (home : Option String) : Int → List (String × Expr) → List String
  | _, [] => []
  | level, (key, e) :: rest =>
    (key ++ "=" ++ lower home level e) :: lowerKeywords home level rest

end

def source (home : Option String) (level : Int) (e : Expr) : Except Fault String :=
  if e.isConcrete then .ok (e.lower home level) else .error .noSource

def importLines (home : Option String) (exprs : List Expr) : List String :=
  firstOccurrences (exprs.flatMap fun e => e.refs.filterMap (Ref.importLine? home))

end IdlGen.Expr
