import IdlGen.Companion.Field
import IdlGen.Output.Draft

/-!
Test-data companions. The companion of a declaration has two functions: one gives a
strategy that draws instances, the other applies declared defaults to an instance.
-/
namespace IdlGen.Companion

def addFunctions (type : TypeHint) (strategy result : Expr) (param subject : String) :
    Drafting Unit := do
  let _ ← Drafting.uses (.ref (Ref.support "GenerationContext"))
  let _ ← Drafting.uses (.ref (Ref.strategy "SearchStrategy"))
  Drafting.add (.generator type subject (← Drafting.uses strategy))
  Drafting.add (.defaults type param (← Drafting.uses result))

def recordOf : Entity → Except Fault Record
  | .record r => .ok r
  | e => .error (.wrongEntity e.name)

def useClass (g : Group) (name : String) : Drafting Ref := do
  let cls ← Drafting.ofExcept (g.classRef name)
  let _ ← Drafting.uses (.ref cls)
  return cls

def recordFunctions (g : Group) (entity : Entity) : Drafting Unit := do
  let cls ← useClass g entity.name
  let r ← Drafting.ofExcept (recordOf entity)
  let strategy ← Drafting.ofExcept (generator g r.kind.word (.ref cls) r.fields)
  let result ← Drafting.ofExcept (applyDefaults g r)
  addFunctions (.cls cls) strategy result recordParam ("`" ++ cls.attr ++ "` instances")

def enumFunctions (g : Group) (e : Enum) : Drafting Unit := do
  let cls ← useClass g e.name
  let strategy : Expr := match e.values with
    | (first, _) :: _ =>
      .apply (Ref.strategy "just") [.ref { module := cls.module, attr := cls.attr ++ "." ++ first }]
    | [] => .strategy "nothing" []
  addFunctions (.cls cls) strategy (.name recordParam) recordParam ("`" ++ cls.attr ++ "` members")

def typedefFunctions (g : Group) (t : Typedef) : Drafting Unit := do
  let type ← Drafting.annotate t.type false
  let strategy ← Drafting.ofExcept (g.draw t.type false)
  addFunctions type strategy (defaulted (.name valueParam)) valueParam ("`" ++ t.name ++ "` values")

def output (g : Group) (path : Value) (name : String) (entity : Entity) : Except Fault Output :=
  Drafting.run (.start g (Name.companion name) "test_data" .types path) <|
    match entity with
    | .typedef t => typedefFunctions g t
    | .enum e => enumFunctions g e
    | entity => recordFunctions g entity

end IdlGen.Companion
