import IdlGen.Log
import IdlGen.Output.Basic

/-!
Outputs of one name. A stream is folded into one output per name: constants are merged
into the types of the same name, and two outputs of types, or two of constants,
collide.
-/
namespace IdlGen

structure Collision where
  name : String
  first : Output
  second : Output
deriving Repr, Inhabited

def Collision.fault (c : Collision) : Fault :=
  .collision c.name c.first.generator c.second.generator

/-- The two outputs as one, if exactly one of them declares constants only. The merged output
    is known as the types are, and keeps all declarations in order. -/
def Output.merge? (first second : Output) : Option Output :=
  if first.isConstant == second.isConstant then none
  else
    let known := if first.isConstant then second else first
    some { known with
      imports := firstOccurrences (first.imports ++ second.imports)
      typeImports := firstOccurrences (first.typeImports ++ second.typeImports)
      body := first.body ++ second.body }

namespace Stream

def resolveFrom (done : Table Output) : List Named → Except Collision (Table Output)
  | [] => .ok done
  | (name, output) :: rest =>
    match done.get? name with
    | none => resolveFrom (done.put name output) rest
    | some existing =>
      match existing.merge? output with
      | none => .error ⟨name, existing, output⟩
      | some merged => resolveFrom (done.put name merged) rest

/-- One output per name, in the order of first occurrence, or the first collision. -/
def resolve (stream : List Named) : Except Collision (List Named) := resolveFrom [] stream

def resolveLog (done : Table Output) : List Named → List LogLine
  | [] => []
  | (name, output) :: rest =>
    match done.get? name with
    | none => resolveLog (done.put name output) rest
    | some existing =>
      match existing.merge? output with
      | none =>
        [⟨.error, "generator", s!"Cannot merge {existing.generator} and {output.generator} " ++
          s!"generated as '{name}'."⟩]
      | some merged =>
        ⟨.debug, "generator", s!"Merged {output.generator} into {existing.generator} " ++
          s!"for '{name}'."⟩ :: resolveLog (done.put name merged) rest

end Stream
end IdlGen
