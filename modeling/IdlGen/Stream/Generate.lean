import IdlGen.Companion.Output
import IdlGen.Emit.Service
import IdlGen.Emit.Types
import IdlGen.Stream.Collision

/-!
The outputs of schemas and groups, in two streams: the main modules (enums, constants,
structs, unions, exceptions, services, handlers) and the test-data companions. Each
stream lists the schemas one after the other.
-/
namespace IdlGen

structure Emission where
  name : String
  output : Output
  log : List LogLine := []

structure Streams where
  main : List Named := []
  companions : List Named := []

namespace Stream

/-! ## Main outputs -/

def enumEmission (g : Group) (path : Value) (e : Enum) : Except Fault Emission := do
  let name ← g.outputName e.name
  return { name, output := ← Emit.enumeration g path name e }

def ownConstants (g : Group) (s : Schema) : Except Fault (List Constant) :=
  s.constants.values.filterM fun c => g.owns c.name

def constantEmissions (g : Group) (s : Schema) : List (Except Fault Emission) :=
  match ownConstants g s with
  | .error fault => [.error fault]
  | .ok [] => []
  | .ok cs => [do
      let name ← g.currentConstantsOutput
      return { name, output := ← Emit.constants g s.path name cs }]

def recordEmission (g : Group) (path : Value) (r : Record) : Except Fault Emission := do
  let name ← g.outputName r.name
  let output ← Emit.record g path r.kind.word name r
  return {
    name, output
    log := [⟨.debug, "writer",
      s!"Generated {r.kind.word} '{name}' with {r.fields.length} field(s)."⟩] }

def serviceEmission (g : Group) (path : Value) (s : Service) : Except Fault Emission := do
  let output ← Emit.service g path s
  return { name := output.name, output }

def handlerEmission (g : Group) (path : Value) (s : Service) : Except Fault Emission := do
  let output ← Emit.handler g path s
  return { name := output.name, output }

def mainEmissions (g : Group) (s : Schema) : List (Except Fault Emission) :=
  s.enums.values.map (enumEmission g s.path) ++
  constantEmissions g s ++
  s.structs.values.map (recordEmission g s.path) ++
  s.unions.values.map (recordEmission g s.path) ++
  s.exceptions.values.map (recordEmission g s.path) ++
  s.services.values.map (serviceEmission g s.path) ++
  s.services.values.map (handlerEmission g s.path)

/-! ## Companions -/

def companionEmission (g : Group) (path : Value) (name : Except Fault String) (entity : Entity) :
    Except Fault Emission := do
  let name ← name
  let output ← Companion.output g path name entity
  return {
    name := output.name, output
    log := [⟨.debug, "test_data",
      s!"Generated test data '{output.name}' for {entity.kindWord} '{name}'."⟩] }

/-- The output name of an alias: its capitalized key, as if it were declared by the schema. -/
def aliasOutput (g : Group) (s : Schema) (key : String) : Except Fault String :=
  g.outputName (s.module.display ++ "." ++ Name.capitalize key)

/-- The companions of a schema: aliases, structs, exceptions, unions, enums. -/
def companionEmissions (g : Group) (s : Schema) : List (Except Fault Emission) :=
  let ofEntity (entity : Entity) := companionEmission g s.path (g.outputName entity.name) entity
  s.typedefs.map (fun entry =>
    companionEmission g s.path (aliasOutput g s entry.1) (.typedef entry.2)) ++
  s.structs.values.map (fun r => ofEntity (.record r)) ++
  s.exceptions.values.map (fun r => ofEntity (.record r)) ++
  s.unions.values.map (fun r => ofEntity (.record r)) ++
  s.enums.values.map (fun e => ofEntity (.enum e))

/-! ## Schemas and groups -/

def collect (emissions : List (Except Fault Emission)) : Except Fault (List Named) :=
  emissions.mapM fun emission => do
    let emission ← emission
    return (emission.name, emission.output)

def ofSchema (g : Group) (s : Schema) : Except Fault Streams := do
  let g := g.seenFrom s.module
  let main ← collect (mainEmissions g s)
  let companions ← collect (companionEmissions g s)
  return { main, companions }

def ofAttached (g : Option Group) (s : Schema) : Except Fault Streams :=
  match g with
  | some g => ofSchema g s
  | none => .error (.noGroup s.module)

def ofGroup (g : Group) : Except Fault Streams :=
  g.schemas.foldlM (fun streams entry => do
    let next ← ofSchema g entry.2
    return {
      main := streams.main ++ next.main
      companions := streams.companions ++ next.companions }) {}

def unwrap (stream : List Named) : Except Fault (List Named) :=
  (resolve stream).mapError Collision.fault

def resolved (g : Group) : Except Fault Streams := do
  let streams ← ofGroup g
  let main ← unwrap streams.main
  let companions ← unwrap streams.companions
  return { main, companions }

def targets (g : Group) : Except Fault (List String) := do
  return firstOccurrences ((← ofGroup g).main.map fun named => Name.targetPath named.1)

def toText (g : Group) : Except Fault String := do
  let streams ← resolved g
  return Text.join "\n" ((streams.main ++ streams.companions).map fun named => named.2.render)

end Stream
end IdlGen
