import IdlGen.Command.Options
import IdlGen.Files.Search
import IdlGen.Session.Generate
import IdlGen.Session.Load

/-!
The command: finds the schema documents, reads them as one group and generates it. A
collision and a faulty schema are reported with exit code 1; any other fault ends the
run.
-/
namespace IdlGen.Command

def generate (options : Options) (root : String) : Session (List String) := do
  match (← get).tree.search root options.paths options.excludes options.recursive with
  | [] =>
    let paths := (Value.list (options.paths.map .text)).literal
    Session.note [⟨.warning, "run", s!"No schema files found for {paths}."⟩]
    return []
  | found => do
    let g ← Session.loadGroup found
    let companions := if options.companionDirectory = "" then options.outputDirectory
      else options.companionDirectory
    Session.generate g [Path.join root options.outputDirectory, Path.join root companions]
      options.format

def report (result : Except Fault (List String)) : Except Fault (Nat × List LogLine) :=
  match result with
  | .ok _ => .ok (0, [])
  | .error fault =>
    let message := fault.message?.getD ""
    if fault.isCollision then .ok (1, [⟨.error, "cli", message⟩])
    else if fault.isSchema then .ok (1, [⟨.error, "cli", "Invalid schema: " ++ message⟩])
    else .error fault

def session (options : Options) : Session Nat := do
  let root := (← get).working
  Session.note [⟨.info, "cli", s!"Working from root directory: {root}"⟩]
  let result ← observing (generate options root)
  let (code, lines) ← Session.ofExcept (report result)
  Session.note lines
  return code
where
  observing (run : Session (List String)) : Session (Except Fault (List String)) :=
    ExceptT.mk (do return .ok (← run.run))

def start (options : Options) (world : World) : Except Fault Nat × World :=
  let (result, after) := (session options).run world
  let shown := after.log.filter fun line => options.verbose || line.level != .debug
  (result, { after with log := shown })

end IdlGen.Command
