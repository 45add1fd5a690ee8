import IdlGen.Session.Basic
import IdlGen.Stream.Generate

/-!
Generating a group into directories: one for the main modules, one for the companions.
Nothing is written before every output has been generated, every name is known to have
one output, and every file is known to belong to one output.
-/
namespace IdlGen.Session

variable {files : Type} [FileSystem files]

/-! ## Streams -/

def collect (emissions : List (Except Fault Emission)) : SessionOn files (List Named) :=
  emissions.mapM fun emission => do
    let emission ← ofExcept emission
    note emission.log
    return (emission.name, emission.output)

def schemaStreams (g : Group) (s : Schema) : SessionOn files Streams := do
  let g := g.seenFrom s.module
  let main ← collect (Stream.mainEmissions g s)
  let companions ← collect (Stream.companionEmissions g s)
  note [⟨.info, "generator", s!"Generated {main.length} module(s) and {companions.length} " ++
    s!"test-data module(s) for schema '{s.module.display}'."⟩]
  return { main, companions }

def groupStreams (g : Group) : SessionOn files Streams :=
  g.schemas.foldlM (fun streams entry => do
    let next ← schemaStreams g entry.2
    return {
      main := streams.main ++ next.main
      companions := streams.companions ++ next.companions }) {}

def unwrap (stream : List Named) : SessionOn files (List Named) := do
  note (Stream.resolveLog [] stream)
  ofExcept (Stream.unwrap stream)

def resolved (g : Group) : SessionOn files Streams := do
  let streams ← groupStreams g
  let main ← unwrap streams.main
  let companions ← unwrap streams.companions
  return { main, companions }

/-! ## Files -/

structure Target where
  /-- The normal absolute path of the file. -/
  path : String
  name : String
  output : Output

def targetsBelow (working : String) (stream : List Named) (directory : String) : List Target :=
  stream.map fun (name, output) =>
    { path := Path.absolute working (Path.join directory (Name.targetPath name)), name, output }

def firstShared? (earlier : List Target) : List Target → Option (Target × Target)
  | [] => none
  | target :: rest =>
    match earlier.find? fun other => other.path = target.path with
    | some other => some (other, target)
    | none => firstShared? (earlier ++ [target]) rest

/-- Refuses streams of which two outputs are written to one file. Streams without a directory
    are not looked at. -/
def checkTargets (streams : List (List Named)) (directories : List String) :
    SessionOn files Unit := do
  let working := (← get).working
  let targets := (streams.zip directories).flatMap fun (stream, directory) =>
    targetsBelow working stream directory
  match firstShared? [] targets with
  | none => return ()
  | some (first, second) =>
    note [⟨.error, "run", s!"Both {first.output.generator} and {second.output.generator} " ++
      s!"would be written to '{second.path}'."⟩]
    throw (.collision second.name first.output.generator second.output.generator)

def writeOutput (directory : String) (format : Bool) (named : Named) : SessionOn files String := do
  let file := Name.targetPath named.1
  let path := Path.join directory file
  let parent := Path.directory path
  makeDirectory (if parent = "" then "." else parent)
  let source := named.2.render
  if format then
    let formatter := (← get).formatter
    note formatter.log
    writeFile path (formatter.apply source)
  else
    writeFile path source
  return file

def writeStream (directory : String) (format : Bool) (stream : List Named) :
    SessionOn files (List String) := do
  let written ← stream.mapM (writeOutput directory format)
  note [⟨.info, "run", s!"Wrote {written.length} module(s) to '{directory}'."⟩]
  return written

/-- Generates a group and writes each stream to its directory. The result lists the files
    from there, main modules first. -/
def generate (g : Group) (directories : List String) (format : Bool) :
    SessionOn files (List String) := do
  let streams ← resolved g
  match directories with
  | [mainDirectory, companionDirectory] =>
    checkTargets [streams.main, streams.companions] directories
    let main ← writeStream mainDirectory format streams.main
    let companions ← writeStream companionDirectory format streams.companions
    return main ++ companions
  | _ => throw (.outputCount 2 directories.length)

end IdlGen.Session
