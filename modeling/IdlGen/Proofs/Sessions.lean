import IdlGen.Proofs.Outcomes
import IdlGen.Proofs.Tables
import IdlGen.Proofs.Trees
import IdlGen.Session.Generate
import Mathlib.Data.List.Nodup

/-!
Generating a group into directories, as a run on a file system. A refusal leaves the files as they
were (`Quiet`); after the check of the targets, storing the outputs (`storeAll`) changes their
files and no others (`generate_all_or_nothing`).
-/
namespace IdlGen.Session

open Outcome (isSome_toOption run_bind run_pure run_get run_modify run_throw)

variable {α β files : Type} [FileSystem files]

/-! ### Sessions that only log -/

theorem run_ofExcept (outcome : Except Fault α) (world : WorldOn files) :
    (ofExcept outcome).run world = (outcome, world) := rfl

theorem run_note (lines : List LogLine) (world : WorldOn files) :
    (note lines).run world = (.ok (), { world with log := world.log ++ lines }) := rfl

variable {world : WorldOn files} {written tree after : files} {f : α → SessionOn files β}
  {next : α → Except Fault β} {earlier rest : List Target} {working directory : String}
  {entry : String × Named} {entries : List (String × Named)} {stream : List Named}
  {streams : Streams} {directories : List String}

theorem run_makeDirectory {path : String} {made : files}
    (make : FileSystem.makeDirectory world.tree (Path.join world.working path) = .ok made) :
    (makeDirectory path).run world = (.ok (), { world with tree := made }) := by
  simp only [makeDirectory, absolute, run_bind, run_get, run_pure, run_ofExcept, make, run_modify]

theorem run_writeFile {path content : String}
    (write : FileSystem.write world.tree (Path.join world.working path) content = .ok written) :
    (writeFile path content).run world = (.ok (), { world with tree := written }) := by
  simp only [writeFile, absolute, run_bind, run_get, run_pure, run_ofExcept, write, run_modify]

/-- A session has one outcome and changes nothing but the log. -/
def Quiet (m : SessionOn files α) (outcome : Except Fault α) : Prop :=
  ∀ world, ∃ log, m.run world = (outcome, { world with log })

theorem quiet_pure (a : α) : Quiet (pure a : SessionOn files α) (.ok a) :=
  fun world => ⟨world.log, rfl⟩

theorem quiet_ofExcept (outcome : Except Fault α) :
    Quiet (ofExcept outcome : SessionOn files α) outcome := fun world => ⟨world.log, rfl⟩

theorem quiet_note (lines : List LogLine) : Quiet (note lines : SessionOn files Unit) (.ok ()) :=
  fun world => ⟨world.log ++ lines, rfl⟩

theorem Quiet.bind {m : SessionOn files α} {outcome : Except Fault α} (first : Quiet m outcome)
    (rest : ∀ a, Quiet (f a) (next a)) : Quiet (m >>= f) (outcome >>= next) := by
  intro world
  obtain ⟨log, ran⟩ := first world
  rw [run_bind, ran]
  cases outcome with
  | ok a =>
    obtain ⟨later, done⟩ := rest a { world with log }
    exact ⟨later, done⟩
  | error fault => exact ⟨log, rfl⟩

theorem Quiet.mapM {items : List α} (each : ∀ a, Quiet (f a) (next a)) :
    Quiet (items.mapM f) (items.mapM next) := by
  induction items with
  | nil => exact quiet_pure []
  | cons item rest ih =>
    rw [List.mapM_cons, List.mapM_cons]
    exact (each item).bind fun _ => ih.bind fun _ => quiet_pure _

theorem Quiet.foldlM {items : List α} {f : β → α → SessionOn files β} {next : β → α → Except Fault β}
    (each : ∀ b a, Quiet (f b a) (next b a)) (start : β) :
    Quiet (items.foldlM f start) (items.foldlM next start) := by
  induction items generalizing start with
  | nil => exact quiet_pure start
  | cons item rest ih =>
    rw [List.foldlM_cons, List.foldlM_cons]
    exact (each start item).bind ih

theorem quiet_collect (emissions : List (Except Fault Emission)) :
    Quiet (collect emissions : SessionOn files _) (Stream.collect emissions) := by
  refine Quiet.mapM fun emission => (quiet_ofExcept emission).bind fun emission => ?_
  exact (quiet_note emission.log).bind fun _ => quiet_pure _

theorem quiet_schemaStreams (g : Group) (s : Schema) :
    Quiet (schemaStreams g s : SessionOn files _) (Stream.ofSchema g s) := by
  refine (quiet_collect _).bind fun main => (quiet_collect _).bind fun companions => ?_
  exact (quiet_note _).bind fun _ => quiet_pure _

theorem quiet_groupStreams (g : Group) :
    Quiet (groupStreams g : SessionOn files _) (Stream.ofGroup g) := by
  unfold groupStreams Stream.ofGroup
  refine Quiet.foldlM (fun streams entry => ?_) _
  exact (quiet_schemaStreams g entry.2).bind fun _ => quiet_pure _

theorem quiet_unwrap (stream : List Named) :
    Quiet (unwrap stream : SessionOn files _) (Stream.unwrap stream) :=
  (quiet_note _).bind fun _ => quiet_ofExcept _

theorem quiet_resolved (g : Group) :
    Quiet (resolved g : SessionOn files _) (Stream.resolved g) := by
  refine (quiet_groupStreams g).bind fun streams => (quiet_unwrap _).bind fun main => ?_
  exact (quiet_unwrap _).bind fun companions => quiet_pure _

/-- The files of both streams below their directories, in the order of writing. -/
def targetsOf (working : String) (streams : Streams) (directories : List String) : List Target :=
  ([streams.main, streams.companions].zip directories).flatMap fun (stream, directory) =>
    targetsBelow working stream directory

theorem firstShared?_eq_some {first second : Target}
    (found : firstShared? earlier rest = some (first, second)) :
    [first, second].Sublist (earlier ++ rest) ∧ first.path = second.path := by
  induction rest generalizing earlier with
  | nil => cases found
  | cons target rest ih =>
    rw [firstShared?] at found
    split at found
    · rename_i other known
      cases found
      refine ⟨?_, by simpa using List.find?_some known⟩
      exact (List.singleton_sublist.mpr (List.mem_of_find?_eq_some known)).append
        (List.singleton_sublist.mpr (List.mem_cons_self ..))
    · rw [List.append_cons]
      exact ih found

theorem firstShared?_eq_none_iff (distinct : (earlier.map (·.path)).Nodup) :
    firstShared? earlier rest = none ↔ ((earlier ++ rest).map (·.path)).Nodup := by
  induction rest generalizing earlier with
  | nil => simpa [firstShared?] using distinct
  | cons target rest ih =>
    rw [firstShared?]
    split
    · rename_i other known
      have same : other.path = target.path := by simpa using List.find?_some known
      have member : target.path ∈ earlier.map (·.path) :=
        same ▸ List.mem_map_of_mem (List.mem_of_find?_eq_some known)
      simp only [reduceCtorEq, false_iff, List.map_append, List.map_cons]
      intro all
      exact (List.nodup_append'.mp all).2.2 member (List.mem_cons_self ..)
    · rename_i fresh
      have away : target.path ∉ earlier.map (·.path) := by
        intro member
        obtain ⟨other, known, same⟩ := List.mem_map.mp member
        simpa [same] using List.find?_eq_none.mp fresh other known
      have step : earlier ++ target :: rest = (earlier ++ [target]) ++ rest := by simp
      rw [step]
      apply ih
      rw [List.map_append]
      exact distinct.append (List.nodup_singleton _) (by simpa using away)

/-! ### Writing -/

/-- The outputs of both streams with their directories, in the order of writing. -/
def planOf (streams : Streams) (directories : List String) : List (String × Named) :=
  ([streams.main, streams.companions].zip directories).flatMap fun (stream, directory) =>
    stream.map (directory, ·)

def pathOf (entry : String × Named) : String := Path.join entry.1 (Name.targetPath entry.2.1)

def parentOf (entry : String × Named) : String :=
  if Path.directory (pathOf entry) = "" then "." else Path.directory (pathOf entry)

/-- Files after an output is written, if its directory can be made and its file opened. -/
def storeOutput (working : String) (tree : files) (entry : String × Named) :
    Except Fault files := do
  let made ← FileSystem.makeDirectory tree (Path.join working (parentOf entry))
  FileSystem.write made (Path.join working (pathOf entry)) entry.2.2.render

def storeAll (working : String) (tree : files) (entries : List (String × Named)) :
    Except Fault files :=
  entries.foldlM (storeOutput working) tree

def placeOf (working : String) (entry : String × Named) : Place :=
  Place.ofPath (Path.join working (pathOf entry))

theorem storeOutput_eq_ok :
    storeOutput working tree entry = .ok written ↔
      ∃ made, FileSystem.makeDirectory tree (Path.join working (parentOf entry)) = .ok made ∧
        FileSystem.write made (Path.join working (pathOf entry)) entry.2.2.render = .ok written :=
  Outcome.bind_eq_ok

theorem storeAll_cons {rest : List (String × Named)} :
    storeAll working tree (entry :: rest) = .ok after ↔
      ∃ written, storeOutput working tree entry = .ok written ∧
        storeAll working written rest = .ok after := by
  rw [storeAll, List.foldlM_cons, Outcome.bind_eq_ok]
  rfl

theorem storeAll_append {first second : List (String × Named)} :
    storeAll working tree (first ++ second) = .ok after ↔
      ∃ between, storeAll working tree first = .ok between ∧
        storeAll working between second = .ok after := by
  rw [storeAll, List.foldlM_append, Outcome.bind_eq_ok]
  rfl

theorem run_writeOutput {named : Named}
    (stored : storeOutput world.working world.tree (directory, named) = .ok written) :
    (writeOutput directory false named).run world =
      (.ok (Name.targetPath named.1), { world with tree := written }) := by
  obtain ⟨made, make, write⟩ := storeOutput_eq_ok.mp stored
  have steps : (writeOutput directory false named : SessionOn files String) = (do
      makeDirectory (parentOf (directory, named))
      writeFile (pathOf (directory, named)) named.2.render
      return Name.targetPath named.1) := rfl
  have writes := @run_writeFile _ _ { world with tree := made } _ _ _ write
  simp only [steps, run_bind, run_makeDirectory make, writes, run_pure]

theorem run_mapM_writeOutput
    (stored : storeAll world.working world.tree (stream.map (directory, ·)) = .ok after) :
    (stream.mapM (writeOutput directory false)).run world =
      (.ok (stream.map fun named => Name.targetPath named.1), { world with tree := after }) := by
  induction stream generalizing world with
  | nil =>
    cases stored
    rfl
  | cons named rest ih =>
    obtain ⟨written, first, later⟩ := storeAll_cons.mp stored
    have following := @ih { world with tree := written } later
    simp only [List.mapM_cons, run_bind, run_writeOutput first, following, run_pure,
      List.map_cons]

theorem run_writeStream
    (stored : storeAll world.working world.tree (stream.map (directory, ·)) = .ok after) :
    ∃ log, (writeStream directory false stream).run world =
      (.ok (stream.map fun named => Name.targetPath named.1),
        { world with tree := after, log }) := by
  simp only [writeStream, run_bind, run_mapM_writeOutput stored, run_note, run_pure]
  exact ⟨_, rfl⟩

theorem run_checkTargets_none
    (apart : firstShared? [] (targetsOf world.working streams directories) = none) :
    (checkTargets [streams.main, streams.companions] directories).run world = (.ok (), world) := by
  simp only [targetsOf] at apart
  simp only [checkTargets, run_bind, run_get, apart, run_pure]

theorem run_checkTargets_some {first second : Target}
    (shared : firstShared? [] (targetsOf world.working streams directories) =
      some (first, second)) :
    ∃ log, (checkTargets [streams.main, streams.companions] directories).run world =
      (.error (.collision second.name first.output.generator second.output.generator),
        { world with log }) := by
  simp only [targetsOf] at shared
  simp only [checkTargets, run_bind, run_get, shared, run_note, run_throw]
  exact ⟨_, rfl⟩

/-- Every output is generated, every name has one output, there is a directory for each
    stream, and no two outputs are written to one file. -/
structure Accepted (g : Group) (directories : List String) (working : String) (streams : Streams) :
    Prop where
  resolved : Stream.resolved g = .ok streams
  both : directories.length = 2
  apart : ((targetsOf working streams directories).map (·.path)).Nodup

/-- The faults with which a group is refused. -/
inductive Refusal (g : Group) (directories : List String) (working : String) : Fault → Prop where
  | generation {fault : Fault} (failed : Stream.ofGroup g = .error fault) :
      Refusal g directories working fault
  | mainNames {streams : Streams} {c : Collision} (generated : Stream.ofGroup g = .ok streams)
      (collides : Stream.resolve streams.main = .error c) : Refusal g directories working c.fault
  | companionNames {streams : Streams} {main : List Named} {c : Collision}
      (generated : Stream.ofGroup g = .ok streams)
      (mainDone : Stream.resolve streams.main = .ok main)
      (collides : Stream.resolve streams.companions = .error c) :
      Refusal g directories working c.fault
  | directoryCount {streams : Streams} (resolved : Stream.resolved g = .ok streams)
      (wrong : directories.length ≠ 2) :
      Refusal g directories working (.outputCount 2 directories.length)
  | sharedFile {streams : Streams} {first second : Target}
      (resolved : Stream.resolved g = .ok streams) (both : directories.length = 2)
      (order : [first, second].Sublist (targetsOf working streams directories))
      (same : first.path = second.path) :
      Refusal g directories working
        (.collision second.name first.output.generator second.output.generator)

theorem refusal_of_resolved {g : Group} {fault : Fault}
    (failed : Stream.resolved g = .error fault) : Refusal g directories working fault := by
  unfold Stream.resolved at failed
  cases generated : Stream.ofGroup g with
  | error cause =>
    rw [generated] at failed
    cases failed
    exact .generation generated
  | ok streams =>
    rw [generated] at failed
    cases mainDone : Stream.resolve streams.main with
    | error c =>
      simp only [bind, Except.bind, Stream.unwrap, mainDone, Except.mapError] at failed
      cases failed
      exact .mainNames generated mainDone
    | ok main =>
      cases companionsDone : Stream.resolve streams.companions with
      | error c =>
        simp only [bind, Except.bind, Stream.unwrap, mainDone, companionsDone,
          Except.mapError] at failed
        cases failed
        exact .companionNames generated mainDone companionsDone
      | ok companions =>
        simp only [bind, Except.bind, Stream.unwrap, mainDone, companionsDone, Except.mapError,
          pure, Except.pure] at failed
        cases failed

theorem run_generate_cases (g : Group) (directories : List String) (format : Bool)
    (world : WorldOn files) :
    (∃ fault log, Refusal g directories world.working fault ∧
      (generate g directories format).run world = (.error fault, { world with log })) ∨
    ∃ streams log mainDirectory companionDirectory,
      Accepted g directories world.working streams ∧
      directories = [mainDirectory, companionDirectory] ∧
      (generate g directories format).run world =
        (do
          let main ← writeStream mainDirectory format streams.main
          let companions ← writeStream companionDirectory format streams.companions
          return main ++ companions : SessionOn files (List String)).run { world with log } := by
  obtain ⟨log, ran⟩ := quiet_resolved g world
  cases outcome : Stream.resolved g with
  | error fault =>
    refine .inl ⟨fault, log, refusal_of_resolved outcome, ?_⟩
    rw [generate, run_bind, ran, outcome]
  | ok streams =>
    rw [outcome] at ran
    by_cases both : directories.length = 2
    · obtain ⟨mainDirectory, companionDirectory, rfl⟩ := List.length_eq_two.mp both
      cases shared : firstShared? [] (targetsOf world.working streams
          [mainDirectory, companionDirectory]) with
      | none =>
        right
        have apart := (@firstShared?_eq_none_iff [] _ List.nodup_nil).mp shared
        refine ⟨streams, log, mainDirectory, companionDirectory, ⟨outcome, both, apart⟩, rfl, ?_⟩
        have checked := @run_checkTargets_none _ _ { world with log } _ _ shared
        simp only [generate, run_bind, ran, checked]
      | some pair =>
        obtain ⟨first, second⟩ := pair
        obtain ⟨order, same⟩ := firstShared?_eq_some shared
        obtain ⟨later, checked⟩ := @run_checkTargets_some _ _ { world with log } _ _ _ _ shared
        refine .inl ⟨_, later, .sharedFile outcome both order same, ?_⟩
        simp only [generate, run_bind, ran, checked]
    · refine .inl ⟨_, log, .directoryCount outcome both, ?_⟩
      simp only [generate, run_bind, ran]
      match directories with
      | [] => rfl
      | [_] => rfl
      | [_, _] => exact absurd rfl both
      | _ :: _ :: _ :: _ => rfl

theorem accepted_of_generate {g : Group} {format : Bool} {written : List String}
    (returned : ((generate g directories format).run world).1 = .ok written) :
    ∃ streams, Accepted g directories world.working streams := by
  rcases run_generate_cases g directories format world with
    ⟨fault, log, -, ran⟩ | ⟨streams, log, mainDirectory, companionDirectory, accepted, -, -⟩
  · rw [ran] at returned
    cases returned
  · exact ⟨streams, accepted⟩

def targetOf (working : String) (entry : String × Named) : Target :=
  { path := Path.absolute working (pathOf entry), name := entry.2.1, output := entry.2.2 }

theorem path_targetOf (working : String) (entry : String × Named) :
    (targetOf working entry).path = Path.normalize (Path.join working (pathOf entry)) := by
  rw [targetOf, Path.absolute]

theorem targetsOf_eq_map (working : String) (streams : Streams) (directories : List String) :
    targetsOf working streams directories =
      (planOf streams directories).map (targetOf working) := by
  simp only [targetsOf, planOf, List.map_flatMap, List.map_map]
  rfl

/-! ### Files by their paths -/

/-- Files by their normal paths. Every directory is there, and every file can be opened. -/
structure FileMap where
  texts : Table String := []
deriving Repr, Inhabited

def FileMap.text? (files : FileMap) (path : String) : Option String := files.texts.get? path

instance : FileSystem FileMap where
  makeDirectory files _ := .ok files
  write files path content := .ok ⟨files.texts.put (Path.normalize path) content⟩

theorem storeOutput_fileMap (working : String) (files : FileMap) (entry : String × Named) :
    storeOutput working files entry =
      .ok ⟨files.texts.put (targetOf working entry).path entry.2.2.render⟩ := by
  rw [path_targetOf]
  rfl

/-- On a map all outputs can be stored. The files of the outputs hold their texts, unless two
    outputs share one, and no other file changes. -/
theorem storeAll_fileMap (working : String) (files : FileMap) (entries : List (String × Named)) :
    ∃ after, storeAll working files entries = .ok after ∧
      (∀ path ∉ entries.map fun entry => (targetOf working entry).path,
        after.text? path = files.text? path) ∧
      ((entries.map fun entry => (targetOf working entry).path).Nodup →
        ∀ entry ∈ entries, after.text? (targetOf working entry).path = some entry.2.2.render) := by
  induction entries generalizing files with
  | nil => exact ⟨files, rfl, by simp, by simp⟩
  | cons entry rest ih =>
    obtain ⟨after, stored, frame, texts⟩ :=
      ih ⟨files.texts.put (targetOf working entry).path entry.2.2.render⟩
    refine ⟨after, storeAll_cons.mpr ⟨_, storeOutput_fileMap .., stored⟩, ?_, ?_⟩
    · intro path away
      rw [List.map_cons, List.mem_cons, not_or] at away
      rw [frame path away.2, FileMap.text?, Table.get?_put, if_neg away.1]
      rfl
    · intro distinct
      rw [List.map_cons, List.nodup_cons] at distinct
      refine List.forall_mem_cons.mpr ⟨?_, texts distinct.2⟩
      rw [frame _ distinct.1, FileMap.text?, Table.get?_put, if_pos rfl]

/-- Generation is refused and leaves the files as they were, or it returns the paths of the main
    outputs and then those of the companions; then the file of every output holds the text of
    that output, and every other file what it held before. -/
theorem generate_all_or_nothing (g : Group) (directories : List String)
    (world : WorldOn FileMap) :
    (∃ fault, Refusal g directories world.working fault ∧
      ((generate g directories false).run world).1 = .error fault ∧
      ((generate g directories false).run world).2.tree = world.tree) ∨
    ∃ streams, Accepted g directories world.working streams ∧
      ((generate g directories false).run world).1 =
        .ok ((streams.main ++ streams.companions).map fun named => Name.targetPath named.1) ∧
      (∀ target ∈ targetsOf world.working streams directories,
        ((generate g directories false).run world).2.tree.text? target.path =
          some target.output.render) ∧
      ∀ path, (∀ target ∈ targetsOf world.working streams directories, path ≠ target.path) →
        ((generate g directories false).run world).2.tree.text? path = world.tree.text? path := by
  rcases run_generate_cases g directories false world with
    ⟨fault, log, refusal, ran⟩ |
      ⟨streams, log, mainDirectory, companionDirectory, accepted, rfl, ran⟩
  · exact .inl ⟨fault, refusal, by rw [ran], by rw [ran]⟩
  · right
    have plan : planOf streams [mainDirectory, companionDirectory] =
        streams.main.map (mainDirectory, ·) ++ streams.companions.map (companionDirectory, ·) := by
      simp [planOf]
    obtain ⟨after, stored, frame, texts⟩ := storeAll_fileMap world.working world.tree
      (planOf streams [mainDirectory, companionDirectory])
    obtain ⟨between, first, second⟩ := storeAll_append.mp (plan ▸ stored)
    obtain ⟨mainLog, mainRun⟩ := @run_writeStream _ _ { world with log } _ _ _ first
    obtain ⟨lastLog, companionsRun⟩ :=
      @run_writeStream _ _ { world with tree := between, log := mainLog } _ _ _ second
    have ends : (generate g [mainDirectory, companionDirectory] false).run world =
        (.ok ((streams.main ++ streams.companions).map fun named => Name.targetPath named.1),
          { world with tree := after, log := lastLog }) := by
      simp only [ran, run_bind, mainRun, companionsRun, run_pure, List.map_append]
    have apart := accepted.apart
    simp only [targetsOf_eq_map, List.map_map, Function.comp_def] at apart
    refine ⟨streams, accepted, by rw [ends], ?_, fun path away => ?_⟩
    · rw [ends, targetsOf_eq_map, List.forall_mem_map]
      exact texts apart
    · rw [ends]
      refine frame path fun member => ?_
      obtain ⟨entry, known, same⟩ := List.mem_map.mp member
      rw [targetsOf_eq_map] at away
      exact away _ (List.mem_map_of_mem known) same.symm

def pointGroup : Group where
  schemas := [(.text "geo", {
    module := .text "geo"
    structs := [("Point", { kind := .struct, name := "geo.Point", fields := [] })] })]

def olderFiles : WorldOn FileMap where
  working := "/w"
  tree := { texts := [("/w/out/point.py", "older"), ("//w/out/point.py", "kept")] }

/-- The older text of the main module is replaced. Two slashes at the start of a path make it
    another path. -/
theorem point_all_or_nothing :
    ∃ streams, Accepted pointGroup ["out", "./out/../out"] olderFiles.working streams ∧
      (∀ target ∈ targetsOf olderFiles.working streams ["out", "./out/../out"],
        ((generate pointGroup ["out", "./out/../out"] false).run olderFiles).2.tree.text?
          target.path = some target.output.render) ∧
      ((generate pointGroup ["out", "./out/../out"] false).run olderFiles).2.tree.text?
        "//w/out/point.py" = some "kept" := by
  have checked : ((generate pointGroup ["out", "./out/../out"] false).run
        olderFiles).1.toOption.isSome ∧
      ∀ streams ∈ (Stream.resolved pointGroup).toOption,
        ∀ target ∈ targetsOf olderFiles.working streams ["out", "./out/../out"],
          "//w/out/point.py" ≠ target.path := by
    decide +kernel
  obtain ⟨returns, apart⟩ := checked
  rcases generate_all_or_nothing pointGroup ["out", "./out/../out"] olderFiles with
    ⟨fault, -, refused, -⟩ | ⟨streams, accepted, -, texts, frame⟩
  · rw [refused] at returns
    cases returns
  · refine ⟨streams, accepted, texts, ?_⟩
    rw [frame _ (apart streams (Outcome.toOption_eq_some.mpr accepted.resolved))]
    rfl

end IdlGen.Session
