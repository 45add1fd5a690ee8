import IdlGen.Proofs.ModulePaths
import IdlGen.Proofs.Programs

/-!
The files that generation writes, beside those that are announced. Both lists agree wherever
generation returns, and a file lies below the directory of its stream, unless a segment of its
name begins with a slash (`written_below_iff`).
-/
namespace IdlGen

open Outcome

variable {after world : World} {path directory : String} {format : Bool} {stream : List Named}

theorem eraseDups_map {α β : Type} [BEq α] [LawfulBEq α] [BEq β] [LawfulBEq β] {f : α → β}
    {items : List α} (apart : (items.eraseDups.map f).Nodup) :
    (items.map f).eraseDups = items.eraseDups.map f := by
  induction items using List.reverseRecOn with
  | nil => rfl
  | append_singleton items item ih =>
    rw [List.map_append, List.map_singleton]
    by_cases known : item ∈ items
    · rw [eraseDups_concat_of_mem known] at apart ⊢
      rw [eraseDups_concat_of_mem (List.mem_map_of_mem known), ih apart]
    · rw [eraseDups_concat_of_not_mem known, List.map_append, List.map_singleton] at apart ⊢
      obtain ⟨before, -, disjoint⟩ := List.nodup_append'.mp apart
      have fresh : f item ∉ items.map f := by
        intro member
        obtain ⟨other, inside, same⟩ := List.mem_map.mp member
        have earlier : f item ∈ items.eraseDups.map f :=
          same ▸ List.mem_map_of_mem (List.mem_eraseDups.mpr inside)
        exact disjoint earlier (List.mem_singleton_self _)
      rw [eraseDups_concat_of_not_mem fresh, ih before]

namespace Session

/-- Files stand at the places, and all other files are as before. -/
structure WritesAt (before after : World) (places : List Place) : Prop where
  working : after.working = before.working
  written : ∀ place ∈ places, (after.tree.textAt place).isSome
  frame : ∀ place ∉ places, after.tree.textAt place = before.tree.textAt place

theorem writesAt_nil {before : World} (working : after.working = before.working)
    (texts : ∀ place, after.tree.textAt place = before.tree.textAt place) :
    WritesAt before after [] where
  working := working
  written := by simp
  frame := fun place _ => texts place

theorem WritesAt.append {first second third : World} {places more : List Place}
    (earlier : WritesAt first second places) (later : WritesAt second third more) :
    WritesAt first third (places ++ more) := by
  refine ⟨later.working.trans earlier.working, fun place member => ?_, fun place away => ?_⟩
  · by_cases again : place ∈ more
    · exact later.written place again
    · rw [later.frame place again]
      exact earlier.written place ((List.mem_append.mp member).resolve_right again)
  · rw [List.mem_append, not_or] at away
    rw [later.frame place away.2, earlier.frame place away.1]

section
theorem writesAt_note {lines : List LogLine} (ran : (note lines).run world = (.ok (), after)) :
    WritesAt world after [] := by
  cases ran
  exact writesAt_nil rfl fun _ => rfl

theorem writesAt_makeDirectory (ran : (makeDirectory path).run world = (.ok (), after)) :
    WritesAt world after [] := by
  simp only [makeDirectory, absolute, run_bind, run_get, run_pure, run_ofExcept, run_modify] at ran
  cases made : FileSystem.makeDirectory world.tree (Path.join world.working path) with
  | error fault =>
    rw [made] at ran
    cases ran
  | ok tree =>
    rw [made] at ran
    cases ran
    exact writesAt_nil rfl (FileTree.textAt_makeDirectory made)

theorem writesAt_writeFile {content : String}
    (ran : (writeFile path content).run world = (.ok (), after)) :
    WritesAt world after [Place.ofPath (Path.join world.working path)] := by
  simp only [writeFile, absolute, run_bind, run_get, run_pure, run_ofExcept, run_modify] at ran
  cases written : FileSystem.write world.tree (Path.join world.working path) content with
  | error fault =>
    rw [written] at ran
    cases ran
  | ok tree =>
    rw [written] at ran
    cases ran
    refine ⟨rfl, fun place member => ?_, fun place away => ?_⟩
    · rw [List.mem_singleton.mp member, FileTree.textAt_write_self written]
      rfl
    · exact FileTree.textAt_write_other written fun same => away (List.mem_singleton.mpr same)

variable {files : List String}

theorem writesAt_output {file : String} {named : Named}
    (ran : (writeOutput directory format named).run world = (.ok file, after)) :
    file = Name.targetPath named.1 ∧
      WritesAt world after [placeOf world.working (directory, named)] := by
  obtain ⟨_, second, made, ran⟩ := run_bind_ok ran
  have making := writesAt_makeDirectory made
  cases format with
  | false =>
    obtain ⟨_, third, wrote, ran⟩ := run_bind_ok ran
    rw [run_pure, Prod.mk.injEq, Except.ok.injEq] at ran
    obtain ⟨rfl, rfl⟩ := ran
    have writing := writesAt_writeFile wrote
    rw [making.working] at writing
    exact ⟨rfl, making.append writing⟩
  | true =>
    obtain ⟨_, _, got, ran⟩ := run_bind_ok ran
    cases got
    obtain ⟨_, fourth, noted, ran⟩ := run_bind_ok ran
    have noting := making.append (writesAt_note noted)
    obtain ⟨_, third, wrote, ran⟩ := run_bind_ok ran
    rw [run_pure, Prod.mk.injEq, Except.ok.injEq] at ran
    obtain ⟨rfl, rfl⟩ := ran
    have writing := writesAt_writeFile wrote
    rw [noting.working] at writing
    exact ⟨rfl, noting.append writing⟩

theorem writesAt_outputs
    (ran : (stream.mapM (writeOutput directory format)).run world = (.ok files, after)) :
    files = stream.map (fun named => Name.targetPath named.1) ∧
      WritesAt world after (stream.map fun named => placeOf world.working (directory, named)) := by
  induction stream generalizing world files with
  | nil =>
    cases ran
    exact ⟨rfl, writesAt_nil rfl fun _ => rfl⟩
  | cons named rest ih =>
    rw [List.mapM_cons] at ran
    obtain ⟨file, second, first, ran⟩ := run_bind_ok ran
    obtain ⟨others, third, later, ran⟩ := run_bind_ok ran
    cases ran
    obtain ⟨rfl, wrote⟩ := writesAt_output first
    obtain ⟨rfl, writes⟩ := ih later
    rw [wrote.working] at writes
    exact ⟨rfl, wrote.append writes⟩

theorem writesAt_stream
    (ran : (writeStream directory format stream).run world = (.ok files, after)) :
    files = stream.map (fun named => Name.targetPath named.1) ∧
      WritesAt world after (stream.map fun named => placeOf world.working (directory, named)) := by
  obtain ⟨_, second, written, ran⟩ := run_bind_ok ran
  obtain ⟨_, third, noted, ran⟩ := run_bind_ok ran
  cases ran
  obtain ⟨rfl, writes⟩ := writesAt_outputs written
  have both := writes.append (writesAt_note noted)
  rw [List.append_nil] at both
  exact ⟨rfl, both⟩

end

theorem nodup_targetPath {working : String}
    (apart : ((targetsBelow working stream directory).map (·.path)).Nodup) :
    (stream.map fun named => Name.targetPath named.1).Nodup := by
  have through : (targetsBelow working stream directory).map (·.path) =
      (stream.map fun named => Name.targetPath named.1).map fun file =>
        Path.absolute working (Path.join directory file) := by
    simp [targetsBelow]
  rw [through] at apart
  exact apart.of_map

end Session

theorem Stream.Folded.files {units : List Named} (folded : Stream.Folded stream units)
    (apart : (units.map fun named => Name.targetPath named.1).Nodup) :
    firstOccurrences (stream.map fun named => Name.targetPath named.1) =
      units.map fun named => Name.targetPath named.1 := by
  have names : units.map (fun named => Name.targetPath named.1) =
      (stream.map (·.1)).eraseDups.map Name.targetPath := by
    rw [← folded.keys, Table.keys, List.map_map]
    rfl
  rw [names] at apart ⊢
  rw [firstOccurrences_eq, ← eraseDups_map apart, List.map_map]
  rfl

namespace Session

theorem writesAt_generate {g : Group} {directories : List String} {written : List String}
    (returned : ((generate g directories format).run world).1 = .ok written) :
    ∃ streams mainDirectory companionDirectory, directories = [mainDirectory, companionDirectory] ∧
      Accepted g directories world.working streams ∧
      written = (streams.main.map fun named => Name.targetPath named.1) ++
        (streams.companions.map fun named => Name.targetPath named.1) ∧
      WritesAt world ((generate g directories format).run world).2
        ((streams.main.map fun named => placeOf world.working (mainDirectory, named)) ++
          streams.companions.map fun named =>
            placeOf world.working (companionDirectory, named)) := by
  rcases run_generate_cases g directories format world with
    ⟨fault, log, -, ran⟩ |
      ⟨streams, log, mainDirectory, companionDirectory, accepted, rfl, ran⟩
  · rw [ran] at returned
    cases returned
  · generalize (generate g [mainDirectory, companionDirectory] format).run world = ended
      at returned ran ⊢
    obtain ⟨outcome, after⟩ := ended
    cases returned
    obtain ⟨_, second, first, ran⟩ := run_bind_ok ran.symm
    obtain ⟨_, third, last, ran⟩ := run_bind_ok ran
    cases ran
    obtain ⟨rfl, mainWrites⟩ := writesAt_stream first
    obtain ⟨rfl, companionWrites⟩ := writesAt_stream last
    have begun : WritesAt world { world with log } [] := writesAt_nil rfl fun _ => rfl
    rw [mainWrites.working] at companionWrites
    exact ⟨streams, mainDirectory, companionDirectory, rfl, accepted, rfl,
      begun.append (mainWrites.append companionWrites)⟩

/-- If generation returns, it returns the announced files of the main outputs and then those of the
    companions, each once and in the order of their first occurrence. Below the directory of its
    stream every file has a text, and no other text is new. -/
theorem generate_returns_targets {g : Group} {directories : List String} {format : Bool}
    {world : World} {written : List String}
    (returned : ((generate g directories format).run world).1 = .ok written) :
    ∃ mainDirectory companionDirectory raw targets companions,
      directories = [mainDirectory, companionDirectory] ∧
      Stream.ofGroup g = .ok raw ∧ Stream.targets g = .ok targets ∧
      companions = firstOccurrences (raw.companions.map fun named => Name.targetPath named.1) ∧
      written = targets ++ companions ∧ targets.Nodup ∧ companions.Nodup ∧
      WritesAt world ((generate g directories format).run world).2
        ((targets.map fun file => Place.ofPath (Path.join world.working
            (Path.join mainDirectory file))) ++
          companions.map fun file => Place.ofPath (Path.join world.working
            (Path.join companionDirectory file))) := by
  obtain ⟨streams, mainDirectory, companionDirectory, rfl, accepted, rfl, writes⟩ :=
    writesAt_generate returned
  obtain ⟨raw, generated, mainFolded, companionsFolded⟩ := Stream.resolved_eq_ok accepted.resolved
  have apart := accepted.apart
  simp only [targetsOf, List.zip_cons_cons, List.zip_nil_right, List.flatMap_cons,
    List.flatMap_nil, List.append_nil, List.map_append] at apart
  obtain ⟨mainApart, companionsApart, -⟩ := List.nodup_append'.mp apart
  have mainOnce := nodup_targetPath mainApart
  have companionsOnce := nodup_targetPath companionsApart
  have announced : Stream.targets g =
      .ok (streams.main.map fun named => Name.targetPath named.1) := by
    rw [Stream.targets, generated, ← mainFolded.files mainOnce]
    rfl
  refine ⟨mainDirectory, companionDirectory, raw, _, _, rfl, generated, announced,
    (companionsFolded.files companionsOnce).symm, rfl, mainOnce, companionsOnce, ?_⟩
  simpa only [List.map_map, Function.comp_def, placeOf, pathOf] using writes

def olderWorld : World where
  working := "/w"
  tree := { nodes := [(["w"], .directory), (["out", "w"], .directory),
    (["point.py", "out", "w"], .file "older"), (["notes", "out", "w"], .file "kept")] }

def sharedNameGroup : Group where
  schemas := [(.text "dot", {
    module := .text "dot"
    structs := [("Dot", { kind := .struct, name := "dot.Dot", fields := [] })]
    constants := [("N", { name := "dot.N", type := .primitive .i32, value := .int 1 })] })]

def sharedNameStreams : Streams :=
  (Stream.ofGroup sharedNameGroup).toOption.get (by decide +kernel)

theorem shared_name_returns_targets :
    ∃ raw, Stream.ofGroup sharedNameGroup = .ok raw ∧ raw.main.map (·.1) = ["Dot", "Dot"] ∧
      Stream.targets sharedNameGroup = .ok ["dot.py"] ∧
      ((generate sharedNameGroup ["out", "out"] true).run olderWorld).1 =
        .ok (["dot.py"] ++ ["dot_test_data.py"]) ∧
      WritesAt olderWorld ((generate sharedNameGroup ["out", "out"] true).run olderWorld).2
        [["dot.py", "out", "w"], ["dot_test_data.py", "out", "w"]] := by
  have returned : ((generate sharedNameGroup ["out", "out"] true).run olderWorld).1 =
      .ok ["dot.py", "dot_test_data.py"] := toOption_eq_some.mp (by decide +kernel)
  have announced : Stream.targets sharedNameGroup = .ok ["dot.py"] :=
    toOption_eq_some.mp (by decide +kernel)
  have known : Stream.ofGroup sharedNameGroup = .ok sharedNameStreams :=
    toOption_eq_some.mp (Option.some_get _).symm
  have names : sharedNameStreams.main.map (·.1) = ["Dot", "Dot"] := by decide +kernel
  obtain ⟨mainDirectory, companionDirectory, raw, targets, companions, directories, generated,
    listed, -, whole, -, -, writes⟩ := generate_returns_targets returned
  cases directories
  cases announced.symm.trans listed
  obtain rfl : ["dot_test_data.py"] = companions := (List.cons.inj whole).2
  cases known.symm.trans generated
  refine ⟨sharedNameStreams, known, names, announced, returned, ?_⟩
  have places : ["dot.py", "dot_test_data.py"].map (fun file =>
      Place.ofPath (Path.join olderWorld.working (Path.join "out" file))) =
        [["dot.py", "out", "w"], ["dot_test_data.py", "out", "w"]] := by decide +kernel
  rwa [← List.map_append, List.singleton_append, places] at writes

end Session

/-- A place lies in a directory, at any depth. -/
def Place.Below (place directory : Place) : Prop := ∃ names, names ≠ [] ∧ place = names ++ directory

namespace Path

theorem isAbsolute_joinAll (segments : List String) :
    isAbsolute (joinAll segments) = segments.any isAbsolute := by
  have step (first : String) (rest : List String) :
      isAbsolute (rest.foldl join first) = (first :: rest).any isAbsolute := by
    induction rest generalizing first with
    | nil => simp
    | cons next rest ih => rw [List.foldl_cons, ih]; simp [isAbsolute_join_eq, Bool.or_assoc]
  cases segments with
  | nil => rfl
  | cons first rest => exact step first rest

theorem not_mem_joinAll {x : Char} (other : x ≠ '/') {segments : List String}
    (free : ∀ segment ∈ segments, x ∉ segment.toList) : x ∉ (joinAll segments).toList := by
  have step {first : String} {rest : List String} (here : x ∉ first.toList)
      (later : ∀ segment ∈ rest, x ∉ segment.toList) : x ∉ (rest.foldl join first).toList := by
    induction rest generalizing first with
    | nil => exact here
    | cons next rest ih =>
      obtain ⟨second, later⟩ := List.forall_mem_cons.mp later
      refine ih ?_ later
      unfold join
      split
      · exact second
      · split <;> simp [here, second, other]
  cases segments with
  | nil => simp [joinAll]
  | cons first rest =>
    obtain ⟨here, later⟩ := List.forall_mem_cons.mp free
    exact step here later

end Path

namespace Name

theorem isAbsolute_targetPath (output : String) :
    Path.isAbsolute (targetPath output) = (Text.split '.' output).any Path.isAbsolute := by
  have joined : (Text.split '.' output).any Path.isAbsolute =
      Path.isAbsolute (Path.joinAll (Text.split '.' (modulePath output))) := by
    have kept : Path.isAbsolute ∘ underscore = Path.isAbsolute := by
      funext segment
      rw [Function.comp_apply, Bool.eq_iff_iff]
      exact isAbsolute_underscore segment
    rw [Path.isAbsolute_joinAll, split_modulePath, List.any_map, kept]
  rw [joined, targetPath]
  rcases eq_or_ne (Path.joinAll (Text.split '.' (modulePath output))) "" with empty | filled
  · rw [empty]
    decide
  · rw [Path.isAbsolute_append filled]

theorem below_targetPath {output : String}
    (relative : Path.isAbsolute (targetPath output) = false) :
    (Place.ofPath (Path.join directory (targetPath output))).Below (Place.ofPath directory) := by
  have dots : '.' ∉ (Path.joinAll (Text.split '.' (modulePath output))).toList :=
    Path.not_mem_joinAll (by decide) fun _ known => Text.not_mem_of_mem_split known
  have ending : '/' ∉ sourceEnding.toList := by decide
  obtain ⟨front, piece, whole, longer⟩ := Text.split_append ending
    (Path.joinAll (Text.split '.' (modulePath output)))
  have free (name : String) (known : name ∈ front ++ [piece]) :
      '.' ∉ name.toList ∧ '/' ∉ name.toList := by
    rw [← whole] at known
    refine ⟨fun inside => dots ?_, Text.not_mem_of_mem_split known⟩
    obtain ⟨chars, cut, rfl⟩ := List.mem_map.mp known
    exact Text.mem_of_mem_splitAt cut (by simpa using inside)
  have step (kept : Place) : ∃ names, front.foldl (Path.normalStep true) kept = names ++ kept := by
    refine Place.foldl_down fun name known => ?_
    obtain ⟨dots, slashes⟩ := free name (List.mem_append_left _ known)
    refine or_iff_not_imp_left.mpr fun filled => ⟨filled, ?_, ?_, slashes⟩ <;>
      · rintro rfl
        exact dots (by decide)
  have last : Place.Proper (piece ++ sourceEnding) := by
    have longer {name : String} (short : name.toList.length < 3) : piece ++ sourceEnding ≠ name := by
      rintro rfl
      have ending : sourceEnding.toList.length = 3 := by decide
      rw [String.toList_append, List.length_append] at short
      omega
    refine ⟨longer (by decide), longer (by decide), longer (by decide), ?_⟩
    simp [sourceEnding, (free piece (by simp)).2]
  rw [Path.ofPath_join relative, targetPath, longer, List.foldl_append, List.foldl_cons,
    List.foldl_nil, Place.normalStep_proper last]
  obtain ⟨names, went⟩ := step (Place.ofPath directory)
  exact ⟨_ :: names, List.cons_ne_nil _ _, by rw [went, List.cons_append]⟩

end Name

namespace Session

theorem below_placeOf_iff (working : String) (entry : String × Named) :
    (placeOf working entry).Below (Place.ofPath (Path.join working entry.1)) ↔
      ((Text.split '.' entry.2.1).any Path.isAbsolute →
        (Place.ofPath (Name.targetPath entry.2.1)).Below
          (Place.ofPath (Path.join working entry.1))) := by
  rw [← Name.isAbsolute_targetPath, placeOf, pathOf, ← Path.join_assoc]
  by_cases absolute : Path.isAbsolute (Name.targetPath entry.2.1)
  · rw [Path.join, if_pos absolute, forall_prop_of_true absolute]
  · refine iff_of_true (Name.below_targetPath ?_) fun rooted => absurd rooted absolute
    rwa [← Bool.not_eq_true]

/-- Each file that generation writes lies below the directory of its stream, unless a segment of
    its output's name begins with a slash and so leads elsewhere. -/
theorem written_below_iff {g : Group} {directories : List String} {format : Bool} {world : World}
    {written : List String}
    (returned : ((generate g directories format).run world).1 = .ok written) :
    ∃ streams mainDirectory companionDirectory entries,
      directories = [mainDirectory, companionDirectory] ∧
      Stream.resolved g = .ok streams ∧
      entries = streams.main.map (mainDirectory, ·) ++ streams.companions.map (companionDirectory, ·) ∧
      WritesAt world ((generate g directories format).run world).2
        (entries.map (placeOf world.working)) ∧
      ∀ entry ∈ entries,
        (placeOf world.working entry).Below (Place.ofPath (Path.join world.working entry.1)) ↔
          ((Text.split '.' entry.2.1).any Path.isAbsolute →
            (Place.ofPath (Name.targetPath entry.2.1)).Below
              (Place.ofPath (Path.join world.working entry.1))) := by
  obtain ⟨streams, mainDirectory, companionDirectory, rfl, accepted, -, writes⟩ :=
    writesAt_generate returned
  refine ⟨streams, mainDirectory, companionDirectory, _, rfl, accepted.resolved, rfl, ?_,
    fun entry _ => below_placeOf_iff world.working entry⟩
  simpa only [List.map_append, List.map_map, Function.comp_def] using writes

def slashedGroup (name : String) : Group where
  schemas := [(.text "m", {
    module := .text "m"
    structs := [(name, { kind := .struct, name := "m." ++ name, fields := [] })] })]

def slashedStreams (name : String) : Streams :=
  (Stream.resolved (slashedGroup name)).toOption.getD {}

theorem inner_slash_stays_below :
    ((generate (slashedGroup "a/b") ["out", "tests"] false).run olderWorld).1 =
      .ok ["a/b.py", "a/b_test_data.py"] ∧
    ∀ entry ∈ (slashedStreams "a/b").main.map ("out", ·) ++
        (slashedStreams "a/b").companions.map ("tests", ·),
      (placeOf "/w" entry).Below (Place.ofPath (Path.join "/w" entry.1)) := by
  have returned : ((generate (slashedGroup "a/b") ["out", "tests"] false).run olderWorld).1 =
      .ok ["a/b.py", "a/b_test_data.py"] := toOption_eq_some.mp (by decide +kernel)
  obtain ⟨streams, mainDirectory, companionDirectory, entries, directories, resolved, rfl, -, below⟩ :=
    written_below_iff returned
  cases directories
  have same : slashedStreams "a/b" = streams := by rw [slashedStreams, resolved]; rfl
  subst same
  refine ⟨returned, fun entry known => (below entry known).mpr fun slash => ?_⟩
  have relative : ∀ entry ∈ (slashedStreams "a/b").main.map ("out", ·) ++
      (slashedStreams "a/b").companions.map ("tests", ·),
      (Text.split '.' entry.2.1).any Path.isAbsolute = false := by decide +kernel
  rw [relative entry known] at slash
  cases slash

/-- A name that begins with a slash is written from the root. -/
theorem leading_slash_leaves_directory :
    ((generate (slashedGroup "/a") ["out", "tests"] false).run olderWorld).1 =
      .ok ["/a.py", "/a_test_data.py"] ∧
    (((generate (slashedGroup "/a") ["out", "tests"] false).run olderWorld).2.tree.textAt
      ["a.py"]).isSome ∧
    ¬ Place.Below ["a.py"] (Place.ofPath (Path.join "/w" "out")) := by
  refine ⟨toOption_eq_some.mp (by decide +kernel), by decide +kernel, ?_⟩
  have directory : Place.ofPath (Path.join "/w" "out") = ["out", "w"] := by decide +kernel
  rw [directory]
  rintro ⟨names, -, same⟩
  have longer := congrArg List.length same
  simp at longer

end Session
end IdlGen
