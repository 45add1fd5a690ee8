import IdlGen.Proofs.Extensions
import IdlGen.Proofs.Literals
import IdlGen.Proofs.ModulePaths

/-!
Packages of generated modules. A module hides what lies below its own path; none is hidden exactly
if no module has the path of a package or of one around it (`none_hidden_iff`).
-/
namespace IdlGen

open Outcome

variable {name output : String} {service : Service} {g : Group}

namespace Text

theorem intercalate_splitAt (sep : Char) (chars : List Char) :
    [sep].intercalate (splitAt sep chars) = chars := by
  induction chars with
  | nil => rfl
  | cons c rest ih =>
    obtain ⟨piece, pieces, whole⟩ := List.exists_cons_of_ne_nil (splitAt_ne_nil sep rest)
    rw [whole] at ih
    by_cases isSep : c = sep
    · rw [isSep, splitAt_cons_sep, whole, List.intercalate_cons_cons, ih]
      rfl
    · rw [splitAt, if_neg isSep, whole]
      cases pieces with
      | nil => simpa using ih
      | cons next others =>
        dsimp only
        rw [List.intercalate_cons_cons] at ih ⊢
        rw [List.cons_append, List.cons_append, ih]

theorem append_sep_prefix_iff {sep : Char} {chars others : List Char} :
    chars ++ [sep] <+: others ↔ splitAt sep chars <+: (splitAt sep others).dropLast := by
  constructor
  · rintro ⟨after, rfl⟩
    rw [List.append_assoc, List.singleton_append, splitAt_append_sep,
      List.dropLast_append_of_ne_nil (splitAt_ne_nil sep after)]
    exact List.prefix_append _ _
  · rintro ⟨more, before⟩
    obtain ⟨last, whole⟩ : ∃ last, splitAt sep chars ++ (more ++ [last]) = splitAt sep others := by
      refine ⟨(splitAt sep others).getLast (splitAt_ne_nil sep others), ?_⟩
      rw [← List.append_assoc, before, List.dropLast_append_getLast]
    have free : ∀ piece ∈ more ++ [last], sep ∉ piece := fun piece member =>
      not_mem_of_mem_splitAt (whole ▸ List.mem_append_right _ member)
    -- The pieces determine the text, so it is enough to compare the pieces.
    refine ⟨[sep].intercalate (more ++ [last]), ?_⟩
    rw [← intercalate_splitAt sep others, ← whole, List.append_assoc, List.singleton_append]
    have pieces := splitAt_append_sep sep chars ([sep].intercalate (more ++ [last]))
    rw [splitAt_intercalate (by simp) free] at pieces
    rw [← pieces, intercalate_splitAt]

theorem hasStart_dot_iff {path other : String} :
    hasStart (path ++ ".") other ↔ split '.' path <+: (split '.' other).dropLast := by
  have chars : (path ++ ".").toList = path.toList ++ ['.'] := by simp
  rw [hasStart, List.isPrefixOf_iff_prefix, chars, append_sep_prefix_iff]
  refine ⟨fun before => ?_, fun before => ?_⟩
  · rw [split, split, ← List.map_dropLast]
    exact before.map _
  · rw [← toList_split, ← toList_split, ← List.map_dropLast]
    exact before.map _

end Text

/-! ### Packages of names -/

namespace Name

theorem dot_not_mem_camelize (free : '.' ∉ name.toList) : '.' ∉ (camelize name).toList := by
  intro member
  rw [camelize, String.toList_ofList] at member
  obtain ⟨part, known, member⟩ := List.mem_flatMap.mp member
  refine free (Text.mem_of_mem_splitAt known ?_)
  cases part with
  | nil => cases member
  | cons c rest =>
    rw [Text.upperFirst, List.mem_append] at member
    rcases member with first | later
    · exact List.mem_cons.mpr (.inl (Text.eq_dot_of_mem_upperChar first).symm)
    · exact List.mem_cons_of_mem c later

def package (output : String) : List String := (Text.split '.' (modulePath output)).dropLast

theorem package_eq (output : String) :
    package output = (Text.split '.' output).dropLast.map underscore := by
  rw [package, split_modulePath, List.map_dropLast]

theorem package_append {more : String} (free : '.' ∉ more.toList) (output : String) :
    package (output ++ more) = package output := by
  obtain ⟨front, piece, whole, longer⟩ := Text.split_append free output
  rw [package_eq, package_eq, whole, longer, List.dropLast_concat, List.dropLast_concat]

end Name

def Schema.scopeSegments (s : Schema) : List String :=
  match s.scope with
  | .text scope => if scope = "" then [] else (Text.split '.' scope).map Name.camelize
  | _ => []

def Schema.subjectNames (s : Schema) : List String :=
  s.enums.values.map Enum.name ++ s.structs.values.map Record.name ++
  s.unions.values.map Record.name ++ s.exceptions.values.map Record.name ++
  s.services.values.map Service.name ++ s.aliasNames

namespace Schema

variable (s : Schema)

theorem enum_mem_subjectNames {e : Enum} (known : e ∈ s.enums.values) : e.name ∈ s.subjectNames := by
  simp only [subjectNames, List.mem_append, List.mem_map_of_mem known, true_or]

theorem record_mem_subjectNames {r : Record}
    (known : r ∈ s.structs.values ++ s.unions.values ++ s.exceptions.values) :
    r.name ∈ s.subjectNames := by
  simp only [List.mem_append] at known
  rcases known with (known | known) | known
  all_goals simp only [subjectNames, List.mem_append, List.mem_map_of_mem known, true_or, or_true]

theorem service_mem_subjectNames (known : service ∈ s.services.values) :
    service.name ∈ s.subjectNames := by
  simp only [subjectNames, List.mem_append, List.mem_map_of_mem known, true_or, or_true]

theorem alias_mem_subjectNames {entry : String × Typedef} (known : entry ∈ s.typedefs) :
    s.module.display ++ "." ++ Name.capitalize entry.1 ∈ s.subjectNames :=
  List.mem_append_right _ (List.mem_map.mpr ⟨entry, known, rfl⟩)

end Schema

def Schema.constantModules (s : Schema) : List String :=
  (s.constants.values.filterMap fun c => (Name.split c.name).toOption.map (·.1)).filter
    fun module => s.module.equal (.text module)

theorem Value.equal_text_iff {v : Value} {t : String} : v.equal (.text t) ↔ v = .text t := by
  refine ⟨fun equal => eq_text_of_same (by simp [same, equal]), ?_⟩
  rintro rfl
  simp [equal]

namespace Group

/-- The packages around the module of a name: the namespace of the schema that the name is about,
    and all but the last segment of the rest of the name. -/
def package (g : Group) (module rest : String) : List String :=
  (((g.schemaNamed? module).map Schema.scopeSegments).getD [] ++
    (Text.split '.' (Name.camelize rest)).dropLast).map Name.underscore

def packageNamed (g : Group) (name : String) : List String :=
  g.package (Text.partition '.' name).1 (Text.partition '.' name).2

/-- The packages that modules of a schema lie in. The module of its constants is named after its
    own module. -/
def packagesOf (g : Group) (s : Schema) : List (List String) :=
  s.subjectNames.map g.packageNamed ++ s.constantModules.map fun module => g.package module module

def packages (g : Group) : List (List String) := g.schemas.flatMap fun entry => g.packagesOf entry.2

variable {s : Schema} {before module : String}

theorem scopePrefix_eq_ok (done : scopePrefix (some s) = .ok before) :
    (before = "" ∧ s.scopeSegments = []) ∨
      (before = Text.join "." s.scopeSegments ++ "." ∧ s.scopeSegments ≠ [] ∧
        ∀ segment ∈ s.scopeSegments, '.' ∉ segment.toList) := by
  simp only [scopePrefix] at done
  unfold Schema.scopeSegments
  by_cases truthy : s.scope.truthy
  · rw [truthy, Bool.not_true, if_neg Bool.false_ne_true] at done
    cases known : s.scope with
    | text scope =>
      rw [known] at done truthy
      cases done
      have filled : scope ≠ "" := by simpa [Value.truthy] using truthy
      have nonempty := Text.split_ne_nil '.' scope
      dsimp only
      rw [if_neg filled]
      refine .inr ⟨rfl, by simpa using nonempty, fun segment member => ?_⟩
      obtain ⟨piece, known, rfl⟩ := List.mem_map.mp member
      exact Name.dot_not_mem_camelize (Text.not_mem_of_mem_split known)
    | _ =>
      rw [known] at done
      cases done
  · rw [Bool.not_eq_true] at truthy
    rw [truthy, Bool.not_false, if_pos rfl] at done
    cases done
    refine .inl ⟨rfl, ?_⟩
    cases known : s.scope with
    | text scope =>
      rw [known] at truthy
      exact if_pos (by simpa [Value.truthy] using truthy)
    | _ => rfl

theorem split_scopePrefix {s? : Option Schema} (done : scopePrefix s? = .ok before)
    (rest : String) :
    Text.split '.' (before ++ rest) =
      (s?.map Schema.scopeSegments).getD [] ++ Text.split '.' rest := by
  cases s? with
  | none =>
    cases done
    rw [String.empty_append]
    rfl
  | some s =>
    rw [Option.map_some, Option.getD_some]
    rcases scopePrefix_eq_ok done with ⟨rfl, none⟩ | ⟨rfl, nonempty, free⟩
    · rw [String.empty_append, none, List.nil_append]
    · have parts : (Text.join "." s.scopeSegments ++ "." ++ rest).toList =
          (Text.join "." s.scopeSegments).toList ++ '.' :: rest.toList := by simp
      rw [Text.split_append_sep parts, Text.split_join_dot nonempty free]

theorem package_of_scope (scope : scopePrefix (g.schemaNamed? module) = .ok before)
    (rest : String) : Name.package (before ++ Name.camelize rest) = g.package module rest := by
  have nonempty := Text.split_ne_nil '.' (Name.camelize rest)
  rw [Name.package_eq, split_scopePrefix scope, List.dropLast_append_of_ne_nil nonempty, package]

theorem package_outputName (named : g.outputName name = .ok output) :
    Name.package output = g.packageNamed name := by
  obtain ⟨⟨module, rest⟩, parts, named⟩ := bind_eq_ok.mp named
  obtain ⟨before, scope, same⟩ := bind_eq_ok.mp named
  cases same
  have whole : Text.partition '.' name = (module, rest) := by
    simp only [Name.split] at parts
    split at parts
    · cases parts
    · exact Except.ok.inj parts
  rw [packageNamed, whole]
  exact package_of_scope scope rest

theorem package_constantsOutput (named : g.constantsOutput (.text module) = .ok output) :
    Name.package output = g.package module module := by
  obtain ⟨before, scope, same⟩ := bind_eq_ok.mp named
  cases same
  exact package_of_scope scope module

theorem owns_iff : (g.seenFrom s.module).owns name = .ok true ↔
    ∃ parts, Name.split name = .ok parts ∧ s.module = .text parts.1 := by
  refine bind_eq_ok.trans (exists_congr fun parts => and_congr_right fun _ => ?_)
  rw [← Value.equal_text_iff]
  exact ⟨Except.ok.inj, congrArg Except.ok⟩

theorem mem_constantModules_iff :
    module ∈ s.constantModules ↔ s.module = .text module ∧
      ∃ c ∈ s.constants.values, (g.seenFrom s.module).owns c.name = .ok true := by
  simp only [Schema.constantModules, List.mem_filter, List.mem_filterMap, Option.map_eq_some_iff,
    toOption_eq_some, owns_iff, Value.equal_text_iff]
  constructor
  · rintro ⟨⟨c, listed, parts, split, rfl⟩, isModule⟩
    exact ⟨isModule, c, listed, parts, split, isModule⟩
  · rintro ⟨isModule, c, listed, parts, split, same⟩
    cases isModule.symm.trans same
    exact ⟨⟨c, listed, parts, split, rfl⟩, isModule⟩

end Group

namespace Stream

variable {s : Schema} {emission : Emission} {path : Value}

theorem package_companion {entity : Entity}
    (made : companionEmission g path (g.outputName name) entity = .ok emission) :
    Name.package emission.name = g.packageNamed name := by
  obtain ⟨output, named, drafted, same⟩ := companionEmission_eq_ok made
  obtain ⟨_, _, _, _, _, _, _, -, drafted⟩ := Companion.output_eq_ok drafted
  rw [same, drafted.name, Name.companion, Name.package_append (by decide), Group.package_outputName named]

theorem package_service (made : serviceEmission g path service = .ok emission) :
    Name.package emission.name = g.packageNamed service.name := by
  obtain ⟨output, drafted, made⟩ := bind_eq_ok.mp made
  cases made
  obtain ⟨_, _, _, _, named, -, -, drafted⟩ := Emit.service_eq_ok drafted
  exact drafted.name ▸ Group.package_outputName named

theorem package_handler (made : handlerEmission g path service = .ok emission) :
    Name.package emission.name = g.packageNamed service.name := by
  obtain ⟨output, drafted, made⟩ := bind_eq_ok.mp made
  cases made
  obtain ⟨_, _, _, named, -, -, drafted⟩ := Emit.handler_eq_ok drafted
  obtain ⟨own, known, same⟩ := bind_eq_ok.mp named
  cases same
  rw [drafted.name, Name.package_append (by decide), Group.package_outputName known]

theorem package_constants (member : .ok emission ∈ constantEmissions (g.seenFrom s.module) s) :
    ∃ module ∈ s.constantModules, Name.package emission.name = g.package module module := by
  obtain ⟨cs, own, named, -⟩ := constantEmissions_eq_ok member
  cases cs with
  | nil =>
    rw [constantEmissions, own] at member
    cases member
  | cons c rest =>
    obtain ⟨listed, owned⟩ := (mem_ownConstants_iff own).mp (List.mem_cons_self ..)
    obtain ⟨parts, -, isModule⟩ := Group.owns_iff.mp owned
    refine ⟨parts.1, Group.mem_constantModules_iff.mpr ⟨isModule, c, listed, owned⟩, ?_⟩
    have output : g.constantsOutput s.module = .ok emission.name := named
    rw [isModule] at output
    exact Group.package_constantsOutput output

theorem package_mem (member : .ok emission ∈ mainEmissions (g.seenFrom s.module) s ++
      companionEmissions (g.seenFrom s.module) s) :
    Name.package emission.name ∈ g.packagesOf s := by
  have listed {name : String} (known : name ∈ s.subjectNames)
      (package : Name.package emission.name = (g.seenFrom s.module).packageNamed name) :
      Name.package emission.name ∈ g.packagesOf s :=
    List.mem_append_left _ (List.mem_map.mpr ⟨name, known, package.symm⟩)
  have companion {name : String} {entity : Entity} (known : name ∈ s.subjectNames)
      (made : companionEmission (g.seenFrom s.module) s.path
        ((g.seenFrom s.module).outputName name) entity = .ok emission) :=
    listed known (package_companion made)
  rcases List.mem_append.mp member with inMain | inCompanions
  · cases mem_mainEmissions_iff.mp inMain with
    | enum known made =>
      exact listed (s.enum_mem_subjectNames known)
        (Group.package_outputName (enumEmission_eq_ok made).1)
    | constants constants =>
      obtain ⟨module, known, package⟩ := package_constants constants
      exact List.mem_append_right _ (List.mem_map.mpr ⟨module, known, package.symm⟩)
    | record known made =>
      exact listed (s.record_mem_subjectNames known)
        (Group.package_outputName (recordEmission_eq_ok made).1)
    | service known made =>
      exact listed (s.service_mem_subjectNames known) (package_service made)
    | handler known made =>
      exact listed (s.service_mem_subjectNames known) (package_handler made)
  · cases mem_companionEmissions_iff.mp inCompanions with
    | typedef known made => exact companion (s.alias_mem_subjectNames known) made
    | record known made => exact companion (s.record_mem_subjectNames known) made
    | enum known made => exact companion (s.enum_mem_subjectNames known) made

theorem exists_of_packagesOf {raw : Streams} (generated : ofGroup g = .ok raw)
    {entry : Value × Schema} (inGroup : entry ∈ g.schemas) {package : List String}
    (known : package ∈ g.packagesOf entry.2) :
    ∃ emission, .ok emission ∈ mainEmissions (g.seenFrom entry.2.module) entry.2 ++
      companionEmissions (g.seenFrom entry.2.module) entry.2 ∧
      Name.package emission.name = package := by
  obtain ⟨key, s⟩ := entry
  have companion {name : String} {entity : Entity}
      (of : CompanionOf (g.seenFrom s.module) s (companionEmission (g.seenFrom s.module) s.path
        ((g.seenFrom s.module).outputName name) entity)) :
      ∃ emission, .ok emission ∈ mainEmissions (g.seenFrom s.module) s ++
        companionEmissions (g.seenFrom s.module) s ∧
        Name.package emission.name = (g.seenFrom s.module).packageNamed name := by
    obtain ⟨emission, made, member⟩ := exists_companion generated inGroup of
    exact ⟨emission, List.mem_append_right _ member, package_companion made⟩
  rcases List.mem_append.mp known with subject | constants
  · obtain ⟨name, listed, rfl⟩ := List.mem_map.mp subject
    simp only [Schema.subjectNames, Schema.aliasNames, List.mem_append, List.mem_map] at listed
    -- Types and aliases have companions in their packages, services have main outputs only.
    rcases listed with
      ((((⟨e, listed, rfl⟩ | ⟨r, listed, rfl⟩) | ⟨r, listed, rfl⟩) | ⟨r, listed, rfl⟩) |
        ⟨service, listed, rfl⟩) | ⟨entry, listed, rfl⟩
    · exact companion (.enum listed rfl)
    iterate 3 exact companion (.record (by simp [listed]) rfl)
    · obtain ⟨emission, made, member⟩ := exists_main generated inGroup (.service listed rfl)
      have package : Name.package emission.name =
        (g.seenFrom s.module).packageNamed service.name := package_service made
      exact ⟨emission, List.mem_append_left _ member, package⟩
    · exact companion (.typedef listed rfl)
  · obtain ⟨module, listed, rfl⟩ := List.mem_map.mp constants
    obtain ⟨isModule, c, inSchema, owned⟩ := Group.mem_constantModules_iff.mp listed
    obtain ⟨emission, -, known, named, -⟩ := constants_of_owned generated inGroup inSchema owned
    refine ⟨emission, List.mem_append_left _ known, ?_⟩
    dsimp only at named
    rw [isModule] at named
    exact Group.package_constantsOutput named

theorem Folded.home_iff {stream units : List Named} (folded : Folded stream units)
    (wellNamed : ∀ named ∈ stream, named.2.name = named.1) {path : String} :
    (∃ unit ∈ units, unit.2.home = path) ↔ ∃ named ∈ stream, Name.modulePath named.1 = path := by
  constructor
  · rintro ⟨unit, member, rfl⟩
    have inKeys : unit.1 ∈ Table.keys units := List.mem_map_of_mem member
    obtain ⟨named, inStream, same⟩ := List.mem_map.mp ((folded.mem_keys unit.1).mp inKeys)
    refine ⟨named, inStream, ?_⟩
    rw [Output.home, folded.name_unit wellNamed member, same]
  · rintro ⟨named, inStream, rfl⟩
    obtain ⟨unit, known, -⟩ := folded.unit inStream
    refine ⟨(named.1, unit), known, ?_⟩
    rw [Output.home, folded.name_unit wellNamed known]

end Stream

def Output.package (o : Output) : List String := (Text.split '.' o.home).dropLast

theorem Stream.mem_packages_iff {streams : Streams} {package : List String}
    (done : resolved g = .ok streams) :
    package ∈ g.packages ↔ ∃ unit ∈ streams.units, unit.2.package = package := by
  obtain ⟨raw, generated, main, companions⟩ := resolved_eq_ok done
  have homes {path : String} : (∃ unit ∈ streams.units, unit.2.home = path) ↔
      ∃ named ∈ raw.main ++ raw.companions, Name.modulePath named.1 = path := by
    simp only [Streams.units, List.mem_append, or_and_right, exists_or,
      main.home_iff fun _ => name_main generated,
      companions.home_iff fun _ => name_companion generated]
  constructor
  · intro known
    obtain ⟨entry, inGroup, known⟩ := List.mem_flatMap.mp known
    obtain ⟨emission, made, rfl⟩ := exists_of_packagesOf generated inGroup known
    have inRaw : (emission.name, emission.output) ∈ raw.main ++ raw.companions :=
      List.mem_append.mpr ((List.mem_append.mp made).imp
        (fun inMain => (mem_main_iff generated).mpr ⟨entry, inGroup, emission, inMain, rfl⟩)
        fun inCompanions =>
          (mem_companions_iff generated).mpr ⟨entry, inGroup, emission, inCompanions, rfl⟩)
    obtain ⟨unit, member, home⟩ := homes.mpr ⟨_, inRaw, rfl⟩
    exact ⟨unit, member, by rw [Output.package, home, Name.package]⟩
  · rintro ⟨unit, member, rfl⟩
    obtain ⟨named, inRaw, home⟩ := homes.mp ⟨unit, member, rfl⟩
    rw [Output.package, ← home, ← Name.package]
    have made : ∃ entry ∈ g.schemas, ∃ emission,
        .ok emission ∈ mainEmissions (g.seenFrom entry.2.module) entry.2 ++
          companionEmissions (g.seenFrom entry.2.module) entry.2 ∧ emission.name = named.1 := by
      rcases List.mem_append.mp inRaw with inMain | inCompanions
      · obtain ⟨entry, inGroup, emission, known, rfl⟩ := (mem_main_iff generated).mp inMain
        exact ⟨entry, inGroup, emission, List.mem_append_left _ known, rfl⟩
      · obtain ⟨entry, inGroup, emission, known, rfl⟩ :=
          (mem_companions_iff generated).mp inCompanions
        exact ⟨entry, inGroup, emission, List.mem_append_right _ known, rfl⟩
    obtain ⟨entry, inGroup, emission, known, same⟩ := made
    rw [← same]
    exact List.mem_flatMap.mpr ⟨entry, inGroup, package_mem known⟩

/-- A module hides another if its path and a dot begin the path of the other: the one is a file
    where the other needs a directory. -/
def Output.Hides (o other : Output) : Prop := Text.hasStart (o.home ++ ".") other.home

instance (o other : Output) : Decidable (o.Hides other) :=
  inferInstanceAs (Decidable (Text.hasStart (o.home ++ ".") other.home = true))

theorem Output.hides_iff {o other : Output} :
    o.Hides other ↔ Text.split '.' o.home <+: other.package := Text.hasStart_dot_iff

/-- The modules of a group that is written to one directory have different paths. None of them
    hides another exactly if none of them has the path of a package of the group, or of a package
    around one. -/
theorem none_hidden_iff {directory : String} {format : Bool} {world : World}
    {written : List String}
    (returned : ((Session.generate g [directory, directory] format).run world).1 = .ok written) :
    ∃ streams, Stream.resolved g = .ok streams ∧ (streams.units.map (·.2.home)).Nodup ∧
      ((∀ unit ∈ streams.units, ∀ other ∈ streams.units, ¬ unit.2.Hides other.2) ↔
        ∀ unit ∈ streams.units, ∀ package ∈ g.packages,
          ¬ Text.split '.' unit.2.home <+: package) := by
  obtain ⟨streams, raw, accepted, program⟩ := isProgram_of_generate returned
  refine ⟨streams, accepted.resolved, program.nodup_units accepted, forall₂_congr fun unit _ => ?_⟩
  refine ⟨fun apart package known hides => ?_, fun apart other member hides => ?_⟩
  · obtain ⟨other, member, rfl⟩ := (Stream.mem_packages_iff accepted.resolved).mp known
    exact apart other member (Output.hides_iff.mpr hides)
  · have known := (Stream.mem_packages_iff accepted.resolved).mpr ⟨other, member, rfl⟩
    exact apart _ known (Output.hides_iff.mp hides)

/-- Two modules: constants, and a record in a namespace that begins as the name of their module
    does. -/
def depotGroup : Group where
  schemas := [
    (.text "bolt", {
      module := .text "bolt"
      constants := [("TOP", { name := "bolt.TOP", type := .primitive .i32, value := .int 3 })] }),
    (.text "nut", {
      module := .text "nut", scope := .text "bolts"
      structs := [("Nut", { kind := .struct, name := "nut.Nut", fields := [] })] })]

/-- No module of the depot has the path of a package, so none hides another. -/
theorem depot_none_hidden :
    ((Session.generate depotGroup ["", ""] false).run { working := "/" }).1.toOption.isSome ∧
    ∃ streams, Stream.resolved depotGroup = .ok streams ∧
      (streams.units.map (·.2.home)).Nodup ∧ ["bolts"] ∈ depotGroup.packages ∧
      (∀ unit ∈ streams.units, ∀ package ∈ depotGroup.packages,
        ¬ Text.split '.' unit.2.home <+: package) ∧
      ∀ unit ∈ streams.units, ∀ other ∈ streams.units, ¬ unit.2.Hides other.2 := by
  obtain ⟨returns, known, apart⟩ : ((Session.generate depotGroup ["", ""] false).run
        { working := "/" }).1.toOption.isSome ∧
      ["bolts"] ∈ depotGroup.packages ∧
      ∀ streams ∈ (Stream.resolved depotGroup).toOption, ∀ unit ∈ streams.units,
        ∀ package ∈ depotGroup.packages, ¬ Text.split '.' unit.2.home <+: package := by
    decide +kernel
  obtain ⟨written, returned⟩ := isSome_toOption.mp returns
  obtain ⟨streams, resolved, distinct, hidden⟩ := none_hidden_iff returned
  have apart := apart streams (toOption_eq_some.mpr resolved)
  exact ⟨returns, streams, resolved, distinct, known, apart, hidden.mpr apart⟩

def fooGroup : Group where
  schemas := [
    (.text "a", {
      module := .text "a"
      structs := [("Foo", { kind := .struct, name := "a.Foo", fields := [] })] }),
    (.text "b", {
      module := .text "b", scope := .text "foo"
      structs := [("Bar", { kind := .struct, name := "b.Bar", fields := [] })] })]

theorem fooGroup_checked :
    ((Session.generate fooGroup ["", ""] false).run { working := "/" }).1.toOption.isSome ∧
      ∃ streams ∈ (Stream.resolved fooGroup).toOption,
        ∃ unit ∈ streams.units, ∃ other ∈ streams.units, unit.2.home = "foo" ∧
          other.2.home = "foo.bar" ∧ unit.2.Hides other.2 := by
  decide +kernel

def fooStreams : Streams :=
  fooGroup.streams (Option.isSome_iff_exists.mpr (fooGroup_checked.2.imp fun _ => And.left))

/-- A group may be written to one directory although a module of it hides another. -/
theorem foo_hides_bar :
    ((Session.generate fooGroup ["", ""] false).run { working := "/" }).1.toOption.isSome ∧
      Stream.resolved fooGroup = .ok fooStreams ∧
      ∃ unit ∈ fooStreams.units, ∃ other ∈ fooStreams.units, unit.2.home = "foo" ∧
        other.2.home = "foo.bar" ∧ unit.2.Hides other.2 := by
  have resolved : Stream.resolved fooGroup = .ok fooStreams := Group.resolved_streams _
  obtain ⟨returns, streams, generated, hides⟩ := fooGroup_checked
  cases (toOption_eq_some.mp generated).symm.trans resolved
  exact ⟨returns, resolved, hides⟩

end IdlGen
