import IdlGen.Proofs.Collisions
import IdlGen.Proofs.Drafts
import IdlGen.Proofs.Draws
import IdlGen.Proofs.Groups
import IdlGen.Proofs.Sessions

/-!
The program of an accepted group. Every declared enum and record has its class in one main output
and, if it is a record, its strategy in one companion, and references find them unless a constant
has the same name.
-/
namespace IdlGen

open Run Outcome

variable {entry : Value × Schema} {r : Record} {name attr working : String} {units : List Named}
  {ref : Ref}

namespace Stream

variable {g : Group} {streams : Streams} {named : Named} {emissions : List (Except Fault Emission)}
  {results : List Named} {outcome : Except Fault Emission}

theorem mem_collect_iff (done : collect emissions = .ok results) :
    named ∈ results ↔
      ∃ emission, .ok emission ∈ emissions ∧ named = (emission.name, emission.output) := by
  constructor
  · intro member
    obtain ⟨outcome, known, made⟩ := mem_of_mapM done member
    obtain ⟨emission, rfl, same⟩ := bind_eq_ok.mp made
    cases same
    exact ⟨emission, known, rfl⟩
  · rintro ⟨emission, known, rfl⟩
    obtain ⟨result, member, made⟩ := exists_of_mapM done known
    cases made
    exact member

theorem ok_of_collect (done : collect emissions = .ok results) (known : outcome ∈ emissions) :
    ∃ emission, outcome = .ok emission := by
  obtain ⟨result, -, made⟩ := exists_of_mapM done known
  obtain ⟨emission, same, -⟩ := bind_eq_ok.mp made
  exact ⟨emission, same⟩

theorem ofSchema_eq_ok {s : Schema} {part : Streams} (done : ofSchema g s = .ok part) :
    collect (mainEmissions (g.seenFrom s.module) s) = .ok part.main ∧
      collect (companionEmissions (g.seenFrom s.module) s) = .ok part.companions := by
  obtain ⟨main, mainDone, done⟩ := bind_eq_ok.mp done
  obtain ⟨companions, companionsDone, done⟩ := bind_eq_ok.mp done
  cases done
  exact ⟨mainDone, companionsDone⟩

theorem ofGroup_eq_ok (done : ofGroup g = .ok streams) :
    ∃ parts, g.schemas.mapM (fun entry => ofSchema g entry.2) = .ok parts ∧
      streams.main = parts.flatMap (·.main) ∧
      streams.companions = parts.flatMap (·.companions) := by
  have general : ∀ (schemas : List (Value × Schema)) (start : Streams),
      schemas.foldlM (fun streams entry => do
        let next ← ofSchema g entry.2
        return {
          main := streams.main ++ next.main
          companions := streams.companions ++ next.companions : Streams }) start = .ok streams →
      ∃ parts, schemas.mapM (fun entry => ofSchema g entry.2) = .ok parts ∧
        streams.main = start.main ++ parts.flatMap (·.main) ∧
        streams.companions = start.companions ++ parts.flatMap (·.companions) := by
    intro schemas
    induction schemas with
    | nil =>
      intro start ended
      cases ended
      exact ⟨[], rfl, by simp, by simp⟩
    | cons entry rest ih =>
      intro start ran
      rw [List.foldlM_cons] at ran
      obtain ⟨after, first, ran⟩ := bind_eq_ok.mp ran
      obtain ⟨part, made, same⟩ := bind_eq_ok.mp first
      cases same
      obtain ⟨parts, others, main, companions⟩ := ih _ ran
      refine ⟨part :: parts, ?_, by simp [main], by simp [companions]⟩
      rw [List.mapM_cons, made, others]
      rfl
  simpa using general g.schemas {} done

theorem mem_parts_iff {parts : List Streams} {view : Streams → List Named}
    {emissions : Schema → List (Except Fault Emission)}
    (made : g.schemas.mapM (fun entry => ofSchema g entry.2) = .ok parts)
    (each : ∀ {s part}, ofSchema g s = .ok part → collect (emissions s) = .ok (view part)) :
    named ∈ parts.flatMap view ↔ ∃ entry ∈ g.schemas, ∃ emission,
      .ok emission ∈ emissions entry.2 ∧ named = (emission.name, emission.output) := by
  rw [List.mem_flatMap]
  constructor
  · rintro ⟨part, known, member⟩
    obtain ⟨entry, entryMember, same⟩ := mem_of_mapM made known
    exact ⟨entry, entryMember, (mem_collect_iff (each same)).mp member⟩
  · rintro ⟨entry, entryMember, emission⟩
    obtain ⟨part, known, same⟩ := exists_of_mapM made entryMember
    exact ⟨part, known, (mem_collect_iff (each same)).mpr emission⟩

theorem mem_main_iff (done : ofGroup g = .ok streams) :
    named ∈ streams.main ↔ ∃ entry ∈ g.schemas, ∃ emission,
      .ok emission ∈ mainEmissions (g.seenFrom entry.2.module) entry.2 ∧
        named = (emission.name, emission.output) := by
  obtain ⟨parts, made, main, -⟩ := ofGroup_eq_ok done
  rw [main]
  exact mem_parts_iff made fun same => (ofSchema_eq_ok same).1

theorem mem_companions_iff (done : ofGroup g = .ok streams) :
    named ∈ streams.companions ↔ ∃ entry ∈ g.schemas, ∃ emission,
      .ok emission ∈ companionEmissions (g.seenFrom entry.2.module) entry.2 ∧
        named = (emission.name, emission.output) := by
  obtain ⟨parts, made, -, companions⟩ := ofGroup_eq_ok done
  rw [companions]
  exact mem_parts_iff made fun same => (ofSchema_eq_ok same).2

theorem ok_of_ofGroup (done : ofGroup g = .ok streams) {entry : Value × Schema}
    (member : entry ∈ g.schemas) {outcome : Except Fault Emission}
    (known : outcome ∈ mainEmissions (g.seenFrom entry.2.module) entry.2 ++
      companionEmissions (g.seenFrom entry.2.module) entry.2) :
    ∃ emission, outcome = .ok emission := by
  obtain ⟨parts, made, -⟩ := ofGroup_eq_ok done
  obtain ⟨part, -, same⟩ := exists_of_mapM made member
  obtain ⟨mainDone, companionsDone⟩ := ofSchema_eq_ok same
  rcases List.mem_append.mp known with inMain | inCompanions
  · exact ok_of_collect mainDone inMain
  · exact ok_of_collect companionsDone inCompanions

/-! ### Emissions -/

variable {s : Schema} {path : Value} {emission : Emission}

theorem enumEmission_eq_ok {e : Enum} (made : enumEmission g path e = .ok emission) :
    g.outputName e.name = .ok emission.name ∧
      Emit.enumeration g path emission.name e = .ok emission.output := by
  obtain ⟨name, known, made⟩ := bind_eq_ok.mp made
  obtain ⟨output, drafted, made⟩ := bind_eq_ok.mp made
  cases made
  exact ⟨known, drafted⟩

theorem recordEmission_eq_ok (made : recordEmission g path r = .ok emission) :
    g.outputName r.name = .ok emission.name ∧
      Emit.record g path r.kind.word emission.name r = .ok emission.output := by
  obtain ⟨name, known, made⟩ := bind_eq_ok.mp made
  obtain ⟨output, drafted, made⟩ := bind_eq_ok.mp made
  cases made
  exact ⟨known, drafted⟩

theorem companionEmission_eq_ok {name : Except Fault String} {entity : Entity}
    (made : companionEmission g path name entity = .ok emission) :
    ∃ output, name = .ok output ∧ Companion.output g path output entity = .ok emission.output ∧
      emission.name = emission.output.name := by
  obtain ⟨output, known, made⟩ := bind_eq_ok.mp made
  obtain ⟨companion, drafted, made⟩ := bind_eq_ok.mp made
  cases made
  exact ⟨output, known, drafted, rfl⟩

theorem serviceEmission_eq_ok {service : Service}
    {emit : Group → Value → Service → Except Fault Output}
    (made : (do
      let output ← emit g path service
      return { name := output.name, output } : Except Fault Emission) = .ok emission) :
    emission.output.name = emission.name ∧ emit g path service = .ok emission.output := by
  obtain ⟨output, drafted, made⟩ := bind_eq_ok.mp made
  cases made
  exact ⟨rfl, drafted⟩

theorem constantEmissions_eq_ok (member : .ok emission ∈ constantEmissions g s) :
    ∃ cs, ownConstants g s = .ok cs ∧ g.currentConstantsOutput = .ok emission.name ∧
      Emit.constants g s.path emission.name cs = .ok emission.output := by
  unfold constantEmissions at member
  cases own : ownConstants g s with
  | error fault =>
    rw [own] at member
    cases List.mem_singleton.mp member
  | ok cs =>
    rw [own] at member
    cases cs with
    | nil => cases member
    | cons c rest =>
      have made := List.mem_singleton.mp member
      obtain ⟨name, known, made⟩ := bind_eq_ok.mp made.symm
      obtain ⟨output, drafted, made⟩ := bind_eq_ok.mp made
      cases made
      exact ⟨_, rfl, known, drafted⟩

inductive MainOf (g : Group) (s : Schema) (outcome : Except Fault Emission) : Prop
  | enum {e : Enum} (declared : e ∈ s.enums.values) (made : enumEmission g s.path e = outcome)
  | constants (known : outcome ∈ constantEmissions g s)
  | record {r : Record} (declared : r ∈ s.structs.values ++ s.unions.values ++ s.exceptions.values)
      (made : recordEmission g s.path r = outcome)
  | service {service : Service} (declared : service ∈ s.services.values)
      (made : serviceEmission g s.path service = outcome)
  | handler {service : Service} (declared : service ∈ s.services.values)
      (made : handlerEmission g s.path service = outcome)

theorem mem_mainEmissions_iff : outcome ∈ mainEmissions g s ↔ MainOf g s outcome := by
  simp only [mainEmissions, List.mem_append]
  constructor
  · simp only [List.mem_map]
    rintro ((((((⟨e, known, made⟩ | constants) | ⟨r, known, made⟩) | ⟨r, known, made⟩) |
      ⟨r, known, made⟩) | ⟨service, known, made⟩) | ⟨service, known, made⟩)
    · exact .enum known made
    · exact .constants constants
    iterate 3 exact .record (by simp [known]) made
    · exact .service known made
    · exact .handler known made
  · rintro (⟨known, rfl⟩ | constants | ⟨known, rfl⟩ | ⟨known, rfl⟩ | ⟨known, rfl⟩)
    · simp only [List.mem_map_of_mem known, true_or]
    · simp only [constants, true_or, or_true]
    · simp only [List.mem_append] at known
      rcases known with (known | known) | known
      all_goals simp only [List.mem_map_of_mem known, true_or, or_true]
    all_goals simp only [List.mem_map_of_mem known, true_or, or_true]

inductive CompanionOf (g : Group) (s : Schema) (outcome : Except Fault Emission) : Prop
  | typedef {entry : String × Typedef} (declared : entry ∈ s.typedefs)
      (made : companionEmission g s.path (aliasOutput g s entry.1) (.typedef entry.2) = outcome)
  | record {r : Record} (declared : r ∈ s.structs.values ++ s.unions.values ++ s.exceptions.values)
      (made : companionEmission g s.path (g.outputName r.name) (.record r) = outcome)
  | enum {e : Enum} (declared : e ∈ s.enums.values)
      (made : companionEmission g s.path (g.outputName e.name) (.enum e) = outcome)

theorem mem_companionEmissions_iff :
    outcome ∈ companionEmissions g s ↔ CompanionOf g s outcome := by
  simp only [companionEmissions, List.mem_append, List.mem_map]
  constructor
  · rintro ((((⟨t, known, made⟩ | ⟨r, known, made⟩) | ⟨r, known, made⟩) | ⟨r, known, made⟩) |
      ⟨e, known, made⟩)
    · exact .typedef known made
    iterate 3 exact .record (by simp [known]) made
    · exact .enum known made
  · rintro (⟨known, rfl⟩ | ⟨known, rfl⟩ | ⟨known, rfl⟩)
    · exact .inl (.inl (.inl (.inl ⟨_, known, rfl⟩)))
    · simp only [List.mem_append] at known
      rcases known with (known | known) | known
      · exact .inl (.inl (.inl (.inr ⟨_, known, rfl⟩)))
      · exact .inl (.inr ⟨_, known, rfl⟩)
      · exact .inl (.inl (.inr ⟨_, known, rfl⟩))
    · exact .inr ⟨_, known, rfl⟩

theorem companion_drafted (member : .ok emission ∈ companionEmissions g s) :
    ∃ name entity, Companion.output g s.path name entity = .ok emission.output ∧
      emission.name = emission.output.name := by
  obtain ⟨-, made⟩ | ⟨-, made⟩ | ⟨-, made⟩ := mem_companionEmissions_iff.mp member
  all_goals
    obtain ⟨output, -, drafted, same⟩ := companionEmission_eq_ok made
    exact ⟨_, _, drafted, same⟩

theorem isType_of_kind {o : Output} (kind : o.kind = .types) : o.isType := by
  simp [Output.isType, Output.isConstant, kind]

theorem main_record (made : recordEmission g path r = .ok emission) :
    emission.output.name = emission.name ∧ emission.output.isType := by
  obtain ⟨_, -, drafted⟩ := Emit.record_eq_ok (recordEmission_eq_ok made).2
  exact ⟨drafted.name, isType_of_kind drafted.kind⟩

/-- A main output has the name of its emission, and classes only if it declares types. -/
theorem main_emission (member : .ok emission ∈ mainEmissions g s) :
    emission.output.name = emission.name ∧
      (emission.output.isType ∨ emission.output.classes = []) := by
  cases mem_mainEmissions_iff.mp member with
  | enum _ made =>
    have drafted := Emit.enumeration_eq_ok (enumEmission_eq_ok made).2
    exact ⟨drafted.name, .inl (isType_of_kind drafted.kind)⟩
  | constants known =>
    obtain ⟨cs, -, -, drafted⟩ := constantEmissions_eq_ok known
    obtain ⟨entries, -, drafted⟩ := Emit.constants_eq_ok drafted
    exact ⟨drafted.name, .inr (by simp [Output.classes, drafted.body, Declaration.class?])⟩
  | record _ made => exact (main_record made).imp_right .inl
  | service _ made =>
    obtain ⟨name, drafted⟩ := serviceEmission_eq_ok made
    obtain ⟨_, _, _, _, -, -, -, drafted⟩ := Emit.service_eq_ok drafted
    exact ⟨name, .inl (isType_of_kind drafted.kind)⟩
  | handler _ made =>
    obtain ⟨name, drafted⟩ := serviceEmission_eq_ok made
    obtain ⟨_, _, _, -, -, -, drafted⟩ := Emit.handler_eq_ok drafted
    exact ⟨name, .inl (isType_of_kind drafted.kind)⟩

theorem class_name (member : .ok emission ∈ mainEmissions g s) {t : RecordType}
    (made : (attr, .record t) ∈ emission.output.classes) : t.cls.name = emission.name := by
  obtain ⟨d, inBody, declared⟩ := List.mem_filterMap.mp made
  cases mem_mainEmissions_iff.mp member with
  | enum _ made =>
    rw [(Emit.enumeration_eq_ok (enumEmission_eq_ok made).2).body, List.mem_singleton] at inBody
    subst inBody
    cases declared
  | constants known =>
    obtain ⟨cs, -, -, drafted⟩ := constantEmissions_eq_ok known
    obtain ⟨entries, -, drafted⟩ := Emit.constants_eq_ok drafted
    rw [drafted.body, List.mem_singleton] at inBody
    subst inBody
    cases declared
  | record _ made =>
    obtain ⟨attributes, -, drafted⟩ := Emit.record_eq_ok (recordEmission_eq_ok made).2
    rw [drafted.body, List.mem_singleton] at inBody
    subst inBody
    cases declared
    rfl
  | service _ made =>
    have isPart := Emit.service_parts (serviceEmission_eq_ok made).2 d inBody
    cases d with
    | record => cases isPart
    | _ => cases declared
  | handler _ made =>
    obtain ⟨name, parent, methods, -, -, -, drafted⟩ :=
      Emit.handler_eq_ok (serviceEmission_eq_ok made).2
    rw [drafted.body, List.mem_singleton] at inBody
    subst inBody
    cases declared

theorem companion_emission (member : .ok emission ∈ companionEmissions g s) :
    emission.output.name = emission.name ∧ emission.output.kind = .types ∧
      ∃ type subject strategy param result,
        emission.output.body = [.generator type subject strategy, .defaults type param result] := by
  obtain ⟨name, entity, drafted, same⟩ := companion_drafted member
  obtain ⟨type, subject, strategy, param, result, _, _, -, drafted⟩ :=
    Companion.output_eq_ok drafted
  exact ⟨same.symm, drafted.kind, type, subject, strategy, param, result, drafted.body⟩

section
variable (done : ofGroup g = .ok streams) (inGroup : entry ∈ g.schemas)
  {outcome : Except Fault Emission}

include done inGroup

theorem exists_main (of : MainOf (g.seenFrom entry.2.module) entry.2 outcome) :
    ∃ emission, outcome = .ok emission ∧
      .ok emission ∈ mainEmissions (g.seenFrom entry.2.module) entry.2 := by
  have known := mem_mainEmissions_iff.mpr of
  obtain ⟨emission, rfl⟩ := ok_of_ofGroup done inGroup (List.mem_append_left _ known)
  exact ⟨emission, rfl, known⟩

theorem exists_companion (of : CompanionOf (g.seenFrom entry.2.module) entry.2 outcome) :
    ∃ emission, outcome = .ok emission ∧
      .ok emission ∈ companionEmissions (g.seenFrom entry.2.module) entry.2 := by
  have known := mem_companionEmissions_iff.mpr of
  obtain ⟨emission, rfl⟩ := ok_of_ofGroup done inGroup (List.mem_append_right _ known)
  exact ⟨emission, rfl, known⟩

end

variable {stream : List Named}

theorem Folded.unit (folded : Folded stream units) (member : named ∈ stream) :
    ∃ unit, (named.1, unit) ∈ units ∧ mergeAll? (under named.1 stream) = some unit := by
  have known : named.1 ∈ Table.keys units :=
    (folded.mem_keys _).mpr (List.mem_map_of_mem member)
  obtain ⟨unit, found⟩ := Option.isSome_iff_exists.mp ((Table.get?_isSome_iff units _).mpr known)
  exact ⟨unit, Table.mem_of_get? found, folded.values named.1 ▸ found⟩

theorem Folded.name_unit (folded : Folded stream units)
    (wellNamed : ∀ named ∈ stream, named.2.name = named.1) (member : named ∈ units) :
    named.2.name = named.1 := by
  obtain ⟨name, unit⟩ := named
  rcases mergeAll?_eq (folded.fold_of_mem member) with only | ⟨-, type, types, same⟩
  · have single : unit ∈ under name stream := by simp [only]
    exact wellNamed _ (mem_under_iff.mp single)
  · have single : type ∈ (under name stream).filter Output.isType := by simp [types]
    have named := wellNamed _ (mem_under_iff.mp (List.mem_of_mem_filter single))
    rw [same]
    exact named

theorem Folded.body_unit (folded : Folded stream units) (member : named ∈ units) :
    named.2.body = (under named.1 stream).flatMap (·.body) := by
  obtain ⟨name, unit⟩ := named
  rcases mergeAll?_eq (folded.fold_of_mem member) with only | ⟨-, type, -, same⟩
  · simp [only]
  · rw [same]
    rfl

theorem classes_gathered {type : Output} {outputs : List Output}
    (types : outputs.filter Output.isType = [type])
    (plain : ∀ o ∈ outputs, o.isType ∨ o.classes = []) :
    (gathered type outputs).classes = type.classes := by
  calc (gathered type outputs).classes
      = outputs.flatMap Output.classes := List.filterMap_flatMap ..
    _ = type.classes := flatMap_of_isType types plain

theorem Folded.classes_unit (folded : Folded stream units)
    (plain : ∀ named ∈ stream, named.2.isType ∨ named.2.classes = []) (member : named ∈ stream)
    (isType : named.2.isType) :
    ∃ unit, (named.1, unit) ∈ units ∧ unit.classes = named.2.classes := by
  obtain ⟨unit, known, fold⟩ := folded.unit member
  have here : named.2 ∈ under named.1 stream := mem_under_iff.mpr member
  refine ⟨unit, known, ?_⟩
  rcases mergeAll?_eq fold with only | ⟨-, type, types, rfl⟩
  · rw [only, List.mem_singleton] at here
    rw [here]
  · have same : named.2 ∈ (under named.1 stream).filter Output.isType :=
      List.mem_filter.mpr ⟨here, isType⟩
    rw [types, List.mem_singleton] at same
    rw [same]
    exact classes_gathered types fun o known => plain _ (mem_under_iff.mp known)

theorem under_eq_of_types {unit : Output} (types : ∀ named ∈ stream, named.2.isType)
    (fold : mergeAll? (under name stream) = some unit) : under name stream = [unit] := by
  rcases mergeAll?_eq fold with only | ⟨several, type, single, -⟩
  · exact only
  · have all : (under name stream).filter Output.isType = under name stream :=
      List.filter_eq_self.mpr fun o known => types _ (mem_under_iff.mp known)
    rw [← all, single] at several
    simp at several

theorem Folded.mem_iff_of_types (folded : Folded stream units)
    (types : ∀ named ∈ stream, named.2.isType) : named ∈ units ↔ named ∈ stream := by
  constructor
  · intro member
    have single := under_eq_of_types types (folded.fold_of_mem member)
    exact mem_under_iff.mp (by simp [single])
  · intro member
    obtain ⟨unit, known, fold⟩ := folded.unit member
    have here : named.2 ∈ under named.1 stream := mem_under_iff.mpr member
    rw [under_eq_of_types types fold, List.mem_singleton] at here
    rw [← here] at known
    exact known

theorem unwrap_eq_ok (done : unwrap stream = .ok units) : Folded stream units := by
  have answers := resolve_answers stream
  unfold unwrap at done
  cases outcome : resolve stream with
  | error c =>
    rw [outcome] at done
    cases done
  | ok table =>
    rw [outcome] at done answers
    cases done
    exact answers

theorem resolved_eq_ok (done : resolved g = .ok streams) :
    ∃ raw, ofGroup g = .ok raw ∧ Folded raw.main streams.main ∧
      Folded raw.companions streams.companions := by
  obtain ⟨raw, generated, done⟩ := bind_eq_ok.mp done
  obtain ⟨main, mainDone, done⟩ := bind_eq_ok.mp done
  obtain ⟨companions, companionsDone, done⟩ := bind_eq_ok.mp done
  cases done
  exact ⟨raw, generated, unwrap_eq_ok mainDone, unwrap_eq_ok companionsDone⟩

end Stream

def Group.streams (g : Group) (generated : (Stream.resolved g).toOption.isSome) : Streams :=
  (Stream.resolved g).toOption.get generated

theorem Group.resolved_streams {g : Group} (generated : (Stream.resolved g).toOption.isSome) :
    Stream.resolved g = .ok (g.streams generated) :=
  toOption_eq_some.mp (Option.some_get generated).symm

/-! ### Programs -/

structure IsProgram (g : Group) (raw streams : Streams) : Prop where
  generated : Stream.ofGroup g = .ok raw
  main : Stream.Folded raw.main streams.main
  companions : Stream.Folded raw.companions streams.companions
  mainApart : (streams.main.map (·.2.home)).Nodup
  companionsApart : (streams.companions.map (·.2.home)).Nodup

section
open IdlGen.Stream

variable {g : Group} {raw streams : Streams} {named : Named}

theorem name_main (generated : ofGroup g = .ok raw) (member : named ∈ raw.main) :
    named.2.name = named.1 := by
  obtain ⟨entry, -, emission, known, rfl⟩ := (mem_main_iff generated).mp member
  exact (main_emission known).1

theorem name_companion (generated : ofGroup g = .ok raw) (member : named ∈ raw.companions) :
    named.2.name = named.1 := by
  obtain ⟨entry, -, emission, known, rfl⟩ := (mem_companions_iff generated).mp member
  exact (companion_emission known).1

theorem nodup_home {units : List Named} {working directory : String}
    (wellNamed : ∀ named ∈ units, named.2.name = named.1)
    (apart : ((units.map (directory, ·)).map fun entry =>
      (Session.targetOf working entry).path).Nodup) : (units.map (·.2.home)).Nodup := by
  have homes : units.map (·.2.home) = units.map fun named => Name.modulePath named.1 := by
    refine List.map_congr_left fun named member => ?_
    rw [Output.home, wellNamed named member]
  -- The path of a target is a function of the module path.
  have targets : ((units.map (directory, ·)).map fun entry =>
      (Session.targetOf working entry).path) =
      (units.map fun named => Name.modulePath named.1).map fun path =>
        Path.absolute working (Path.join directory
          (Path.joinAll (Text.split '.' path) ++ Name.sourceEnding)) := by
    simp only [List.map_map, Function.comp_def, Session.targetOf, Session.pathOf, Name.targetPath]
  rw [targets] at apart
  rw [homes]
  exact apart.of_map

theorem isProgram_of_accepted {directories : List String}
    (accepted : Session.Accepted g directories working streams) :
    ∃ raw, IsProgram g raw streams := by
  obtain ⟨raw, generated, main, companions⟩ := resolved_eq_ok accepted.resolved
  obtain ⟨mainDirectory, companionDirectory, rfl⟩ := List.length_eq_two.mp accepted.both
  have apart := accepted.apart
  have plan : Session.planOf streams [mainDirectory, companionDirectory] =
      streams.main.map (mainDirectory, ·) ++ streams.companions.map (companionDirectory, ·) := by
    simp [Session.planOf]
  rw [Session.targetsOf_eq_map, plan, List.map_map, List.map_append] at apart
  have mainNames : ∀ named ∈ streams.main, named.2.name = named.1 := fun _ =>
    main.name_unit fun _ => name_main generated
  have companionNames : ∀ named ∈ streams.companions, named.2.name = named.1 := fun _ =>
    companions.name_unit fun _ => name_companion generated
  exact ⟨raw, generated, main, companions, nodup_home mainNames apart.of_append_left,
    nodup_home companionNames apart.of_append_right⟩

theorem isProgram_of_generate {directories written : List String} {format : Bool} {world : World}
    (returned : ((Session.generate g directories format).run world).1 = .ok written) :
    ∃ streams raw, Session.Accepted g directories world.working streams ∧
      IsProgram g raw streams := by
  obtain ⟨streams, accepted⟩ := Session.accepted_of_generate returned
  obtain ⟨raw, program⟩ := isProgram_of_accepted accepted
  exact ⟨streams, raw, accepted, program⟩

namespace IsProgram

variable {cls : Ref} {e : Enum} {t : RecordType}

theorem classRef_eq_ok (names : g.classRef name = .ok cls) :
    ∃ output, g.outputName name = .ok output ∧
      cls = { module := Name.modulePath output, attr := Name.className output } := by
  obtain ⟨output, known, same⟩ := bind_eq_ok.mp names
  cases same
  exact ⟨output, known, rfl⟩

section
variable (program : IsProgram g raw streams)
include program

theorem unit_of_emission (member : entry ∈ g.schemas) {emission : Emission}
    (known : .ok emission ∈ mainEmissions (g.seenFrom entry.2.module) entry.2)
    (isType : emission.output.isType) :
    ∃ named ∈ streams.main, named.1 = emission.name ∧
      named.2.home = Name.modulePath emission.name ∧
      named.2.classes = emission.output.classes := by
  have inRaw : (emission.name, emission.output) ∈ raw.main :=
    (mem_main_iff program.generated).mpr ⟨entry, member, emission, known, rfl⟩
  have plain : ∀ named ∈ raw.main, named.2.isType ∨ named.2.classes = [] := by
    intro named inMain
    obtain ⟨entry, -, emission, known, rfl⟩ := (mem_main_iff program.generated).mp inMain
    exact (main_emission known).2
  obtain ⟨unit, inUnits, classes⟩ := program.main.classes_unit plain inRaw isType
  have unitName := program.main.name_unit (fun _ => name_main program.generated) inUnits
  dsimp only at classes unitName
  refine ⟨(emission.name, unit), inUnits, rfl, ?_, classes⟩
  dsimp only
  rw [Output.home, unitName]

/-- The class of a record is made by one main output, at the path that refers to it. It has an
    attribute for each field of the record. -/
theorem main_of_record (declared : r ∈ g.records) (names : g.classRef r.name = .ok cls) :
    ∃ named ∈ streams.main, named.2.home = cls.module ∧
      ∃ t, named.2.classes = [(cls.attr, .record t)] ∧ t.cls.name = named.1 ∧
        t.cls.hashable = decide (r.kind ≠ .exception) ∧
        t.fields = r.unset cls.attr := by
  obtain ⟨output, outputName, rfl⟩ := classRef_eq_ok names
  obtain ⟨entry, member, inSchema⟩ := List.mem_flatMap.mp declared
  obtain ⟨emission, made, known⟩ := exists_main program.generated member (.record inSchema rfl)
  obtain ⟨name, drafted⟩ := recordEmission_eq_ok made
  have same : output = emission.name := Except.ok.inj (outputName.symm.trans name)
  subst same
  obtain ⟨attributes, each, drafted⟩ := Emit.record_eq_ok drafted
  obtain ⟨named, inMain, key, home, classes⟩ :=
    program.unit_of_emission member known (main_record made).2
  rw [show emission.output.classes = emission.output.body.filterMap Declaration.class? from rfl,
    drafted.body] at classes
  refine ⟨named, inMain, home, _, classes, key.symm, ?_, ?_⟩
  · cases r.kind <;> rfl
  · have isException : (r.kind.word == "exception") = decide (r.kind = .exception) := by
      cases r.kind <;> rfl
    have paired := congrArg (List.map fun name => (name,
      unsetValue (Name.className emission.name) (r.kind.word == "exception") name))
      (names_of_isAttribute each)
    rw [attributesOf, List.map_map, List.map_map] at paired
    rw [Record.unset, ← isException]
    exact paired

/-- The class of an enum is made by one main output, at the path that refers to it. It has the
    members of the enum. -/
theorem main_of_enum (declared : e ∈ g.enums) (names : g.classRef e.name = .ok cls) :
    ∃ named ∈ streams.main, named.2.home = cls.module ∧
      ∃ t, named.2.classes = [(cls.attr, .enum t)] ∧ t.name = cls.attr ∧
        t.members = e.values.map fun m => (Name.sanitize m.1, m.2) := by
  obtain ⟨output, outputName, rfl⟩ := classRef_eq_ok names
  obtain ⟨entry, member, inSchema⟩ := List.mem_flatMap.mp declared
  obtain ⟨emission, made, known⟩ := exists_main program.generated member (.enum inSchema rfl)
  obtain ⟨name, drafted⟩ := enumEmission_eq_ok made
  have same : output = emission.name := Except.ok.inj (outputName.symm.trans name)
  subst same
  have drafted := Emit.enumeration_eq_ok drafted
  obtain ⟨named, inMain, -, home, classes⟩ :=
    program.unit_of_emission member known (isType_of_kind drafted.kind)
  rw [show emission.output.classes = emission.output.body.filterMap Declaration.class? from rfl,
    drafted.body] at classes
  exact ⟨named, inMain, home, _, classes, rfl, rfl⟩

theorem main_of_class (declared : (∃ r ∈ g.records, r.name = name) ∨ ∃ e ∈ g.enums, e.name = name)
    (names : g.classRef name = .ok cls) :
    ∃ named ∈ streams.main, named.2.home = cls.module ∧ ∃ o, named.2.classes = [(cls.attr, o)] := by
  rcases declared with ⟨r, declared, rfl⟩ | ⟨e, declared, rfl⟩
  · obtain ⟨named, member, home, t, classes, -⟩ := program.main_of_record declared names
    exact ⟨named, member, home, _, classes⟩
  · obtain ⟨named, member, home, t, classes, -⟩ := program.main_of_enum declared names
    exact ⟨named, member, home, _, classes⟩

theorem class_name_unit (member : named ∈ streams.main)
    (made : (attr, .record t) ∈ named.2.classes) : t.cls.name = named.1 := by
  rw [Output.classes, program.main.body_unit member, List.filterMap_flatMap] at made
  obtain ⟨output, here, made⟩ := List.mem_flatMap.mp made
  obtain ⟨entry, -, emission, known, same⟩ :=
    (mem_main_iff program.generated).mp (mem_under_iff.mp here)
  obtain ⟨sameKey, rfl⟩ := Prod.mk.inj same
  rw [sameKey]
  exact class_name known made

theorem mem_companions_iff :
    named ∈ streams.companions ↔ named ∈ raw.companions := by
  refine program.companions.mem_iff_of_types fun named inRaw => ?_
  obtain ⟨entry, -, emission, known, rfl⟩ := (Stream.mem_companions_iff program.generated).mp inRaw
  exact isType_of_kind (companion_emission known).2.1

theorem companion_of_output (declared : r ∈ g.records) {output : String}
    (outputName : g.outputName r.name = .ok output) :
    ∃ named ∈ streams.companions, named.2.home = Name.modulePath (Name.companion output) ∧
      ∃ module cls strategy type subject result, g.classRef r.name = .ok cls ∧
        Companion.generator (g.seenFrom module) r.kind.word (.ref cls) r.fields = .ok strategy ∧
        Companion.applyDefaults (g.seenFrom module) r = .ok result ∧
        named.2.body =
          [.generator type subject strategy, .defaults type Companion.recordParam result] := by
  obtain ⟨entry, member, inSchema⟩ := List.mem_flatMap.mp declared
  obtain ⟨emission, made, known⟩ := exists_companion program.generated member (.record inSchema rfl)
  obtain ⟨name, outputKnown, drafted, -⟩ := companionEmission_eq_ok made
  have same : output = name := Except.ok.inj (outputName.symm.trans outputKnown)
  subst same
  have inRaw : (emission.name, emission.output) ∈ raw.companions :=
    (Stream.mem_companions_iff program.generated).mpr ⟨entry, member, emission, known, rfl⟩
  obtain ⟨cls, e, subject, result, clsName, drawn, defaulted, drafted⟩ :=
    Companion.output_record_eq_ok drafted
  refine ⟨_, program.mem_companions_iff.mpr inRaw, ?_, entry.2.module, cls, e, _, subject,
    result, clsName, drawn, defaulted, drafted.body⟩
  dsimp only
  rw [Output.home, drafted.name]

theorem companion_of_record (declared : r ∈ g.records)
    (names : g.companionRef r.name "get_generator" = .ok ref) :
    ref.attr = "get_generator" ∧ ∃ named ∈ streams.companions, named.2.home = ref.module ∧
      ∃ module cls strategy type subject param result, g.classRef r.name = .ok cls ∧
        Companion.generator (g.seenFrom module) r.kind.word (.ref cls) r.fields = .ok strategy ∧
        named.2.body = [.generator type subject strategy, .defaults type param result] := by
  obtain ⟨output, outputName, same⟩ := bind_eq_ok.mp names
  cases same
  obtain ⟨named, member, home, module, cls, e, type, subject, result, clsName, drawn, -, body⟩ :=
    program.companion_of_output declared outputName
  exact ⟨rfl, named, member, home, module, cls, e, type, subject, _, result, clsName, drawn, body⟩

theorem plain_companion (member : named ∈ streams.companions) :
    named.2.classes = [] ∧ named.2.constantNames = [] := by
  have inRaw := program.mem_companions_iff.mp member
  obtain ⟨entry, -, emission, known, rfl⟩ := (Stream.mem_companions_iff program.generated).mp inRaw
  obtain ⟨-, -, type, subject, strategy, param, result, body⟩ := companion_emission known
  rw [Output.classes, Output.constantNames, body]
  exact ⟨rfl, rfl⟩

theorem located_companion (member : named ∈ streams.companions) :
    ∃ id, (Program.ofStreams streams).located? named.2.home = some (named.2, id) := by
  have order : (Program.ofStreams streams).outputs.zipIdx.reverse =
      ((streams.companions.map (·.2)).zipIdx streams.main.length).reverse ++
        ((streams.main.map (·.2)).zipIdx).reverse := by
    simp [Program.ofStreams, List.zipIdx_append]
  obtain ⟨entry, numbered, same⟩ : ∃ entry,
      entry ∈ (streams.companions.map (·.2)).zipIdx streams.main.length ∧ entry.1 = named.2 := by
    have inOutputs : named.2 ∈ streams.companions.map (·.2) := List.mem_map_of_mem member
    rw [← List.zipIdx_map_fst streams.main.length (streams.companions.map (·.2))] at inOutputs
    exact List.mem_map.mp inOutputs
  have present : (((streams.companions.map (·.2)).zipIdx streams.main.length).reverse.find?
      fun entry => entry.1.home == named.2.home).isSome :=
    List.find?_isSome.mpr ⟨entry, List.mem_reverse.mpr numbered, by simp [same]⟩
  obtain ⟨⟨o, id⟩, found⟩ := Option.isSome_iff_exists.mp present
  have sameHome : o.home = named.2.home := by simpa using List.find?_some found
  have inCompanions : o ∈ streams.companions.map (·.2) := by
    have inZip := List.mem_reverse.mp (List.mem_of_find?_eq_some found)
    rw [← List.zipIdx_map_fst streams.main.length (streams.companions.map (·.2))]
    exact List.mem_map_of_mem inZip
  obtain ⟨other, known, rfl⟩ := List.mem_map.mp inCompanions
  have unique : other = named :=
    List.inj_on_of_nodup_map program.companionsApart known member sameHome
  rw [unique] at found
  refine ⟨id, ?_⟩
  rw [Program.located?, order, List.find?_append, found, Option.some_or]

variable {l : Linking} (linked : l.program = Program.ofStreams streams)
include linked

theorem eq_of_located (member : named ∈ streams.main) {output : Output} {id : Nat}
    (located : l.program.located? named.2.home = some (output, id)) :
    output = named.2 ∨ (output.classes = [] ∧ output.constantNames = []) := by
  obtain ⟨here, sameHome⟩ := Program.located?_eq_some located
  rw [linked] at here
  obtain ⟨other, known, rfl⟩ := List.mem_map.mp (List.mem_of_getElem? here)
  rcases List.mem_append.mp known with inMain | inCompanions
  · have unique : other = named :=
      List.inj_on_of_nodup_map program.mainApart inMain member sameHome
    exact .inl (by rw [unique])
  · exact .inr (program.plain_companion inCompanions)

theorem mem_classes_of_object (member : named ∈ streams.main) (home : named.2.home = cls.module)
    {o : Object} (found : l.object cls = .ok o)
    (isClass : (∃ t, o = .record t) ∨ ∃ t, o = .enum t) : (cls.attr, o) ∈ named.2.classes := by
  obtain ⟨output, id, located, inClasses⟩ := Linking.object_eq_class found isClass
  rw [← home] at located
  rcases program.eq_of_located linked member located with rfl | ⟨none, -⟩
  · exact inClasses
  · rw [none] at inClasses
    cases inClasses

/-- A record class that is found under the reference to a record is the one that the output of the
    record makes. -/
theorem record_of_object (declared : r ∈ g.records) (names : g.classRef r.name = .ok cls)
    (found : l.object cls = .ok (.record t)) :
    t.cls.hashable = decide (r.kind ≠ .exception) ∧
      t.fields = r.unset cls.attr ∧
      ∃ named ∈ streams.main, named.2.classes = [(cls.attr, .record t)] ∧
        t.cls.name = named.1 := by
  obtain ⟨named, member, home, own, classes, key, hashable, fields⟩ :=
    program.main_of_record declared names
  have inClasses := program.mem_classes_of_object linked member home found (.inl ⟨t, rfl⟩)
  rw [classes, List.mem_singleton] at inClasses
  cases inClasses
  exact ⟨hashable, fields, named, member, classes, key⟩

theorem recordType_of_object (declared : r ∈ g.records) (names : g.classRef r.name = .ok cls)
    {type : RecordType} (found : l.object cls = .ok (.record t))
    (known : l.recordType? t.cls = some type) :
    type = t := by
  obtain ⟨-, -, named, member, classes, key⟩ := program.record_of_object linked declared names found
  obtain ⟨sameClass, attr, output, inProgram, made⟩ := Linking.recordType?_eq_some known
  rw [linked] at inProgram
  obtain ⟨other, inStreams, rfl⟩ := List.mem_map.mp inProgram
  rcases List.mem_append.mp inStreams with inMain | inCompanions
  · have sameKey : other.1 = named.1 := by
      rw [← key, ← sameClass]
      exact (program.class_name_unit inMain made).symm
    have unique : other = named :=
      List.inj_on_of_nodup_map program.main.distinct inMain member sameKey
    rw [unique, classes, List.mem_singleton] at made
    cases made
    rfl
  · rw [(program.plain_companion inCompanions).1] at made
    cases made

theorem enum_of_object (declared : e ∈ g.enums) (names : g.classRef e.name = .ok cls) {t : EnumType}
    (found : l.object cls = .ok (.enum t)) :
    t.name = cls.attr ∧ t.members = e.values.map fun m => (Name.sanitize m.1, m.2) := by
  obtain ⟨named, member, home, own, classes, sameName, members⟩ :=
    program.main_of_enum declared names
  have inClasses := program.mem_classes_of_object linked member home found (.inr ⟨t, rfl⟩)
  rw [classes, List.mem_singleton] at inClasses
  cases inClasses
  exact ⟨sameName, members⟩

/-- If a constant is found in the place of an enum class, it has the name of the class, in the
    module of the class. -/
theorem constant_of_object (declared : e ∈ g.enums) (names : g.classRef e.name = .ok cls)
    {v : Value} (found : l.object cls = .ok (.value v)) :
    ∃ named ∈ streams.main, cls.attr ∈ named.2.constantNames ∧
      ∃ t, (cls.attr, .enum t) ∈ named.2.classes := by
  obtain ⟨named, member, home, t, classes, -⟩ := program.main_of_enum declared names
  obtain ⟨output, id, located, constant⟩ := Linking.object_eq_value found
  rw [← home] at located
  rcases program.eq_of_located linked member located with rfl | ⟨-, none⟩
  · exact ⟨named, member, constant, t, by simp [classes]⟩
  · rw [none] at constant
    cases constant

theorem generator_of_object (declared : r ∈ g.records)
    (names : g.companionRef r.name "get_generator" = .ok ref) {o : Object}
    (found : l.object ref = .ok o) {c : Context} {next : Strategy}
    (generated : l.generate o.source c = .ok next) :
    ∃ module cls e part, g.classRef r.name = .ok cls ∧
      Companion.generator (g.seenFrom module) r.kind.word (.ref cls) r.fields = .ok e ∧
      e.meaning (l.surroundings c) = .ok part ∧ next = part.toStrategy := by
  obtain ⟨attr, named, member, home, module, cls, e, type, subject, param, result, clsName, drawn,
    body⟩ := program.companion_of_record declared names
  obtain ⟨id, located⟩ := program.located_companion member
  rw [home, ← linked] at located
  have here := (Program.located?_eq_some located).1
  obtain ⟨routine, bound, routineHome⟩ : ∃ routine : Routine,
      (named.2.bindings id).reverse.lookup ref.attr = some (.object (.routine routine)) ∧
        routine.home = id := by
    rw [Output.bindings, body, attr]
    exact ⟨_, rfl, rfl⟩
  have strategy : named.2.strategy? = some e := by
    rw [Output.strategy?, body]
    rfl
  unfold Linking.object at found
  split at found
  · cases found
    cases generated
  · split at found
    · cases found
      cases generated
    · simp only [located, bound] at found
      cases found
      simp only [Object.source, Linking.generate, routineHome, here, Option.bind_some,
        strategy] at generated
      obtain ⟨part, means, same⟩ := map_eq_ok.mp generated
      exact ⟨module, cls, e, part, clsName, drawn, means, same.symm⟩

end

end IsProgram

end
end IdlGen
