import IdlGen.Proofs.ConstantOrder

/-!
Names that a module declares twice. Every main module declares each of its names once exactly if
the classes for the functions of each service and the constants and types of each module differ
(`declaresOnce_iff_namesOnce`).
-/
namespace IdlGen

open Outcome

variable {s t name : String} {a : Char} {o : Output} {g : Group} {e : Enum} {r : Record}
  {raw : Streams}

def Method.stem (m : Method) : String := Name.camelize m.name.display

def Method.classNames (m : Method) : List String :=
  (m.stem ++ "Args") :: if m.oneway then [] else [m.stem ++ "Response"]

def Service.tableNames (s : Service) : List String :=
  "FUNCTIONS" :: if s.extends?.isSome then ["EXTENDS"] else []

/-- The names that a service declares in its module. -/
def Service.topNames (s : Service) : List String :=
  s.methods.flatMap Method.classNames ++ s.tableNames

theorem ne_of_getLast? {b : Char} (left : s.toList.getLast? = some a)
    (right : t.toList.getLast? = some b) (away : a ≠ b) : s ≠ t := by
  rintro rfl
  exact away (Option.some.inj (left.symm.trans right))

theorem getLast?_append (last : t.toList.getLast? = some a) :
    (s ++ t).toList.getLast? = some a := by
  simp [List.getLast?_append, last]

theorem args_ne_response (s t : String) : s ++ "Args" ≠ t ++ "Response" :=
  ne_of_getLast? (getLast?_append rfl) (getLast?_append rfl) (by decide)

theorem table_ne {table : String} (isTable : table = "FUNCTIONS" ∨ table = "EXTENDS")
    (s : String) : s ++ "Args" ≠ table ∧ s ++ "Response" ≠ table := by
  have last : table.toList.getLast? = some 'S' := by
    rcases isTable with rfl | rfl <;> rfl
  exact ⟨ne_of_getLast? (getLast?_append rfl) last (by decide),
    ne_of_getLast? (getLast?_append rfl) last (by decide)⟩

theorem Method.mem_classNames {m : Method} :
    name ∈ m.classNames ↔
      name = m.stem ++ "Args" ∨ m.oneway = false ∧ name = m.stem ++ "Response" := by
  cases way : m.oneway <;> simp [classNames, way]

theorem Method.disjoint_classNames {m other : Method} :
    List.Disjoint m.classNames other.classNames ↔ m.stem ≠ other.stem := by
  constructor
  · intro apart same
    exact apart (mem_classNames.mpr (.inl rfl)) (mem_classNames.mpr (.inl (by rw [same])))
  · intro away name first second
    rcases mem_classNames.mp first with rfl | ⟨-, rfl⟩
    · rcases mem_classNames.mp second with same | ⟨-, same⟩
      · exact away ((String.append_left_inj _).mp same)
      · exact args_ne_response _ _ same
    · rcases mem_classNames.mp second with same | ⟨-, same⟩
      · exact args_ne_response _ _ same.symm
      · exact away ((String.append_left_inj _).mp same)

theorem Service.mem_tableNames {s : Service} (member : name ∈ s.tableNames) :
    name = "FUNCTIONS" ∨ name = "EXTENDS" := by
  rw [tableNames] at member
  split at member
  · simpa using member
  · exact .inl (by simpa using member)

theorem Service.nodup_topNames {s : Service} :
    s.topNames.Nodup ↔ (s.methods.map Method.stem).Nodup := by
  have classes (m : Method) : m.classNames.Nodup := by
    rw [Method.classNames]
    split
    · simp
    · simp
  have tables : s.tableNames.Nodup := by
    rw [tableNames]
    split <;> decide
  have apart : List.Disjoint (s.methods.flatMap Method.classNames) s.tableNames := by
    intro name first second
    obtain ⟨m, -, first⟩ := List.mem_flatMap.mp first
    obtain ⟨noArgs, noResponse⟩ := table_ne (mem_tableNames second) m.stem
    rcases Method.mem_classNames.mp first with rfl | ⟨-, rfl⟩
    · exact noArgs rfl
    · exact noResponse rfl
  have functions : (s.methods.flatMap Method.classNames).Nodup ↔
      (s.methods.map Method.stem).Nodup := by
    rw [List.nodup_flatMap, List.Nodup, List.pairwise_map]
    refine (and_iff_right fun m _ => classes m).trans (List.Pairwise.iff fun _ _ => ?_)
    exact Method.disjoint_classNames
  rw [topNames, List.nodup_append', functions]
  exact ⟨fun all => all.1, fun distinct => ⟨distinct, tables, apart⟩⟩

/-! ### Names of outputs -/

namespace Output

/-- No two definitions of a module have one name. -/
def DeclaresOnce (o : Output) : Prop := o.topNames.Nodup

instance (o : Output) : Decidable o.DeclaresOnce := inferInstanceAs (Decidable o.topNames.Nodup)

def typeNames (o : Output) : List String :=
  (o.names.filter fun name => !(name.1 == .constant)).map (·.2)

theorem constantNames_eq (o : Output) :
    o.constantNames = (o.names.filter fun name => name.1 == .constant).map (·.2) := by
  have each (d : Declaration) :
      d.constantNames = (d.names.filter fun name => name.1 == .constant).map (·.2) := by
    cases d with
    | constants entries =>
      simp [Declaration.constantNames, Declaration.names, List.filter_map, Function.comp_def]
    | functionTable rows parent => cases parent <;> rfl
    | _ => rfl
  rw [constantNames, names, List.filter_flatMap, List.map_flatMap]
  exact congrArg (o.body.flatMap ·) (funext each)

theorem perm_topNames (o : Output) : (o.constantNames ++ o.typeNames).Perm o.topNames := by
  rw [constantNames_eq, typeNames, ← List.map_append]
  exact (List.filter_append_perm _ o.names).map _

theorem declaresOnce_iff :
    o.DeclaresOnce ↔
      o.constantNames.Nodup ∧ o.typeNames.Nodup ∧ List.Disjoint o.constantNames o.typeNames := by
  rw [DeclaresOnce, ← o.perm_topNames.nodup_iff, List.nodup_append']

theorem typeNames_of_none (none : ∀ name ∈ o.names, name.1 ≠ .constant) :
    o.constantNames = [] ∧ o.typeNames = o.topNames := by
  constructor
  · rw [constantNames_eq, List.filter_eq_nil_iff.mpr (by simpa using none), List.map_nil]
  · rw [typeNames, List.filter_eq_self.mpr (by simpa using none), topNames]

end Output

namespace Emit

variable {path : Value}

def TypeOutput (o : Output) (names : List String) : Prop :=
  o.constantNames = [] ∧ o.typeNames = names

theorem typeOutput_enumeration (done : enumeration g path name e = .ok o) :
    TypeOutput o [Name.className name] := by
  have body := (enumeration_eq_ok done).body
  simp [TypeOutput, Output.constantNames_eq, Output.typeNames, Output.names, body,
    Declaration.names]

theorem typeOutput_record {kind : String} (done : record g path kind name r = .ok o) :
    TypeOutput o [Name.className name] := by
  obtain ⟨attributes, -, drafted⟩ := record_eq_ok done
  simp [TypeOutput, Output.constantNames_eq, Output.typeNames, Output.names, drafted.body,
    Declaration.names]

theorem typeOutput_handler {s : Service} (done : handler g path s = .ok o) :
    ∃ name, handlerOutput g s.name = .ok name ∧ o.name = name ∧
      TypeOutput o [Name.className name] := by
  obtain ⟨name, parent, methods, named, -, -, drafted⟩ := handler_eq_ok done
  refine ⟨name, named, drafted.name, ?_⟩
  simp [TypeOutput, Output.constantNames_eq, Output.typeNames, Output.names, drafted.body,
    Declaration.names]

theorem MethodParts.names {m : Method} {parts : List Declaration} (isParts : MethodParts g m parts) :
    parts.flatMap Declaration.names = m.classNames.map (.message, ·) := by
  cases isParts with
  | oneway named way | answered named way =>
    simp [Method.classNames, Method.stem, named, way, Declaration.names]; rfl

theorem typeOutput_service {s : Service} (done : service g path s = .ok o) :
    TypeOutput o s.topNames := by
  obtain ⟨name, parts, rows, parent, -, each, extended, drafted⟩ := service_eq_ok done
  have classes : parts.flatten.flatMap Declaration.names =
      (s.methods.flatMap Method.classNames).map (.message, ·) := by
    clear drafted
    generalize s.methods = methods at each
    induction each with
    | nil => rfl
    | cons first _ ih =>
      rw [List.flatten_cons, List.flatMap_append, first.names, ih, List.flatMap_cons,
        List.map_append]
  have tables : (Declaration.functionTable rows parent).names = s.tableNames.map (.table, ·) := by
    rw [Declaration.names, Service.tableNames, ← extended]
    cases parent <;> rfl
  have names : o.names = (s.methods.flatMap Method.classNames).map (.message, ·) ++
      s.tableNames.map (.table, ·) := by
    rw [Output.names, drafted.body, List.flatMap_append, classes, List.flatMap_singleton, tables]
  have none : ∀ name ∈ o.names, name.1 ≠ .constant := by
    intro name member
    rw [names, List.mem_append, List.mem_map, List.mem_map] at member
    rcases member with ⟨_, -, rfl⟩ | ⟨_, -, rfl⟩ <;> simp
  obtain ⟨constants, types⟩ := Output.typeNames_of_none none
  refine ⟨constants, types.trans ?_⟩
  simp [Output.topNames, names, Service.topNames, Function.comp_def]

theorem names_constants {cs : List Constant} (done : constants g path name cs = .ok o) :
    o.constantNames = cs.map (fun c => Name.sanitize (Name.last c.name)) ∧ o.typeNames = [] := by
  obtain ⟨entries, each, drafted⟩ := constants_eq_ok done
  have names : entries.map (·.name) = cs.map fun c => Name.sanitize (Name.last c.name) :=
    (Stream.map_eq_map_of_forall₂ (fun _ _ isConstant => isConstant.name.symm) each).symm
  rw [← names]
  simp [Output.constantNames_eq, Output.typeNames, Output.names, drafted.body, Declaration.names,
    List.filter_map, Function.comp_def]

end Emit

namespace Group

/-- The constants that the schemas of a group give to the module of an output, in order. -/
def constantNames (g : Group) (output : String) : List String :=
  g.schemas.flatMap fun entry =>
    if (g.constantsOutput entry.2.module).toOption = some output then
      (entry.2.constants.values.filter (Stream.isOwn (g.seenFrom entry.2.module))).map fun c =>
        Name.sanitize (Name.last c.name)
    else []

/-- The names that an enum, a record, a service or its handler gives to the module of its
    output. -/
inductive Declares (g : Group) (output : String) : List String → Prop where
  | enum {e : Enum} (declared : e ∈ g.enums) (named : g.outputName e.name = .ok output) :
      Declares g output [Name.className output]
  | record {r : Record} (declared : r ∈ g.records) (named : g.outputName r.name = .ok output) :
      Declares g output [Name.className output]
  | service {s : Service} (declared : s ∈ g.services) (named : g.outputName s.name = .ok output) :
      Declares g output s.topNames
  | handler {s : Service} (declared : s ∈ g.services)
      (named : Emit.handlerOutput g s.name = .ok output) :
      Declares g output [Name.className output]

/-- The names of a group differ where they share a module: those of the classes for the functions
    of a service, those of constants, and those of constants from all others. -/
structure NamesOnce (g : Group) : Prop where
  functions : ∀ s ∈ g.services, (s.methods.map Method.stem).Nodup
  constants : ∀ output, (g.constantNames output).Nodup
  apart : ∀ output names, g.Declares output names → List.Disjoint (g.constantNames output) names

end Group

namespace Stream

variable {module : Value} {s : Schema} {emission : Emission}

structure GivesTypes (g : Group) (emission : Emission) (names : List String) : Prop where
  isType : emission.output.isType
  output : Emit.TypeOutput emission.output names
  declares : g.Declares emission.name names

theorem givesTypes_enum (declared : e ∈ g.enums)
    (made : enumEmission (g.seenFrom module) s.path e = .ok emission) :
    GivesTypes g emission [Name.className emission.name] := by
  obtain ⟨named, drafted⟩ := enumEmission_eq_ok made
  exact ⟨isType_of_kind (Emit.enumeration_eq_ok drafted).kind, Emit.typeOutput_enumeration drafted,
    .enum declared named⟩

theorem givesTypes_record (declared : r ∈ g.records)
    (made : recordEmission (g.seenFrom module) s.path r = .ok emission) :
    GivesTypes g emission [Name.className emission.name] := by
  obtain ⟨named, drafted⟩ := recordEmission_eq_ok made
  exact ⟨(main_record made).2, Emit.typeOutput_record drafted, .record declared named⟩

variable {service : Service} {outputs : List Output}

theorem givesTypes_service (declared : service ∈ g.services)
    (made : serviceEmission (g.seenFrom module) s.path service = .ok emission) :
    GivesTypes g emission service.topNames ∧ g.outputName service.name = .ok emission.name := by
  obtain ⟨emissionName, drafted⟩ := serviceEmission_eq_ok made
  obtain ⟨_, _, _, _, named, -, -, isDrafted⟩ := Emit.service_eq_ok drafted
  have isType := isType_of_kind isDrafted.kind
  have named : g.outputName service.name = .ok emission.name :=
    emissionName ▸ isDrafted.name ▸ named
  exact ⟨⟨isType, Emit.typeOutput_service drafted, .service declared named⟩, named⟩

theorem givesTypes_handler (declared : service ∈ g.services)
    (made : handlerEmission (g.seenFrom module) s.path service = .ok emission) :
    GivesTypes g emission [Name.className emission.name] ∧
      Emit.handlerOutput g service.name = .ok emission.name := by
  obtain ⟨emissionName, drafted⟩ := serviceEmission_eq_ok made
  obtain ⟨name, named, rfl, output⟩ := Emit.typeOutput_handler drafted
  rw [← emissionName]
  obtain ⟨_, _, _, -, -, -, isDrafted⟩ := Emit.handler_eq_ok drafted
  have isType := isType_of_kind isDrafted.kind
  exact ⟨⟨isType, output, emissionName ▸ .handler declared named⟩, named⟩

theorem givesTypes_of_main {entry : Value × Schema} (known : entry ∈ g.schemas)
    (member : .ok emission ∈ mainEmissions (g.seenFrom entry.2.module) entry.2) :
    (∃ names, GivesTypes g emission names) ∨ emission.output.typeNames = [] := by
  cases mem_mainEmissions_iff.mp member with
  | enum declared made =>
    exact .inl ⟨_, givesTypes_enum (List.mem_flatMap.mpr ⟨entry, known, declared⟩) made⟩
  | constants constants =>
    obtain ⟨cs, -, -, drafted⟩ := constantEmissions_eq_ok constants
    exact .inr (Emit.names_constants drafted).2
  | record declared made =>
    exact .inl ⟨_, givesTypes_record (List.mem_flatMap.mpr ⟨entry, known, declared⟩) made⟩
  | service declared made =>
    exact .inl ⟨_, (givesTypes_service (List.mem_flatMap.mpr ⟨entry, known, declared⟩) made).1⟩
  | handler declared made =>
    exact .inl ⟨_, (givesTypes_handler (List.mem_flatMap.mpr ⟨entry, known, declared⟩) made).1⟩

theorem givesTypes_of_declares (generated : ofGroup g = .ok raw) {output : String}
    {names : List String} (declares : g.Declares output names) :
    ∃ emission, GivesTypes g emission names ∧ emission.name = output ∧
      (emission.name, emission.output) ∈ raw.main := by
  have found {entry : Value × Schema} (known : entry ∈ g.schemas)
      {outcome : Except Fault Emission}
      (of : MainOf (g.seenFrom entry.2.module) entry.2 outcome) :
      ∃ emission, outcome = .ok emission ∧ (emission.name, emission.output) ∈ raw.main := by
    obtain ⟨emission, rfl, member⟩ := exists_main generated known of
    exact ⟨emission, rfl, (mem_main_iff generated).mpr ⟨entry, known, emission, member, rfl⟩⟩
  cases declares with
  | @enum e declared named =>
    obtain ⟨entry, known, inSchema⟩ := List.mem_flatMap.mp declared
    obtain ⟨emission, made, inRaw⟩ := found known (.enum inSchema rfl)
    cases Except.ok.inj (named.symm.trans (enumEmission_eq_ok made).1)
    exact ⟨emission, givesTypes_enum declared made, rfl, inRaw⟩
  | @record r declared named =>
    obtain ⟨entry, known, inSchema⟩ := List.mem_flatMap.mp declared
    obtain ⟨emission, made, inRaw⟩ := found known (.record inSchema rfl)
    cases Except.ok.inj (named.symm.trans (recordEmission_eq_ok made).1)
    exact ⟨emission, givesTypes_record declared made, rfl, inRaw⟩
  | @service service declared named =>
    obtain ⟨entry, known, inSchema⟩ := List.mem_flatMap.mp declared
    obtain ⟨emission, made, inRaw⟩ := found known (.service inSchema rfl)
    obtain ⟨gives, emissionName⟩ := givesTypes_service declared made
    exact ⟨emission, gives, Except.ok.inj (emissionName.symm.trans named), inRaw⟩
  | @handler service declared named =>
    obtain ⟨entry, known, inSchema⟩ := List.mem_flatMap.mp declared
    obtain ⟨emission, made, inRaw⟩ := found known (.handler inSchema rfl)
    obtain ⟨gives, emissionName⟩ := givesTypes_handler declared made
    cases Except.ok.inj (named.symm.trans emissionName)
    exact ⟨emission, gives, rfl, inRaw⟩

/-! ### Names of units -/

theorem typeNames_eq_flatMap {unit : Output} (body : unit.body = outputs.flatMap (·.body)) :
    unit.typeNames = outputs.flatMap Output.typeNames ∧
      unit.constantNames = outputs.flatMap Output.constantNames := by
  have names : unit.names = outputs.flatMap Output.names := by
    rw [Output.names, body, List.flatMap_assoc]
    rfl
  constructor
  · rw [Output.typeNames, names, List.filter_flatMap, List.map_flatMap]
    rfl
  · rw [Output.constantNames, body, List.flatMap_assoc]
    rfl

variable {outs : List Named}

theorem constantNames_collect {emissions : List (Except Fault Emission)}
    (done : collect emissions = .ok outs)
    (each : ∀ emission, .ok emission ∈ emissions → emission.output.constantNames = [])
    (output : String) : (under output outs).flatMap Output.constantNames = [] := by
  refine List.flatMap_eq_nil_iff.mpr fun o known => ?_
  obtain ⟨emission, member, same⟩ := (mem_collect_iff done).mp (mem_under_iff.mp known)
  cases same
  exact each emission member

theorem constantNames_constants (done : collect (constantEmissions g s) = .ok outs)
    (output : String) :
    (under output outs).flatMap Output.constantNames =
      if g.currentConstantsOutput.toOption = some output then
        (s.constants.values.filter (isOwn g)).map fun c => Name.sanitize (Name.last c.name)
      else [] := by
  have steps : stepsUnder output outs = _ := stepsUnder_constants done
  have given : (under output outs).flatMap Output.constantNames =
      (stepsUnder output outs).flatMap (·.gives) := by
    rw [stepsUnder, List.flatMap_assoc]
    refine List.flatMap_congr fun o known => ?_
    obtain ⟨emission, member, same⟩ := (mem_collect_iff done).mp (mem_under_iff.mp known)
    cases same
    obtain ⟨cs, -, -, drafted⟩ := constantEmissions_eq_ok member
    obtain ⟨entries, -, drafted⟩ := Emit.constants_eq_ok drafted
    rw [Output.constantNames, Output.steps, drafted.body, List.flatMap_singleton, List.flatMap_singleton,
      Declaration.constantNames, Declaration.steps, List.flatMap_map, List.map_eq_flatMap]
  rw [given, steps, flatMap_constantSteps]
  by_cases here : g.currentConstantsOutput.toOption = some output
  · rw [if_pos here, if_pos here, List.flatMap_map, List.map_eq_flatMap]
  · rw [if_neg here, if_neg here, List.flatMap_nil]

theorem constantNames_schema {part : Streams} (done : ofSchema g s = .ok part) (output : String) :
    (under output part.main).flatMap Output.constantNames =
      if (g.constantsOutput s.module).toOption = some output then
        (s.constants.values.filter (isOwn (g.seenFrom s.module))).map fun c =>
          Name.sanitize (Name.last c.name)
      else [] := by
  obtain ⟨enums, constants, records, services, enumsDone, constantsDone, recordsDone,
    servicesDone, main⟩ := main_eq_append done
  have noEnums := constantNames_collect enumsDone (fun emission member => by
    obtain ⟨e, -, made⟩ := List.mem_map.mp member
    exact (Emit.typeOutput_enumeration (enumEmission_eq_ok made).2).1) output
  have noRecords := constantNames_collect recordsDone (fun emission member => by
    obtain ⟨r, -, made⟩ := List.mem_map.mp member
    exact (Emit.typeOutput_record (recordEmission_eq_ok made).2).1) output
  have noServices := constantNames_collect servicesDone (fun emission member => by
    simp only [List.mem_append, List.mem_map] at member
    rcases member with ⟨service, -, made⟩ | ⟨service, -, made⟩
    · obtain ⟨o, drafted, made⟩ := bind_eq_ok.mp made
      cases made
      exact (Emit.typeOutput_service drafted).1
    · obtain ⟨o, drafted, made⟩ := bind_eq_ok.mp made
      cases made
      obtain ⟨name, -, -, types⟩ := Emit.typeOutput_handler drafted
      exact types.1) output
  rw [main, under_append, under_append, under_append, List.flatMap_append, List.flatMap_append,
    List.flatMap_append, noEnums, noRecords, noServices, List.nil_append, List.append_nil,
    constantNames_constants constantsDone, List.append_nil]
  rfl

section
variable {units : List Named} {unit : Named} (generated : ofGroup g = .ok raw)
  (folded : Folded raw.main units)
include generated folded

theorem typeNames_unit (member : unit ∈ units) :
    ∃ o, (unit.1, o) ∈ raw.main ∧ unit.2.typeNames = o.typeNames ∧
      ∀ other, (unit.1, other) ∈ raw.main → other.isType → other = o := by
  have plain (o : Output) (known : (unit.1, o) ∈ raw.main) : o.isType ∨ o.typeNames = [] := by
    obtain ⟨entry, inGroup, emission, inMain, same⟩ := (mem_main_iff generated).mp known
    obtain ⟨-, rfl⟩ := Prod.mk.inj same
    exact (givesTypes_of_main inGroup inMain).imp_left fun ⟨_, gives⟩ => gives.isType
  rcases mergeAll?_eq (folded.fold_of_mem member) with only | ⟨-, type, types, -⟩
  · have here : unit.2 ∈ under unit.1 raw.main := by simp [only]
    refine ⟨unit.2, mem_under_iff.mp here, rfl, fun other known _ => ?_⟩
    simpa [only] using mem_under_iff.mpr known
  · have here : type ∈ (under unit.1 raw.main).filter Output.isType := by simp [types]
    refine ⟨type, mem_under_iff.mp (List.mem_of_mem_filter here), ?_, fun other known isType => ?_⟩
    · rw [(typeNames_eq_flatMap (folded.body_unit member)).1]
      exact flatMap_of_isType types fun o known => plain o (mem_under_iff.mp known)
    · have single : other ∈ (under unit.1 raw.main).filter Output.isType :=
        List.mem_filter.mpr ⟨mem_under_iff.mpr known, isType⟩
      rwa [types, List.mem_singleton] at single

/-- A unit declares the names of one declaration besides its constants, or constants only. -/
theorem declares_unit (member : unit ∈ units) :
    g.Declares unit.1 unit.2.typeNames ∨ unit.2.typeNames = [] := by
  obtain ⟨o, known, same, -⟩ := typeNames_unit generated folded member
  obtain ⟨entry, inGroup, emission, inMain, named⟩ := (mem_main_iff generated).mp known
  obtain ⟨name, rfl⟩ := Prod.mk.inj named
  rw [same, name]
  rcases givesTypes_of_main inGroup inMain with ⟨names, gives⟩ | none
  · rw [gives.output.2]
    exact .inl gives.declares
  · exact .inr none

theorem unit_of_declares {output : String} {names : List String}
    (declares : g.Declares output names) :
    ∃ unit, (output, unit) ∈ units ∧ unit.typeNames = names := by
  obtain ⟨emission, gives, rfl, inRaw⟩ := givesTypes_of_declares generated declares
  obtain ⟨unit, member, -⟩ := folded.unit inRaw
  obtain ⟨o, -, same, single⟩ := typeNames_unit generated folded member
  refine ⟨unit, member, same.trans ?_⟩
  rw [← single _ inRaw gives.isType, gives.output.2]

theorem constantNames_unit (member : unit ∈ units) :
    unit.2.constantNames = g.constantNames unit.1 := by
  have streams : under unit.1 raw.main =
      g.schemas.flatMap fun entry => under unit.1 (partOf g entry.2).main := by
    rw [main_eq_flatMap generated, under, List.filter_flatMap, List.map_flatMap]
    rfl
  rw [(typeNames_eq_flatMap (folded.body_unit member)).2, streams, List.flatMap_assoc]
  refine List.flatMap_congr fun entry known => ?_
  exact constantNames_schema (ofSchema_eq_partOf generated known) unit.1

theorem unit_of_constantNames {output : String} (member : name ∈ g.constantNames output) :
    ∃ unit, (output, unit) ∈ units := by
  obtain ⟨entry, known, member⟩ := List.mem_flatMap.mp member
  by_cases here : (g.constantsOutput entry.2.module).toOption = some output
  · rw [if_pos here] at member
    obtain ⟨c, own, -⟩ := List.mem_map.mp member
    obtain ⟨declared, own⟩ := List.mem_filter.mp own
    obtain ⟨emission, cs, inMain, named, -⟩ :=
      constants_of_owned generated known declared (isOwn_iff.mp own)
    cases Except.ok.inj ((toOption_eq_some.mp here).symm.trans named)
    obtain ⟨unit, inUnits, -⟩ :=
      folded.unit ((mem_main_iff generated).mpr ⟨entry, known, emission, inMain, rfl⟩)
    exact ⟨unit, inUnits⟩
  · rw [if_neg here] at member
    cases member

end

end Stream

section
variable {streams : Streams}

open IdlGen.Stream

theorem Group.NamesOnce.nodup {output : String} {names : List String} (once : g.NamesOnce)
    (declares : g.Declares output names) : names.Nodup := by
  cases declares with
  | service declared named => exact Service.nodup_topNames.mpr (once.functions _ declared)
  | _ => exact List.nodup_singleton _

/-- Every main module declares each of its names once exactly if the classes for the functions of
    each service differ, constants that share a module do, and no constant has a name that a type, a
    service or a handler gives to its module. Names are compared as they are written, not by their
    normal forms. -/
theorem declaresOnce_iff_namesOnce (resolved : Stream.resolved g = .ok streams) :
    (∀ unit ∈ streams.main, unit.2.DeclaresOnce) ↔ g.NamesOnce := by
  obtain ⟨raw, generated, folded, -⟩ := resolved_eq_ok resolved
  constructor
  · intro once
    refine ⟨fun s declared => ?_, fun output => ?_, fun output names declares => ?_⟩
    · -- The service is accepted, so it has an output name and a unit.
      obtain ⟨entry, known, inSchema⟩ := List.mem_flatMap.mp declared
      obtain ⟨emission, made, -⟩ := exists_main generated known (.service inSchema rfl)
      have gives := (givesTypes_service declared made).1
      obtain ⟨unit, member, names⟩ := unit_of_declares generated folded gives.declares
      have nodup := (Output.declaresOnce_iff.mp (once _ member)).2.1
      rw [names] at nodup
      exact Service.nodup_topNames.mp nodup
    · rcases List.eq_nil_or_concat (g.constantNames output) with none | ⟨_, name, same⟩
      · rw [none]
        exact List.nodup_nil
      · have given : name ∈ g.constantNames output := by simp [same]
        obtain ⟨unit, member⟩ := unit_of_constantNames generated folded given
        rw [← constantNames_unit generated folded member]
        exact (Output.declaresOnce_iff.mp (once _ member)).1
    · obtain ⟨unit, member, same⟩ := unit_of_declares generated folded declares
      rw [← same, ← constantNames_unit generated folded member]
      exact (Output.declaresOnce_iff.mp (once _ member)).2.2
  · intro once unit member
    have constants := constantNames_unit generated folded member
    refine Output.declaresOnce_iff.mpr ⟨?_, ?_, ?_⟩
    · rw [constants]
      exact once.constants unit.1
    · rcases declares_unit generated folded member with declares | none
      · exact once.nodup declares
      · rw [none]
        exact List.nodup_nil
    · rcases declares_unit generated folded member with declares | none
      · rw [constants]
        exact once.apart unit.1 _ declares
      · rw [none]
        exact List.disjoint_nil_right _

def deskGroup : Group where
  schemas := [(.text "desk", {
    module := .text "desk"
    constants := [("TOP", { name := "desk.TOP", type := .primitive .i32, value := .int 3 })]
    services := [("Desk", {
      name := "desk.Desk", extends? := none
      methods := [
        { name := .text "get_item", params := [], returns := none, throws := [], oneway := false },
        { name := .text "put_item", params := [], returns := none, throws := [], oneway := true }]
      })] })]

def deskStreams : Streams := deskGroup.streams (by decide +kernel)

theorem deskStreams_resolved : Stream.resolved deskGroup = .ok deskStreams :=
  Group.resolved_streams _

/-- The module of the service declares a constant, three classes and a table. -/
theorem desk_namesOnce :
    (∃ streams, Stream.resolved deskGroup = .ok streams ∧
      (∀ unit ∈ streams.main, unit.2.DeclaresOnce) ∧
      ∃ unit ∈ streams.main, unit.2.topNames =
        ["TOP", "GetItemArgs", "GetItemResponse", "PutItemArgs", "FUNCTIONS"]) ∧
    deskGroup.NamesOnce := by
  have once : (∀ unit ∈ deskStreams.main, unit.2.DeclaresOnce) ∧
      ∃ unit ∈ deskStreams.main, unit.2.topNames =
        ["TOP", "GetItemArgs", "GetItemResponse", "PutItemArgs", "FUNCTIONS"] := by
    decide +kernel
  exact ⟨⟨deskStreams, deskStreams_resolved, once⟩,
    (declaresOnce_iff_namesOnce deskStreams_resolved).mp once.1⟩

/-- A document of a module with an enum and a constant whose names differ in case, and a service
    with functions whose names differ in their writing. -/
def colorDocument : String :=
  "\x7b\"module\": \"color\", \"enums\": [\x7b\"name\": \"color\", " ++
  "\"values\": \x7b\"RED\": 1\x7d\x7d], \"constants\": " ++
  "[\x7b\"name\": \"Color\", \"type\": \"i32\", \"value\": 7\x7d], \"services\": " ++
  "[\x7b\"name\": \"Desk\", \"functions\": [\x7b\"name\": \"get_user\"\x7d, " ++
  "\x7b\"name\": \"getUser\"\x7d]\x7d]\x7d"

def colorWorld : World where
  tree := { nodes := [(["color.json"], .file colorDocument)] }

/-- The document is loaded and resolved, and the functions of its service have different names. But
    its first module declares `Color` as a class and as a constant, and the next has each class
    for the functions twice. -/
theorem color_declares_twice :
    ∃ g, ((Session.loadGroup ["color.json"]).run colorWorld).1 = .ok g ∧
      (∀ s ∈ g.services, (s.methods.map fun m => m.name.display).Nodup) ∧
      ∃ streams, Stream.resolved g = .ok streams ∧
        streams.main.map (fun unit => (unit.1, unit.2.topNames)) = [
          ("Color", ["Color", "Color"]),
          ("Desk", ["GetUserArgs", "GetUserResponse", "GetUserArgs", "GetUserResponse",
            "FUNCTIONS"]),
          ("DeskHandler", ["DeskHandler"])] ∧
        ¬ ∀ unit ∈ streams.main, unit.2.DeclaresOnce := by
  simp only [← toOption_eq_some, ← Option.mem_def]
  decide +kernel

end
end IdlGen
