import IdlGen.Proofs.Declarations
import IdlGen.Proofs.References

/-!
Generated programs are closed: whatever the expressions of a unit refer to, outside the libraries,
is declared at top level by one unit (`IsProgram.declared_of_refersTo`).
-/
namespace IdlGen

open Outcome

variable {module rest name : String} {r cls : Ref} {path : Value} {c : Constant}
  {entry : Value × Schema}

namespace Text

variable {sep : Char} {before after : List Char}

theorem cutFirst_of_not_mem {chars : List Char} (free : sep ∉ chars) :
    cutFirst sep chars = (chars, none) := by
  induction chars with
  | nil => rfl
  | cons c rest ih =>
    rw [List.mem_cons, not_or] at free
    rw [cutFirst, if_neg (Ne.symm free.1), ih free.2]

theorem cutFirst_append_sep (free : sep ∉ before) :
    cutFirst sep (before ++ sep :: after) = (before, some after) := by
  induction before with
  | nil => simp [cutFirst]
  | cons c rest ih =>
    rw [List.mem_cons, not_or] at free
    rw [List.cons_append, cutFirst, if_neg (Ne.symm free.1), ih free.2]

theorem cutLast_append_sep (free : sep ∉ after) :
    cutLast sep (before ++ sep :: after) = (some before, after) := by
  have reversed : (before ++ sep :: after).reverse = after.reverse ++ sep :: before.reverse := by
    simp
  have away : sep ∉ after.reverse := by simpa using free
  simp [cutLast, reversed, cutFirst_append_sep away]

theorem partition_of_not_mem {s : String} (free : sep ∉ s.toList) : (partition sep s).1 = s := by
  simp [partition, cutFirst_of_not_mem free]

theorem partition_append_dot (free : '.' ∉ module.toList) :
    partition '.' (module ++ "." ++ rest) = (module, rest) := by
  have chars : (module ++ "." ++ rest).toList = module.toList ++ '.' :: rest.toList := by simp
  simp [partition, chars, cutFirst_append_sep free]

theorem partitionLast_append_dot (free : '.' ∉ rest.toList) :
    partitionLast '.' (module ++ "." ++ rest) = (module, rest) := by
  have chars : (module ++ "." ++ rest).toList = module.toList ++ '.' :: rest.toList := by simp
  simp [partitionLast, chars, cutLast_append_sep free]

end Text

namespace Name

theorem dot_not_mem_className (output : String) : '.' ∉ (className output).toList := by
  rw [className, last, Text.partitionLast]
  rcases Text.cutLast_cases '.' output.toList with ⟨cut, free⟩ | ⟨before, rest, cut, -, free⟩
  · simpa [cut] using free
  · simpa [cut] using free

theorem dot_not_mem_sanitize (free : '.' ∉ name.toList) : '.' ∉ (sanitize name).toList := by
  rw [sanitize]
  split
  · simpa using free
  · exact free

theorem split_append_dot (free : '.' ∉ module.toList) {parts : String × String}
    (done : split (module ++ "." ++ rest) = .ok parts) : parts = (module, rest) := by
  simp only [split, Text.partition_append_dot free] at done
  by_cases empty : rest = ""
  · rw [if_pos empty] at done
    cases done
  · rw [if_neg empty] at done
    exact (Except.ok.inj done).symm

theorem last_append_dot (free : '.' ∉ rest.toList) : last (module ++ "." ++ rest) = rest := by
  rw [last, Text.partitionLast_append_dot free]

end Name

namespace Ref

/-- The name that a reference reads from its module; what follows a dot is read from that. -/
def head (r : Ref) : String := (Text.partition '.' r.attr).1

def libraries : List String := [replace.module, strategiesModule, supportModule]

theorem head_of_not_mem (free : '.' ∉ r.attr.toList) : r.head = r.attr :=
  Text.partition_of_not_mem free

end Ref

/-- What a reference into a generated module stands for. -/
inductive Subject where
  /-- The class of a record. -/
  | record (r : Record)
  /-- The class of an enum, or a member of it. -/
  | enum (e : Enum)
  | constant (c : Constant)
  /-- The generator of the companion of a record. -/
  | companion (r : Record)
  /-- The handler protocol of a service. -/
  | handler (s : Service)

def Subject.kind : Subject → NameKind
  | record _ => .type
  | enum _ => .type
  | constant _ => .constant
  | companion _ => .function
  | handler _ => .handler

namespace Group

/-- The constants of all schemas, with those that are taken over from includes. -/
def constants (g : Group) : List Constant := g.schemas.flatMap fun entry => entry.2.constants.values

def services (g : Group) : List Service := g.schemas.flatMap fun entry => entry.2.services.values

/-- The group declares the subject, and writes the reference for it. -/
def RefersTo (g : Group) (r : Ref) : Subject → Prop
  | .record record => record ∈ g.records ∧ g.classRef record.name = .ok r
  | .enum e => e ∈ g.enums ∧ ∃ cls, g.classRef e.name = .ok cls ∧
      (r = cls ∨ ∃ member, r = { module := cls.module, attr := cls.attr ++ "." ++ member })
  | .constant c => c ∈ g.constants ∧ g.constantRef c = .ok r
  | .companion record => record ∈ g.records ∧ g.companionRef record.name "get_generator" = .ok r
  | .handler s => s ∈ g.services ∧ Emit.handlerRef g s.name = .ok r

def Refers (g : Group) (r : Ref) : Prop :=
  r.module ∈ Ref.libraries ∨ ∃ subject, g.RefersTo r subject

variable {g : Group}

theorem drawsAllowed_refers (g : Group) : g.DrawsAllowed g.Refers AnyName AnyName where
  record r declared _ named := .inr ⟨.record r, declared, named⟩
  enum e declared cls named := .inr ⟨.enum e, declared, cls, named, .inl rfl⟩
  freezes := trivial
  strategy _ _ := .inl (by simp [Ref.strategy, Ref.libraries])
  support _ _ := .inl (by simp [Ref.support, Ref.libraries])
  replace := .inl (by simp [Ref.libraries])
  companion r declared _ named := .inr ⟨.companion r, declared, named⟩
  names _ _ := ⟨trivial, trivial⟩

theorem declared_of_resolveValue {referent : Referent}
    (resolves : g.resolveValue name = .ok referent) :
    (∀ c, referent = .constant c → c ∈ g.constants) ∧
      ∀ e member, referent = .member e member → e ∈ g.enums := by
  rw [resolveValue] at resolves
  obtain ⟨⟨module, rest⟩, -, resolves⟩ := bind_eq_ok.mp resolves
  dsimp only at resolves
  split at resolves
  · rename_i c found
    cases resolves
    obtain ⟨s, known, inSchema⟩ := Option.bind_eq_some_iff.mp found
    obtain ⟨entry, entryFound, rfl⟩ := Option.map_eq_some_iff.mp known
    have declared : c ∈ g.constants :=
      List.mem_flatMap.mpr ⟨entry, List.mem_of_find?_eq_some entryFound, mem_values_of_get? inSchema⟩
    refine ⟨fun _ same => ?_, fun _ _ same => by cases same⟩
    cases same
    exact declared
  · split at resolves
    · cases resolves
    · obtain ⟨entity, found, resolves⟩ := bind_eq_ok.mp resolves
      cases entity with
      | enum e =>
        dsimp only at resolves
        split at resolves
        · cases resolves
          refine ⟨fun _ same => (by cases same), fun _ _ same => ?_⟩
          cases same
          exact mem_enums_of_resolve found
        · cases resolves
      | _ => cases resolves

theorem refers_of_referentRef (made : g.referentRef name = .ok r) : g.Refers r := by
  obtain ⟨referent, resolves, made⟩ := bind_eq_ok.mp made
  obtain ⟨constants, members⟩ := declared_of_resolveValue resolves
  cases referent with
  | constant c => exact .inr ⟨.constant c, constants c rfl, made⟩
  | member e member =>
    obtain ⟨cls, named, made⟩ := bind_eq_ok.mp made
    cases made
    exact .inr ⟨.enum e, members e member rfl, cls, named, .inr ⟨_, rfl⟩⟩

theorem valuesAllowed_refers (g : Group) (v : Value) : g.ValuesAllowed g.Refers v :=
  fun _ _ _ => refers_of_referentRef

theorem refers_of_hint {type : FieldType} {isFrozen frozenDraw : Bool} {hint : TypeHint}
    {e : Expr} (hinted : (g.hint type isFrozen).outcome = .ok hint)
    (drawn : g.draw type frozenDraw = .ok e) (isClass : hint.class? = some r) : g.Refers r := by
  rw [Group.hint, typeFuel, outcome_hintWithin_succ] at hinted
  rw [Group.draw, typeFuel, drawWithin_succ] at drawn
  obtain ⟨resolved, resolves, hinted⟩ := bind_eq_ok.mp hinted
  rw [resolves] at drawn
  have declared := declared_of_resolveType resolves
  cases resolved with
  | primitive p => cases p <;> cases hinted <;> cases isClass
  | list element =>
    obtain ⟨inner, -, hinted⟩ := bind_eq_ok.mp hinted
    cases hinted
    cases isFrozen <;> cases isClass
  | set element =>
    obtain ⟨hashes, -, hinted⟩ := bind_eq_ok.mp hinted
    obtain ⟨inner, -, hinted⟩ := bind_eq_ok.mp hinted
    cases hinted
    cases hashes <;> cases isFrozen <;> cases isClass
  | map key value =>
    obtain ⟨inner, -, hinted⟩ := bind_eq_ok.mp hinted
    obtain ⟨hashes, -, hinted⟩ := bind_eq_ok.mp hinted
    obtain ⟨keys, -, hinted⟩ := bind_eq_ok.mp hinted
    cases hinted
    cases hashes <;> cases isFrozen <;> cases isClass
  | record record =>
    obtain ⟨cls, named, rfl⟩ := map_eq_ok.mp hinted
    cases isClass
    exact .inr ⟨.record record, declared, named⟩
  | enum enum =>
    obtain ⟨cls, named, rfl⟩ := map_eq_ok.mp hinted
    cases isClass
    exact .inr ⟨.enum enum, declared, r, named, .inl rfl⟩
  | constant c => cases drawn
  | service s => cases drawn

end Group

/-! ### What units refer to -/

def Declaration.Refers (g : Group) (d : Declaration) : Prop :=
  ∀ e ∈ d.exprs, e.WrittenWith g.Refers Group.AnyName Group.AnyName

namespace Companion

open Drafting Expr

variable {g : Group} {o : Output} {d : Draft}

theorem refers_functions {type : TypeHint} {subject param : String} {strategy result : Expr}
    (isClass : ∀ r, type.class? = some r → g.Refers r)
    (drawn : strategy.WrittenWith g.Refers Group.AnyName Group.AnyName)
    (defaulted : result.WrittenWith g.Refers Group.AnyName Group.AnyName) :
    ∀ d ∈ [.generator type subject strategy, .defaults type param result],
      Declaration.Refers g d := by
  have draws := g.drawsAllowed_refers
  have class? : ∀ e ∈ type.class?.toList.map Expr.ref,
      e.WrittenWith g.Refers Group.AnyName Group.AnyName := by
    intro e member
    obtain ⟨r, known, rfl⟩ := List.mem_map.mp member
    exact writtenWith_ref.mpr (isClass r (Option.mem_toList.mp known))
  intro d member
  rcases List.mem_cons.mp member with rfl | member
  · exact List.forall_mem_append.mpr ⟨class?, List.forall_mem_cons.mpr
      ⟨writtenWith_ref.mpr (draws.support _ (by decide)), List.forall_mem_cons.mpr
        ⟨writtenWith_ref.mpr (draws.strategy _ (by decide)), List.forall_mem_singleton.mpr drawn⟩⟩⟩
  · cases List.mem_singleton.mp member
    refine List.forall_mem_append.mpr ⟨class?, List.forall_mem_cons.mpr
      ⟨writtenWith_ref.mpr (draws.support _ (by decide)), List.forall_mem_cons.mpr
        ⟨defaulted, ?_⟩⟩⟩
    dsimp only [List.append_eq, List.nil_append]
    split
    · exact class?
    · simp

def IsDeclared (g : Group) : Entity → Prop
  | .record r => r ∈ g.records
  | .enum e => e ∈ g.enums
  | _ => True

theorem refers_output {entity : Entity} (declared : IsDeclared g entity)
    (done : output g path name entity = .ok o) : ∀ d ∈ o.body, d.Refers g := by
  have draws := g.drawsAllowed_refers
  obtain ⟨t, rfl⟩ | ⟨e, rfl⟩ | ⟨r, rfl⟩ := entity_of_output done
  · obtain ⟨hint, strategy, subject, hinted, drawn, drafted⟩ := output_typedef_eq_ok done
    rw [drafted.body]
    refine refers_functions (fun r => Group.refers_of_hint hinted drawn) ?_ ?_
    · exact Group.writtenWith_draw draws drawn
    · exact writtenWith_defaulted draws (by simp)
  · obtain ⟨cls, strategy, subject, named, just, nothing, drafted⟩ := output_enum_eq_ok done
    rw [drafted.body]
    have isClass : g.Refers cls := .inr ⟨.enum e, declared, cls, named, .inl rfl⟩
    refine refers_functions (fun r known => ?_) ?_ (by simp)
    · cases known
      exact isClass
    · cases values : e.values with
      | nil => simp [nothing values, Expr.strategy, draws.strategy "nothing" (by decide)]
      | cons first rest =>
        have isMember : g.Refers { module := cls.module, attr := cls.attr ++ "." ++ first.1 } :=
          .inr ⟨.enum e, declared, cls, named, .inr ⟨first.1, rfl⟩⟩
        simpa [just first rest values, Expr.apply, draws.strategy "just" (by decide)] using isMember
  · obtain ⟨cls, strategy, subject, result, named, drawn, defaulted, drafted⟩ :=
      output_record_eq_ok done
    rw [drafted.body]
    have isClass : g.Refers cls := .inr ⟨.record r, declared, named⟩
    refine refers_functions (fun other known => ?_) ?_ ?_
    · cases known
      exact isClass
    · exact writtenWith_generator draws (writtenWith_ref.mpr isClass) (fun _ _ => trivial) drawn
    · exact writtenWith_defaults draws g.valuesAllowed_refers defaulted

end Companion

namespace Stream

open Expr

variable {g : Group} {s : Schema} {emission : Emission}

theorem mem_ownConstants_iff {cs : List Constant} (own : ownConstants g s = .ok cs) :
    c ∈ cs ↔ c ∈ s.constants.values ∧ g.owns c.name = .ok true := by
  rw [filterM_eq_ok own, List.mem_filter]
  refine and_congr_right fun _ => ?_
  cases g.owns c.name <;> simp [Except.toOption]

theorem refers_record {r : Record} (made : recordEmission g path r = .ok emission) :
    ∀ d ∈ emission.output.body, d.Refers g := by
  obtain ⟨attributes, -, drafted⟩ := Emit.record_eq_ok (recordEmission_eq_ok made).2
  simp [drafted.body, Declaration.Refers, Declaration.exprs, Declaration.subject?, Declaration.lowered]

theorem refers_main
    (parents : ∀ service ∈ s.services.values, ∀ parent, service.extends? = some parent →
      ∃ other ∈ g.services, other.name = parent)
    (member : .ok emission ∈ mainEmissions g s) : ∀ d ∈ emission.output.body, d.Refers g := by
  have draws := g.drawsAllowed_refers
  cases mem_mainEmissions_iff.mp member with
  | enum _ made =>
    simp [(Emit.enumeration_eq_ok (enumEmission_eq_ok made).2).body, Declaration.Refers,
      Declaration.exprs, Declaration.subject?, Declaration.lowered]
  | constants known =>
    obtain ⟨cs, -, -, drafted⟩ := constantEmissions_eq_ok known
    obtain ⟨entries, each, drafted⟩ := Emit.constants_eq_ok drafted
    rw [drafted.body]
    intro d inBody
    cases List.mem_singleton.mp inBody
    intro e written
    obtain ⟨entry, inEntries, rfl⟩ := List.mem_map.mp written
    obtain ⟨c, -, -, -, literal⟩ := mem_of_forall₂ each inEntries
    exact Group.writtenWith_literalExpr draws.toClassesAllowed (g.valuesAllowed_refers c.value)
      literal
  | record _ made => exact refers_record made
  | service _ made =>
    have parts := Emit.service_parts (serviceEmission_eq_ok made).2
    intro d inBody
    rw [Declaration.Refers, Declaration.exprs_of_isServicePart (parts d inBody)]
    simp
  | @handler service known made =>
    obtain ⟨name, parent, methods, -, extended, -, drafted⟩ :=
      Emit.handler_eq_ok (serviceEmission_eq_ok made).2
    rw [drafted.body]
    intro d inBody
    cases List.mem_singleton.mp inBody
    intro e written
    obtain ⟨r, isParent, rfl⟩ := List.mem_map.mp written
    cases extends? : service.extends? with
    | none =>
      rw [extends?] at extended
      cases extended
      cases isParent
    | some parentName =>
      rw [extends?] at extended
      obtain ⟨ref, named, same⟩ := map_eq_ok.mp extended
      cases same
      cases List.mem_singleton.mp isParent
      obtain ⟨other, declared, rfl⟩ := parents service known parentName extends?
      exact writtenWith_ref.mpr (.inr ⟨.handler other, declared, named⟩)

theorem refers_companion (inGroup : entry ∈ g.schemas)
    (member : .ok emission ∈ companionEmissions g entry.2) :
    ∀ d ∈ emission.output.body, d.Refers g := by
  have each {name : Except Fault String} {entity : Entity}
      (made : companionEmission g entry.2.path name entity = .ok emission)
      (declared : Companion.IsDeclared g entity) : ∀ d ∈ emission.output.body, d.Refers g := by
    obtain ⟨output, -, drafted, -⟩ := companionEmission_eq_ok made
    exact Companion.refers_output declared drafted
  cases mem_companionEmissions_iff.mp member with
  | typedef _ made => exact each made trivial
  | record known made | enum known made =>
    exact each made (List.mem_flatMap.mpr ⟨entry, inGroup, known⟩)

theorem constants_of_owned {raw : Streams} (generated : ofGroup g = .ok raw)
    (inGroup : entry ∈ g.schemas) {own : Constant} (inSchema : own ∈ entry.2.constants.values)
    (owned : (g.seenFrom entry.2.module).owns own.name = .ok true) :
    ∃ emission cs, .ok emission ∈ mainEmissions (g.seenFrom entry.2.module) entry.2 ∧
      g.constantsOutput entry.2.module = .ok emission.name ∧ own ∈ cs ∧
      Emit.constants (g.seenFrom entry.2.module) entry.2.path emission.name cs =
        .ok emission.output := by
  have some : ∃ outcome, outcome ∈ constantEmissions (g.seenFrom entry.2.module) entry.2 := by
    rw [constantEmissions]
    cases known : ownConstants (g.seenFrom entry.2.module) entry.2 with
    | error fault => exact ⟨_, List.mem_singleton_self _⟩
    | ok cs =>
      have here := (mem_ownConstants_iff known).mpr ⟨inSchema, owned⟩
      cases cs with
      | nil => cases here
      | cons c rest => exact ⟨_, List.mem_singleton_self _⟩
  obtain ⟨outcome, known⟩ := some
  obtain ⟨emission, rfl, inMain⟩ := exists_main generated inGroup (.constants known)
  obtain ⟨cs, own, named, drafted⟩ := constantEmissions_eq_ok known
  exact ⟨emission, cs, inMain, named, (mem_ownConstants_iff own).mpr ⟨inSchema, owned⟩, drafted⟩

variable {stream units : List Named} {named : Named}

theorem Folded.declares (folded : Folded stream units)
    (wellNamed : ∀ named ∈ stream, named.2.name = named.1) (member : named ∈ stream)
    {name : NameKind × String} (declared : name ∈ named.2.names) :
    ∃ unit ∈ units, unit.2.home = Name.modulePath named.1 ∧ name ∈ unit.2.names := by
  obtain ⟨unit, known, names⟩ := folded.names_unit member
  have unitName : unit.name = named.1 := folded.name_unit wellNamed known
  exact ⟨(named.1, unit), known, by rw [Output.home, unitName], names name declared⟩

end Stream

theorem Output.mem_names_of_class {o : Output} {attr : String} {made : Run.Object}
    (member : (attr, made) ∈ o.classes) : (.type, attr) ∈ o.names := by
  obtain ⟨d, inBody, made⟩ := List.mem_filterMap.mp member
  refine List.mem_flatMap.mpr ⟨d, inBody, ?_⟩
  cases d with
  | record | enumeration =>
    cases made
    exact List.mem_singleton_self _
  | _ => cases made

def Streams.units (streams : Streams) : List Named := streams.main ++ streams.companions

/-- The constants of a group have plain names, in modules that declare them: no part of a name is
    dotted, and what a schema takes over from an include is declared by the schema of that
    module. -/
def Group.ConstantsDeclared (g : Group) : Prop :=
  ∀ c ∈ g.constants, ∃ module rest, c.name = module ++ "." ++ rest ∧ '.' ∉ module.toList ∧
    '.' ∉ rest.toList ∧ ∃ entry ∈ g.schemas, entry.2.module = .text module ∧
      ∃ own ∈ entry.2.constants.values, own.name = c.name

/-- Services extend services of the group only. -/
def Group.ParentsDeclared (g : Group) : Prop :=
  ∀ s ∈ g.services, ∀ parent, s.extends? = some parent → ∃ other ∈ g.services, other.name = parent

namespace IsProgram

open IdlGen.Stream

variable {g : Group} {raw streams : Streams} (program : IsProgram g raw streams)
include program

theorem declares_main (inGroup : entry ∈ g.schemas) {emission : Emission}
    (known : .ok emission ∈ mainEmissions (g.seenFrom entry.2.module) entry.2)
    {name : NameKind × String} (declared : name ∈ emission.output.names) :
    ∃ unit ∈ streams.units, unit.2.home = Name.modulePath emission.name ∧ name ∈ unit.2.names := by
  have inRaw : (emission.name, emission.output) ∈ raw.main :=
    (mem_main_iff program.generated).mpr ⟨entry, inGroup, emission, known, rfl⟩
  obtain ⟨unit, member, found⟩ :=
    program.main.declares (fun _ => name_main program.generated) inRaw declared
  exact ⟨unit, List.mem_append_left _ member, found⟩

theorem declares_class {name : String}
    (declared : (∃ r ∈ g.records, r.name = name) ∨ ∃ e ∈ g.enums, e.name = name)
    (named : g.classRef name = .ok cls) :
    ∃ unit ∈ streams.units, unit.2.home = cls.module ∧ (.type, cls.attr) ∈ unit.2.names := by
  obtain ⟨unit, member, home, o, classes⟩ := program.main_of_class declared named
  have inClasses : (cls.attr, o) ∈ unit.2.classes := by simp [classes]
  exact ⟨unit, List.mem_append_left _ member, home, Output.mem_names_of_class inClasses⟩

variable {ref : Ref}

theorem declares_handler {s : Service} (declared : s ∈ g.services)
    (named : Emit.handlerRef g s.name = .ok ref) :
    ∃ unit ∈ streams.units, unit.2.home = ref.module ∧ (.handler, ref.attr) ∈ unit.2.names := by
  obtain ⟨output, outputName, same⟩ := bind_eq_ok.mp named
  cases same
  obtain ⟨entry, member, inSchema⟩ := List.mem_flatMap.mp declared
  obtain ⟨emission, made, known⟩ := exists_main program.generated member (.handler inSchema rfl)
  obtain ⟨emissionName, drafted⟩ := serviceEmission_eq_ok made
  obtain ⟨name, parent, methods, handlerOutput, -, -, drafted⟩ := Emit.handler_eq_ok drafted
  cases Except.ok.inj (outputName.symm.trans handlerOutput)
  have declares : (.handler, Name.className output) ∈ emission.output.names := by
    simp [Output.names, drafted.body, Declaration.names]
  have found := program.declares_main member known declares
  rwa [← emissionName, drafted.name] at found

theorem declares_companion {r : Record} (declared : r ∈ g.records)
    (named : g.companionRef r.name "get_generator" = .ok ref) :
    ∃ unit ∈ streams.units, unit.2.home = ref.module ∧ (.function, ref.attr) ∈ unit.2.names := by
  obtain ⟨attr, unit, member, home, _, _, _, _, _, _, _, _, _, body⟩ :=
    program.companion_of_record declared named
  refine ⟨unit, List.mem_append_right _ member, home, ?_⟩
  simp [Output.names, body, Declaration.names, attr]

theorem declares_constant (plain : g.ConstantsDeclared) (declared : c ∈ g.constants)
    (named : g.constantRef c = .ok ref) :
    '.' ∉ ref.attr.toList ∧
      ∃ unit ∈ streams.units, unit.2.home = ref.module ∧ (.constant, ref.attr) ∈ unit.2.names := by
  obtain ⟨module, rest, name, moduleFree, restFree, entry, member, isModule, own, inSchema, same⟩ :=
    plain c declared
  obtain ⟨parts, split, named⟩ := bind_eq_ok.mp named
  have known := split
  rw [name] at known
  cases Name.split_append_dot moduleFree known
  obtain ⟨output, constantsOutput, made⟩ := bind_eq_ok.mp named
  cases made
  refine ⟨Name.dot_not_mem_sanitize restFree, ?_⟩
  have owned : (g.seenFrom entry.2.module).owns own.name = .ok true := by
    rw [Group.owns, same, split, isModule]
    simp [Group.seenFrom, Value.equal, bind, Except.bind, pure, Except.pure]
  obtain ⟨emission, cs, inMain, emissionName, inConstants, drafted⟩ :=
    constants_of_owned program.generated member inSchema owned
  rw [isModule] at emissionName
  cases Except.ok.inj (constantsOutput.symm.trans emissionName)
  obtain ⟨entries, each, drafted⟩ := Emit.constants_eq_ok drafted
  obtain ⟨written, inEntries, sameName, -⟩ := mem_of_forall₂ each.flip inConstants
  rw [same, name, Name.last_append_dot restFree] at sameName
  refine program.declares_main member inMain ?_
  simp only [Output.names, drafted.body, Declaration.names, List.flatMap_singleton, List.mem_map]
  exact ⟨written, inEntries, by rw [sameName]⟩

/-- What a reference is to is declared at top level by a unit, at the path and under the name that
    the reference has. -/
theorem declared_of_refersTo (plain : g.ConstantsDeclared) {subject : Subject}
    (refers : g.RefersTo r subject) :
    ∃ unit ∈ streams.units, unit.2.home = r.module ∧ (subject.kind, r.head) ∈ unit.2.names := by
  have classFree {name : String} {cls : Ref} (named : g.classRef name = .ok cls) :
      '.' ∉ cls.attr.toList := by
    obtain ⟨output, -, rfl⟩ := classRef_eq_ok named
    exact Name.dot_not_mem_className output
  cases subject with
  | record record =>
    obtain ⟨declared, named⟩ := refers
    rw [Ref.head_of_not_mem (classFree named)]
    exact program.declares_class (.inl ⟨_, declared, rfl⟩) named
  | enum e =>
    obtain ⟨declared, cls, named, rfl | ⟨member, rfl⟩⟩ := refers
    · rw [Ref.head_of_not_mem (classFree named)]
      exact program.declares_class (.inr ⟨e, declared, rfl⟩) named
    · rw [Ref.head, Text.partition_append_dot (classFree named)]
      exact program.declares_class (.inr ⟨e, declared, rfl⟩) named
  | constant c =>
    obtain ⟨declared, named⟩ := refers
    obtain ⟨free, found⟩ := program.declares_constant plain declared named
    rw [Ref.head_of_not_mem free]
    exact found
  | companion record =>
    obtain ⟨declared, named⟩ := refers
    have attr := (program.companion_of_record declared named).1
    rw [Ref.head_of_not_mem (by rw [attr]; decide)]
    exact program.declares_companion declared named
  | handler s =>
    obtain ⟨declared, named⟩ := refers
    obtain ⟨output, -, same⟩ := bind_eq_ok.mp named
    have attr : r.attr = Name.className output := by
      cases same
      rfl
    rw [Ref.head_of_not_mem (attr ▸ Name.dot_not_mem_className output)]
    exact program.declares_handler declared named

theorem refers_unit (parents : g.ParentsDeclared) {unit : Named} (member : unit ∈ streams.units) :
    ∀ r ∈ unit.2.refs, g.Refers r := by
  obtain ⟨name, unit⟩ := unit
  intro r inRefs
  obtain ⟨d, inBody, inRefs⟩ := List.mem_flatMap.mp inRefs
  obtain ⟨e, inExprs, inRefs⟩ := List.mem_flatMap.mp inRefs
  suffices refers : d.Refers g from (refers e inExprs).of_mem_refs inRefs
  rcases List.mem_append.mp member with inMain | inCompanions
  · rw [program.main.body_unit inMain] at inBody
    obtain ⟨o, inRaw, inBody⟩ := List.mem_flatMap.mp inBody
    obtain ⟨entry, inGroup, emission, known, same⟩ :=
      (mem_main_iff program.generated).mp (mem_under_iff.mp inRaw)
    cases same
    refine refers_main (fun service declared => ?_) known d inBody
    exact parents service (List.mem_flatMap.mpr ⟨entry, inGroup, declared⟩)
  · obtain ⟨entry, inGroup, emission, known, same⟩ :=
      (Stream.mem_companions_iff program.generated).mp (program.mem_companions_iff.mp inCompanions)
    cases same
    have inSeen : entry ∈ (g.seenFrom entry.2.module).schemas := inGroup
    exact refers_companion inSeen known d inBody

theorem nodup_units {directory working : String}
    (accepted : Session.Accepted g [directory, directory] working streams) :
    (streams.units.map (·.2.home)).Nodup := by
  have wellNamed : ∀ named ∈ streams.units, named.2.name = named.1 := by
    intro named member
    rcases List.mem_append.mp member with inMain | inCompanions
    · exact program.main.name_unit (fun _ => name_main program.generated) inMain
    · exact program.companions.name_unit (fun _ => name_companion program.generated) inCompanions
  have plan : Session.planOf streams [directory, directory] =
      streams.units.map (directory, ·) := by
    simp [Session.planOf, Streams.units]
  have apart := accepted.apart
  rw [Session.targetsOf_eq_map, plan, List.map_map] at apart
  exact nodup_home wellNamed apart

end IsProgram

theorem filter_key_eq {α β : Type} [DecidableEq β] {key : α → β} {items : List α}
    (apart : (items.map key).Nodup) {a : α} (member : a ∈ items) :
    items.filter (fun other => key other = key a) = [a] := by
  induction items with
  | nil => cases member
  | cons item rest ih =>
    rw [List.map_cons, List.nodup_cons] at apart
    rcases List.mem_cons.mp member with rfl | later
    · have others : rest.filter (fun other => key other = key a) = [] := by
        refine List.filter_eq_nil_iff.mpr fun other known same => apart.1 ?_
        rw [← of_decide_eq_true same]
        exact List.mem_map_of_mem known
      simp [others]
    · have away : key item ≠ key a := fun same => apart.1 (same ▸ List.mem_map_of_mem later)
      rw [List.filter_cons_of_neg (by simpa using away), ih apart.2 later]

variable {g : Group}

/-- Generated programs are closed. If all constants have plain names in modules that declare them,
    and all services that others extend are declared, then exactly one unit lies at the path of each
    reference outside the libraries, and declares its name at top level as what the reference is to.
    -/
theorem references_declared {directory : String} {format : Bool} {world : World}
    {written : List String} (constants : g.ConstantsDeclared) (parents : g.ParentsDeclared)
    (returned : ((Session.generate g [directory, directory] format).run world).1 = .ok written) :
    ∃ streams, Stream.resolved g = .ok streams ∧
      ∀ unit ∈ streams.units, ∀ r ∈ unit.2.refs, r.module ∉ Ref.libraries →
        ∃ subject target, g.RefersTo r subject ∧
          streams.units.filter (fun other => other.2.home = r.module) = [target] ∧
          (subject.kind, r.head) ∈ target.2.names := by
  obtain ⟨streams, raw, accepted, program⟩ := isProgram_of_generate returned
  refine ⟨streams, accepted.resolved, fun unit member r inRefs away => ?_⟩
  obtain ⟨subject, refersTo⟩ := (program.refers_unit parents member r inRefs).resolve_left away
  obtain ⟨target, known, home, declared⟩ := program.declared_of_refersTo constants refersTo
  refine ⟨subject, target, refersTo, ?_, declared⟩
  rw [← home]
  exact filter_key_eq (program.nodup_units accepted) known

/-- Two modules: the second takes a constant over from the first, refers to an enum member, draws
    records and extends a service. -/
def shopGroup : Group where
  schemas := [
    (.text "base", {
      module := .text "base"
      enums := [("Hue", { name := "base.Hue", values := [("RED", 1)] })]
      constants := [("TOP", { name := "base.TOP", type := .primitive .i32, value := .int 3 })]
      services := [("Desk", { name := "base.Desk", methods := [], extends? := none })] }),
    (.text "shop", {
      module := .text "shop", includes := [.text "base"]
      unions := [("Item", {
        kind := .union, name := "shop.Item"
        fields := [
          { name := .text "part", type := .ref "shop.Item" },
          { name := .text "hue", type := .ref "base.Hue", default := .ref "shop.USUAL" }] })]
      constants := [
        ("TOP", { name := "base.TOP", type := .primitive .i32, value := .int 3 }),
        ("USUAL", {
          name := "shop.USUAL", type := .ref "base.Hue", value := .ref "base.Hue.RED" })]
      services := [("Till", {
        name := "shop.Till", methods := [], extends? := some "base.Desk" })] })]

/-- The shop is accepted, and its units refer to each other. -/
theorem shopGroup_checked :
    ((Session.generate shopGroup ["", ""] false).run { working := "/" }).1.toOption.isSome ∧
      ∃ streams ∈ (Stream.resolved shopGroup).toOption, ∃ unit ∈ streams.units,
        ∃ r ∈ unit.2.refs, r.module ∉ Ref.libraries ∧ r.module ≠ unit.2.home := by
  decide +kernel

def shopStreams : Streams :=
  shopGroup.streams (Option.isSome_iff_exists.mpr (shopGroup_checked.2.imp fun _ => And.left))

theorem shopStreams_resolved : Stream.resolved shopGroup = .ok shopStreams := Group.resolved_streams _

theorem shopGroup_constantsDeclared : shopGroup.ConstantsDeclared := by
  intro c member
  simp only [Group.constants, shopGroup, List.flatMap_cons, List.flatMap_nil, Table.values,
    List.map_cons, List.map_nil, List.append_nil, List.cons_append, List.nil_append,
    List.mem_cons, List.not_mem_nil, or_false] at member
  rcases member with rfl | rfl | rfl
  · exact ⟨"base", "TOP", by decide, by decide, by decide, _, .head _, rfl, _, .head _, rfl⟩
  · exact ⟨"base", "TOP", by decide, by decide, by decide, _, .head _, rfl, _, .head _, rfl⟩
  · exact ⟨"shop", "USUAL", by decide, by decide, by decide, _, .tail _ (.head _), rfl, _,
      .tail _ (.head _), rfl⟩

theorem shopGroup_parentsDeclared : shopGroup.ParentsDeclared := by
  simp [Group.ParentsDeclared, Group.services, shopGroup, Table.values]

/-- The units of the shop refer to each other, and all of that is declared. -/
theorem shop_references_declared :
    shopGroup.ConstantsDeclared ∧ shopGroup.ParentsDeclared ∧
    ∃ streams, Stream.resolved shopGroup = .ok streams ∧
      (∃ unit ∈ streams.units, ∃ r ∈ unit.2.refs,
        r.module ∉ Ref.libraries ∧ r.module ≠ unit.2.home) ∧
      ∀ unit ∈ streams.units, ∀ r ∈ unit.2.refs, r.module ∉ Ref.libraries →
        ∃ subject target, shopGroup.RefersTo r subject ∧
          streams.units.filter (fun other => other.2.home = r.module) = [target] ∧
          (subject.kind, r.head) ∈ target.2.names := by
  obtain ⟨returns, streams, generated, outside⟩ := shopGroup_checked
  obtain ⟨written, returned⟩ := isSome_toOption.mp returns
  obtain ⟨_, resolved, declared⟩ :=
    references_declared shopGroup_constantsDeclared shopGroup_parentsDeclared returned
  cases (toOption_eq_some.mp generated).symm.trans resolved
  exact ⟨shopGroup_constantsDeclared, shopGroup_parentsDeclared, streams, resolved, outside,
    declared⟩

end IdlGen
