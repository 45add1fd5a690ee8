import IdlGen.Proofs.Captures
import IdlGen.Proofs.Citations
import IdlGen.Proofs.Companions
import IdlGen.Session.Load

/-!
Reserved words in generated modules. Names of fields, functions and constants are sanitized;
classes, segments of module paths and the members of enums that are referred to are not. So no
identifier of a module is reserved exactly if none of these is (`units_unreserved_iff`).
-/
namespace IdlGen

open Outcome

/-- The identifiers of an import line: the segments of the path, and the names that are imported. -/
def Import.identifiers (line : String) : List String :=
  if Text.hasStart "import " line then
    Text.split '.' (String.ofList (line.toList.drop "import ".toList.length))
  else match Text.split ' ' line with
    | ["from", path, "import", name] => Text.split '.' path ++ [name]
    | ["from", path, "import", name, "as", short] => Text.split '.' path ++ [name, short]
    | _ => []

/-- The identifiers of the classes that an annotation names in the module `home`. -/
def TypeHint.identifiers (home : String) (hint : TypeHint) : List String :=
  hint.classes.flatMap fun r => Text.split '.' (r.lower (some home))

namespace Declaration

/-- The names inside a declaration: those of fields, members, functions and parameters, and the
    classes that a function table lists. -/
def innerNames : Declaration → List String
  | record _ _ _ attributes => attributes.map (·.name)
  | enumeration _ _ members => members.map fun m => Name.sanitize m.1
  | arguments _ attributes => attributes.map (·.name)
  | response _ attributes => attributes.map (·.name)
  | functionTable rows _ => rows.flatMap fun row =>
    (row.stem ++ "Args") :: if row.responds then [row.stem ++ "Response"] else []
  | handler _ _ _ methods => methods.flatMap fun m => m.name :: m.params.map (·.name)
  | generator .. => ["context"]
  | defaults _ param _ => [param, "context"]
  | _ => []

/-- The identifiers of a declaration in the module `home`, besides the words that all declarations
    of its form are written with. -/
def identifiers (home : String) (d : Declaration) : List String :=
  d.names.map (·.2) ++ d.innerNames ++ d.hints.flatMap (TypeHint.identifiers home) ++
    d.lowered.flatMap (Expr.identifiers home)

def Unreserved (home : String) (d : Declaration) : Prop :=
  ∀ id ∈ d.identifiers home, Name.isReserved id = false

def HintUnreserved (home : String) (hint : TypeHint) : Prop :=
  ∀ r ∈ hint.classes, r.Unreserved home

theorem unreserved_iff {home : String} {d : Declaration} :
    d.Unreserved home ↔
      (∀ name ∈ d.names, Name.isReserved name.2 = false) ∧
      (∀ id ∈ d.innerNames, Name.isReserved id = false) ∧
      (∀ hint ∈ d.hints, HintUnreserved home hint) ∧ ∀ e ∈ d.lowered, e.Unreserved home := by
  have hints : (∀ hint ∈ d.hints, ∀ id ∈ hint.identifiers home, Name.isReserved id = false) ↔
      ∀ hint ∈ d.hints, HintUnreserved home hint :=
    forall₂_congr fun hint _ => List.forall_mem_flatMap
  rw [Unreserved, identifiers, List.forall_mem_append, List.forall_mem_append,
    List.forall_mem_append, List.forall_mem_map, List.forall_mem_flatMap, List.forall_mem_flatMap,
    hints, and_assoc, and_assoc]
  rfl

end Declaration

namespace Output

def identifiers (o : Output) : List String :=
  o.importLines.flatMap Import.identifiers ++ o.body.flatMap (Declaration.identifiers o.home)

def Unreserved (o : Output) : Prop := ∀ id ∈ o.identifiers, Name.isReserved id = false

instance (o : Output) : Decidable o.Unreserved := inferInstanceAs (Decidable (∀ id ∈ _, _))

end Output

theorem Import.identifiers_path (path : String) :
    identifiers ("import " ++ path) = Text.split '.' path := by
  have starts : Text.hasStart "import " ("import " ++ path) = true := by
    simp [Text.hasStart]
  rw [identifiers, if_pos starts]
  simp

def Import.Unreserved (line : String) : Prop :=
  ∀ id ∈ identifiers line, Name.isReserved id = false

instance (line : String) : Decidable (Import.Unreserved line) :=
  inferInstanceAs (Decidable (∀ id ∈ _, _))

theorem Declaration.unreserved_fixedImports (d : Declaration) :
    ∀ line ∈ d.fixedImports, Import.Unreserved line := by
  cases d with
  | record | enumeration | arguments | response | functionTable | handler =>
    simp only [fixedImports]
    decide +kernel
  | _ => simp [fixedImports]

theorem Ref.Plain.unreserved_line {r : Ref} {home line : String} (plain : r.Plain)
    (free : r.Unreserved home) (needs : r.importLine? (some home) = some line) :
    Import.Unreserved line := by
  have away := module_ne_of_importLine? needs
  cases plain with
  | generated output attr =>
    cases (importLine?_of_alias rfl away).symm.trans needs
    rw [Import.Unreserved, Import.identifiers_path]
    exact (unreserved_iff.mp free).1 (Ne.symm away)
  | replace =>
    cases (importLine?_of_alias rfl away).symm.trans needs
    decide +kernel
  | strategy attr =>
    cases (importLine?_strategy attr away).symm.trans needs
    decide +kernel
  | support attr =>
    cases (importLine?_support attr away).symm.trans needs
    decide +kernel

theorem Output.unreserved_iff_body {o : Output} (needed : o.ImportsNeeded) :
    o.Unreserved ↔ ∀ d ∈ o.body, d.Unreserved o.home := by
  have split : o.Unreserved ↔ (∀ line ∈ o.importLines, Import.Unreserved line) ∧
      ∀ d ∈ o.body, d.Unreserved o.home := by
    rw [Unreserved, identifiers, List.forall_mem_append, List.forall_mem_flatMap,
      List.forall_mem_flatMap]
    rfl
  rw [split]
  refine and_iff_right_of_imp fun body line known => ?_
  rcases List.mem_cons.mp known with rfl | known
  · decide +kernel
  rcases List.mem_append.mp known with runtime | guarded
  · rcases needed.eq_flag_or_needed runtime with
      rfl | ⟨d, inBody, fixed | ⟨e, written, r, writes, needs⟩⟩
    · decide +kernel
    · exact d.unreserved_fixedImports line fixed
    · have plain := (needed.plain e (List.mem_flatMap.mpr ⟨d, inBody, written⟩)).of_mem_refs
        (Expr.mem_refs_iff_writes.mpr writes)
      have free := (Declaration.unreserved_iff.mp (body d inBody)).2.2.2 e written
      exact plain.unreserved_line (free.of_mem_refs (Expr.mem_refs_iff_writes.mpr writes)) needs
  · obtain ⟨d, inBody, hint, hinted, r, named, needs⟩ := needed.class_of_guarded guarded
    have plain := needed.plainClasses hint (List.mem_flatMap.mpr ⟨d, inBody, hinted⟩) r named
    exact plain.unreserved_line
      ((Declaration.unreserved_iff.mp (body d inBody)).2.2.1 hint hinted r named) needs

/-! ### Main outputs -/

namespace Group

/-- The classes that the annotation of a type names are unreserved in the module `home`. -/
def TypeUnreserved (g : Group) (home : String) (type : FieldType) : Prop :=
  ∀ hint, (g.hint type false).outcome = .ok hint → Declaration.HintUnreserved home hint

/-- The name of a field and its annotation in the module `home` are unreserved. -/
def FieldUnreserved (g : Group) (home : String) (f : Field) : Prop :=
  Name.isReserved (Name.attributeName f.name) = false ∧ g.TypeUnreserved home f.type

/-- The annotation and the literal of a constant are unreserved in the module `home`. -/
def ConstantUnreserved (g : Group) (home : String) (c : Constant) : Prop :=
  g.TypeUnreserved home c.type ∧ g.LiteralUnreserved home (c.value, some c.type)

/-- The fields of the classes for a function are unreserved in the module `home`. -/
def MethodUnreserved (g : Group) (home : String) (m : Method) : Prop :=
  ∀ f ∈ m.params ++ (Emit.responseFields? m).getD [], g.FieldUnreserved home f

/-- The name of a function that handlers have, its parameters and its result are unreserved in the
    module `home`. -/
def HandledUnreserved (g : Group) (home : String) (m : Method) : Prop :=
  Name.isReserved (Name.attributeName m.name) = false ∧
    (∀ f ∈ m.params, g.FieldUnreserved home f) ∧
    (m.oneway = false → ∀ type ∈ m.returns, g.TypeUnreserved home type)

theorem hintWithin_seenFrom (g : Group) (module : Value) (fuel : Nat) (type : FieldType)
    (frozen : Bool) :
    (g.seenFrom module).hintWithin fuel type frozen = g.hintWithin fuel type frozen := by
  induction fuel generalizing type frozen with
  | zero => rfl
  | succ fuel ih =>
    simp only [hintWithin, resolveType_seenFrom, isHashable_seenFrom, ih]
    rfl

theorem hint_seenFrom (g : Group) (module : Value) (type : FieldType) (frozen : Bool) :
    (g.seenFrom module).hint type frozen = g.hint type frozen :=
  hintWithin_seenFrom g module _ type frozen

variable {g : Group} {home : String}

theorem typeUnreserved_iff {type : FieldType} {hint : TypeHint}
    (made : (g.hint type false).outcome = .ok hint) :
    g.TypeUnreserved home type ↔ Declaration.HintUnreserved home hint := by
  refine ⟨fun all => all hint made, fun free other otherMade => ?_⟩
  cases Except.ok.inj (made.symm.trans otherMade)
  exact free

end Group

theorem forall_mem_iff_of_forall₂ {α β : Type} {R : α → β → Prop} {P : α → Prop} {Q : β → Prop}
    {as : List α} {bs : List β} (pairs : List.Forall₂ R as bs)
    (same : ∀ a b, R a b → (P a ↔ Q b)) : (∀ a ∈ as, P a) ↔ ∀ b ∈ bs, Q b := by
  induction pairs with
  | nil => simp
  | cons first _ ih => rw [List.forall_mem_cons, List.forall_mem_cons, same _ _ first, ih]

section
variable {g : Group} {module path : Value} {name home : String} {o : Output}

def Attribute.Unreserved (home : String) (a : Attribute) : Prop :=
  Name.isReserved a.name = false ∧ Declaration.HintUnreserved home a.hint

theorem attributes_unreserved {fields : List Field} {attributes : List Attribute}
    (each : List.Forall₂ (IsAttribute (g.seenFrom module)) fields attributes) :
    (∀ f ∈ fields, g.FieldUnreserved home f) ↔ ∀ a ∈ attributes, a.Unreserved home := by
  refine forall_mem_iff_of_forall₂ each fun f a isAttribute => ?_
  have hint := isAttribute.hint
  rw [Group.hint_seenFrom] at hint
  rw [Group.FieldUnreserved, Group.typeUnreserved_iff hint, Attribute.Unreserved, isAttribute.name]

namespace Emit

theorem unreserved_enumeration {e : Enum} (done : enumeration g path name e = .ok o) :
    (∀ d ∈ o.body, d.Unreserved home) ↔ Name.isReserved (Name.className name) = false := by
  rw [(enumeration_eq_ok done).body, List.forall_mem_singleton, Declaration.unreserved_iff]
  constructor
  · rintro ⟨names, -⟩
    exact names (_, Name.className name) (List.mem_singleton_self _)
  · intro free
    exact ⟨List.forall_mem_singleton.mpr free,
      List.forall_mem_map.mpr fun m _ => Name.isReserved_sanitize m.1, List.forall_mem_nil _,
      List.forall_mem_nil _⟩

theorem unreserved_record {kind : String} {r : Record}
    (done : record (g.seenFrom module) path kind name r = .ok o) :
    (∀ d ∈ o.body, d.Unreserved home) ↔
      Name.isReserved (Name.className name) = false ∧ ∀ f ∈ r.fields, g.FieldUnreserved home f := by
  obtain ⟨attributes, each, drafted⟩ := record_eq_ok done
  rw [drafted.body, List.forall_mem_singleton, Declaration.unreserved_iff,
    attributes_unreserved each]
  simp [Declaration.names, Declaration.innerNames, Declaration.hints, Declaration.lowered,
    Attribute.Unreserved, forall_and]

theorem unreserved_constants (types : g.TypesUnreserved) {cs : List Constant}
    (done : constants (g.seenFrom module) path name cs = .ok o) :
    (∀ d ∈ o.body, d.Unreserved home) ↔ ∀ c ∈ cs, g.ConstantUnreserved home c := by
  obtain ⟨entries, each, drafted⟩ := constants_eq_ok done
  have entry (c : Constant) (entry : ConstantEntry)
      (isConstant : IsConstant (g.seenFrom module) c entry) :
      g.ConstantUnreserved home c ↔ Name.isReserved entry.name = false ∧
        Declaration.HintUnreserved home entry.hint ∧ entry.value.Unreserved home := by
    have hint := isConstant.hint
    have value := isConstant.value
    rw [Group.hint_seenFrom] at hint
    rw [Group.literalExpr_seenFrom] at value
    rw [Group.ConstantUnreserved, Group.typeUnreserved_iff hint,
      ← Group.unreserved_literalExpr types value, isConstant.name,
      and_iff_right (Name.isReserved_sanitize _)]
  rw [drafted.body, List.forall_mem_singleton, Declaration.unreserved_iff,
    forall_mem_iff_of_forall₂ each entry]
  simp [Declaration.names, Declaration.innerNames, Declaration.hints, Declaration.lowered,
    forall_and]

theorem unreserved_methodParts {m : Method} {parts : List Declaration}
    (isParts : MethodParts (g.seenFrom module) m parts) :
    g.MethodUnreserved home m ↔ ∀ d ∈ parts, d.Unreserved home := by
  have class_ {as : List Attribute} {name : String} (free : Name.isReserved name = false)
      {d : Declaration} (names : d.names = [(.message, name)])
      (inner : d.innerNames = as.map (·.name)) (hints : d.hints = as.map (·.hint))
      (plain : d.lowered = []) : d.Unreserved home ↔ ∀ a ∈ as, a.Unreserved home := by
    rw [Declaration.unreserved_iff, names, inner, hints, plain]
    simp [free, Attribute.Unreserved, forall_and]
  cases isParts with
  | @oneway name params named way arguments =>
    have none : responseFields? m = none := by rw [responseFields?, way]; rfl
    rw [Group.MethodUnreserved, none, Option.getD_none, List.append_nil,
      attributes_unreserved arguments, List.forall_mem_singleton]
    exact (class_ (Name.isReserved_append (by decide) _) rfl rfl rfl rfl).symm
  | @answered name fields params results named way arguments response answers =>
    rw [Group.MethodUnreserved, response, Option.getD_some, List.forall_mem_append,
      attributes_unreserved arguments, attributes_unreserved answers, List.forall_mem_cons,
      List.forall_mem_singleton]
    exact and_congr (class_ (Name.isReserved_append (by decide) _) rfl rfl rfl rfl).symm
      (class_ (Name.isReserved_append (by decide) _) rfl rfl rfl rfl).symm

theorem unreserved_service {s : Service} (done : service (g.seenFrom module) path s = .ok o) :
    (∀ d ∈ o.body, d.Unreserved home) ↔ ∀ m ∈ s.methods, g.MethodUnreserved home m := by
  obtain ⟨name, parts, rows, parent, -, each, -, drafted⟩ := service_eq_ok done
  have table : (Declaration.functionTable rows parent).Unreserved home := by
    have names : ∀ name ∈ (Declaration.functionTable rows parent).names,
        Name.isReserved name.2 = false := by
      cases parent with
      | none => exact List.forall_mem_singleton.mpr (by decide)
      | some output =>
        have extended : Name.isReserved "EXTENDS" = false := by decide
        exact List.forall_mem_cons.mpr ⟨by decide, List.forall_mem_singleton.mpr extended⟩
    have classes : ∀ id ∈ (Declaration.functionTable rows parent).innerNames,
        Name.isReserved id = false := by
      refine List.forall_mem_flatMap.mpr fun row _ => List.forall_mem_cons.mpr ?_
      refine ⟨Name.isReserved_append (by decide) _, fun id listed => ?_⟩
      split at listed
      · cases List.mem_singleton.mp listed
        exact Name.isReserved_append (by decide) _
      · cases listed
    exact Declaration.unreserved_iff.mpr
      ⟨names, classes, List.forall_mem_nil _, List.forall_mem_nil _⟩
  rw [drafted.body, List.forall_mem_append, List.forall_mem_singleton, and_iff_left table,
    forall_mem_iff_of_forall₂ each fun _ _ => unreserved_methodParts, List.forall_mem_flatten]

theorem handled_unreserved {m : Method} {method : HandlerMethod}
    (handled : IsHandled (g.seenFrom module) m method) :
    g.HandledUnreserved home m ↔ Name.isReserved method.name = false ∧
      (∀ a ∈ method.params, a.Unreserved home) ∧
      ∀ hint ∈ method.returns, Declaration.HintUnreserved home hint := by
  rw [Group.HandledUnreserved, attributes_unreserved handled.params, handled.name]
  refine and_congr_right fun _ => and_congr_right fun _ => ?_
  constructor
  · intro all hint returned
    obtain ⟨way, type, back, made⟩ := (handled.returns hint).mp returned
    rw [Group.hint_seenFrom] at made
    exact all way type back hint made
  · intro all way type back hint made
    rw [← Group.hint_seenFrom g module] at made
    exact all hint ((handled.returns hint).mpr ⟨way, type, back, made⟩)

theorem unreserved_handler {s : Service} (done : handler (g.seenFrom module) path s = .ok o) :
    (∀ d ∈ o.body, d.Unreserved home) ↔
      (∀ parent ∈ s.extends?, ∀ r, handlerRef g parent = .ok r → r.Unreserved home) ∧
        ∀ m ∈ s.methods, g.HandledUnreserved home m := by
  obtain ⟨name, parent, methods, named, parents, each, drafted⟩ := handler_eq_ok done
  have class_ : Name.isReserved (Name.className name) = false := by
    obtain ⟨output, -, same⟩ := bind_eq_ok.mp named
    cases same
    exact Name.isReserved_className_handler output
  have extended : (∀ parent ∈ s.extends?, ∀ r, handlerRef g parent = .ok r → r.Unreserved home) ↔
      ∀ r ∈ parent, r.Unreserved home := by
    cases extends_ : s.extends? with
    | none =>
      rw [extends_] at parents
      cases parents
      simp
    | some service =>
      rw [extends_] at parents
      obtain ⟨r, known, rfl⟩ := map_eq_ok.mp parents
      have found : handlerRef g service = .ok r := known
      simp [found]
  rw [drafted.body, List.forall_mem_singleton, Declaration.unreserved_iff, extended,
    forall_mem_iff_of_forall₂ each fun _ _ => handled_unreserved]
  simp only [Declaration.names, Declaration.innerNames, Declaration.hints, Declaration.lowered,
    List.forall_mem_singleton, class_, true_and, List.forall_mem_flatMap, List.forall_mem_cons,
    List.forall_mem_map, List.forall_mem_append, Attribute.Unreserved, Expr.unreserved_ref,
    Option.mem_toList]
  constructor
  · rintro ⟨names, hints, parents⟩
    refine ⟨parents, fun m known => ⟨(names m known).1, fun a member => ?_, (hints m known).2⟩⟩
    exact ⟨(names m known).2 a member, (hints m known).1 a member⟩
  · rintro ⟨parents, each⟩
    refine ⟨fun m known => ⟨(each m known).1, fun a member => ?_⟩, fun m known => ?_, parents⟩
    · exact ((each m known).2.1 a member).1
    · exact ⟨fun a member => ((each m known).2.1 a member).2, (each m known).2.2⟩

end Emit

namespace Companion

theorem unreserved_functions {type : TypeHint} {subject param : String} {strategy result : Expr}
    (known : Name.isReserved param = false) :
    (∀ d ∈ [Declaration.generator type subject strategy, .defaults type param result],
        d.Unreserved home) ↔
      Declaration.HintUnreserved home type ∧ strategy.Unreserved home ∧
        result.Unreserved home := by
  have context : (Ref.support "GenerationContext").Unreserved home :=
    Ref.unreserved_support (by decide)
  have search : (Ref.strategy "SearchStrategy").Unreserved home :=
    Ref.unreserved_strategy (by decide)
  have names : Name.isReserved "get_generator" = false ∧ Name.isReserved "apply_defaults" = false ∧
      Name.isReserved "context" = false := by decide
  have class_ (free : Declaration.HintUnreserved home type) :
      ∀ r ∈ type.class?, r.Unreserved home := by
    intro r named
    cases type with
    | cls other =>
      cases named
      exact free r (List.mem_singleton_self _)
    | _ => cases named
  rw [List.forall_mem_cons, List.forall_mem_singleton, Declaration.unreserved_iff,
    Declaration.unreserved_iff]
  simp only [Declaration.names, Declaration.innerNames, Declaration.hints, Declaration.lowered,
    List.forall_mem_cons, List.forall_mem_append, known, names, context, search,
    Expr.unreserved_ref, true_and, and_true, List.not_mem_nil, false_implies, implies_true]
  constructor
  · rintro ⟨⟨hint, drawn⟩, -, defaulted, -⟩
    exact ⟨hint, drawn, defaulted⟩
  · rintro ⟨hint, drawn, defaulted⟩
    refine ⟨⟨hint, drawn⟩, hint, defaulted, ?_⟩
    split
    · simpa using class_ hint
    · exact List.forall_mem_nil _

theorem outputUnreserved_of_class {entityName subject : String} {cls : Ref} {strategy result : Expr}
    (known : g.outputName entityName = .ok name) (named : g.classRef entityName = .ok cls)
    (free : ∀ d ∈ [Declaration.generator (.cls cls) subject strategy,
      .defaults (.cls cls) recordParam result], d.Unreserved (Name.modulePath (Name.companion name))) :
    Group.OutputUnreserved name := by
  obtain ⟨output, found, made⟩ := bind_eq_ok.mp named
  cases made
  cases Except.ok.inj (known.symm.trans found)
  have class_ := ((unreserved_functions (by decide)).mp free).1 _ (List.mem_singleton_self _)
  obtain ⟨module, attr⟩ := Ref.unreserved_iff.mp class_
  exact ⟨module (Name.modulePath_ne_companion name), Group.unreserved_className.mp attr⟩

theorem hintUnreserved_class {entityName : String} {cls : Ref}
    (free : ∀ output, g.outputName entityName = .ok output → Group.OutputUnreserved output)
    (named : g.classRef entityName = .ok cls) : Declaration.HintUnreserved home (.cls cls) :=
  List.forall_mem_singleton.mpr (Group.unreserved_classRef named free)

theorem unreserved_record {r : Record} (types : g.TypesUnreserved) (declared : r ∈ g.records)
    (fields : FieldsUnreserved r.fields)
    (done : output (g.seenFrom module) path name (.record r) = .ok o) :
    (∀ d ∈ o.body, d.Unreserved home) ↔ DefaultsUnreserved g home r.fields := by
  obtain ⟨cls, strategy, subject, result, named, drawn, defaulted, drafted⟩ :=
    output_record_eq_ok done
  rw [applyDefaults_seenFrom] at defaulted
  have hint : Declaration.HintUnreserved home (.cls cls) :=
    hintUnreserved_class (types.record r declared) named
  have seen : (g.seenFrom module).TypesUnreserved := ⟨types.record, types.enum⟩
  have drawnFree := Expr.unreserved_iff.mpr (writtenWith_generator (seen.drawsAllowed home)
    (Expr.writtenWith_ref.mpr (hint _ (.head _))) fields drawn)
  rw [drafted.body, unreserved_functions (by decide), and_iff_right hint, and_iff_right drawnFree,
    unreserved_applyDefaults types fields defaulted]

theorem unreserved_enum {e : Enum} (types : g.TypesUnreserved) (declared : e ∈ g.enums)
    (done : output (g.seenFrom module) path name (.enum e) = .ok o) :
    (∀ d ∈ o.body, d.Unreserved home) ↔
      ∀ first ∈ e.values.head?, Name.Unreserved first.1 := by
  obtain ⟨cls, strategy, subject, named, member, none, drafted⟩ := output_enum_eq_ok done
  have hint : Declaration.HintUnreserved home (.cls cls) :=
    hintUnreserved_class (types.enum e declared) named
  have draws := types.drawsAllowed home
  have param := Expr.unreserved_iff.mpr (writtenWith_param draws)
  rw [drafted.body, unreserved_functions (by decide), and_iff_right hint, and_iff_left param,
    Expr.unreserved_iff]
  cases values : e.values with
  | nil =>
    simp [none values, Expr.strategy, draws.strategy "nothing" (by decide)]
  | cons first rest =>
    obtain ⟨output, known, made⟩ := bind_eq_ok.mp named
    cases made
    obtain ⟨path, class_⟩ := types.enum e declared output known
    have attr := Group.unreserved_className.mpr class_
    rw [member first rest values]
    simp [Expr.apply, draws.strategy "just" (by decide), Ref.unreserved_iff, Name.unreserved_dot,
      path, attr]

theorem unreserved_typedef {t : Typedef} (types : g.TypesUnreserved)
    (done : output (g.seenFrom module) path name (.typedef t) = .ok o) :
    (∀ d ∈ o.body, d.Unreserved home) ↔ g.TypeUnreserved home t.type := by
  obtain ⟨hint, strategy, subject, hinted, drawn, drafted⟩ := output_typedef_eq_ok done
  rw [Group.hint_seenFrom] at hinted
  rw [Group.draw_seenFrom] at drawn
  have draws := types.drawsAllowed home
  have drawnFree := Expr.unreserved_iff.mpr (Group.writtenWith_draw draws drawn)
  have defaulted := Expr.unreserved_iff.mpr (writtenWith_defaulted draws
    (Expr.writtenWith_name.mpr (by decide : Name.isReserved valueParam = false)))
  rw [drafted.body, unreserved_functions (by decide), and_iff_left ⟨drawnFree, defaulted⟩,
    Group.typeUnreserved_iff hinted]

end Companion
end

/-! ### Groups -/

/-- The names of a group are unreserved where generated modules are written with them. -/
structure Group.Unreserved (g : Group) : Prop where
  /-- Classes of records and enums, and the paths of their modules. -/
  types : g.TypesUnreserved
  /-- The member that the companion of an enum draws. -/
  members : ∀ e ∈ g.enums, ∀ first ∈ e.values.head?, Name.Unreserved first.1
  fields : ∀ r ∈ g.records, ∀ output, g.outputName r.name = .ok output →
    ∀ f ∈ r.fields, g.FieldUnreserved (Name.modulePath output) f
  /-- What declared defaults refer to. -/
  defaults : ∀ r ∈ g.records, ∀ output, g.outputName r.name = .ok output →
    Companion.DefaultsUnreserved g (Name.modulePath (Name.companion output)) r.fields
  /-- The types of constants, and what their values refer to. -/
  constants : ∀ entry ∈ g.schemas, ∀ output, g.constantsOutput entry.2.module = .ok output →
    ∀ c ∈ entry.2.constants.values, (g.seenFrom entry.2.module).owns c.name = .ok true →
      g.ConstantUnreserved (Name.modulePath output) c
  functions : ∀ s ∈ g.services, ∀ output, g.outputName s.name = .ok output →
    ∀ m ∈ s.methods, g.MethodUnreserved (Name.modulePath output) m
  /-- The handlers that handlers extend. -/
  parents : ∀ s ∈ g.services, ∀ output, Emit.handlerOutput g s.name = .ok output →
    ∀ parent ∈ s.extends?, ∀ r, Emit.handlerRef g parent = .ok r →
      r.Unreserved (Name.modulePath output)
  handled : ∀ s ∈ g.services, ∀ output, Emit.handlerOutput g s.name = .ok output →
    ∀ m ∈ s.methods, g.HandledUnreserved (Name.modulePath output) m
  aliases : ∀ entry ∈ g.schemas, ∀ named ∈ entry.2.typedefs, ∀ output,
    Stream.aliasOutput g entry.2 named.1 = .ok output →
      g.TypeUnreserved (Name.modulePath (Name.companion output)) named.2.type

namespace Stream

variable {g : Group} {raw streams : Streams}

def EmissionUnreserved (emission : Emission) : Prop :=
  ∀ d ∈ emission.output.body, d.Unreserved (Name.modulePath emission.name)

/-- The declarations of all outputs of a group are unreserved in their modules. -/
def EmissionsUnreserved (g : Group) : Prop :=
  ∀ entry ∈ g.schemas, ∀ emission,
    .ok emission ∈ mainEmissions (g.seenFrom entry.2.module) entry.2 ++
      companionEmissions (g.seenFrom entry.2.module) entry.2 → EmissionUnreserved emission

theorem Folded.unreserved_iff {stream units : List Named} (folded : Folded stream units)
    (wellNamed : ∀ named ∈ stream, named.2.name = named.1)
    (needed : ∀ unit ∈ units, unit.2.ImportsNeeded) :
    (∀ unit ∈ units, unit.2.Unreserved) ↔
      ∀ named ∈ stream, ∀ d ∈ named.2.body, d.Unreserved (Name.modulePath named.1) := by
  have home (unit : Named) (member : unit ∈ units) : unit.2.home = Name.modulePath unit.1 := by
    rw [Output.home, folded.name_unit wellNamed member]
  constructor
  · intro all named member d inBody
    obtain ⟨unit, known, -⟩ := folded.unit member
    have free := (Output.unreserved_iff_body (needed _ known)).mp (all _ known)
    rw [home _ known, folded.body_unit known] at free
    exact free d (List.mem_flatMap.mpr ⟨_, mem_under_iff.mpr member, inBody⟩)
  · intro all unit known
    rw [Output.unreserved_iff_body (needed _ known), home _ known, folded.body_unit known]
    intro d inBody
    obtain ⟨o, member, inBody⟩ := List.mem_flatMap.mp inBody
    exact all _ (mem_under_iff.mp member) d inBody

theorem units_iff_emissions (done : resolved g = .ok streams) (generated : ofGroup g = .ok raw)
    (main : Folded raw.main streams.main) (companions : Folded raw.companions streams.companions) :
    (∀ unit ∈ streams.units, unit.2.Unreserved) ↔ EmissionsUnreserved g := by
  have inMain := main.unreserved_iff (fun _ => name_main generated) fun unit member =>
    importsNeeded_unit done (List.mem_append_left _ member)
  have inCompanions := companions.unreserved_iff (fun _ => name_companion generated)
    fun unit member => importsNeeded_unit done (List.mem_append_right _ member)
  rw [Streams.units, List.forall_mem_append, inMain, inCompanions, EmissionsUnreserved]
  simp only [mem_main_iff generated, mem_companions_iff generated, List.mem_append]
  constructor
  · rintro ⟨main, companions⟩ entry known emission (member | member)
    · exact main _ ⟨entry, known, emission, member, rfl⟩
    · exact companions _ ⟨entry, known, emission, member, rfl⟩
  · intro all
    refine ⟨?_, ?_⟩
    · rintro named ⟨entry, known, emission, member, rfl⟩
      exact all entry known emission (.inl member)
    · rintro named ⟨entry, known, emission, member, rfl⟩
      exact all entry known emission (.inr member)

section
variable {s : Schema} {module path : Value} {emission : Emission}

theorem unreserved_recordEmission {r : Record}
    (made : recordEmission (g.seenFrom module) path r = .ok emission) :
    g.outputName r.name = .ok emission.name ∧
      (EmissionUnreserved emission ↔ Name.isReserved (Name.className emission.name) = false ∧
        ∀ f ∈ r.fields, g.FieldUnreserved (Name.modulePath emission.name) f) := by
  obtain ⟨named, drafted⟩ := recordEmission_eq_ok made
  exact ⟨named, Emit.unreserved_record drafted⟩

theorem unreserved_serviceEmission {service : Service}
    (made : serviceEmission (g.seenFrom module) path service = .ok emission) :
    g.outputName service.name = .ok emission.name ∧
      (EmissionUnreserved emission ↔
        ∀ m ∈ service.methods, g.MethodUnreserved (Name.modulePath emission.name) m) := by
  obtain ⟨name, done⟩ := serviceEmission_eq_ok made
  obtain ⟨_, _, _, _, named, -, -, drafted⟩ := Emit.service_eq_ok done
  rw [← name, drafted.name]
  exact ⟨named, drafted.name ▸ name ▸ Emit.unreserved_service done⟩

theorem unreserved_handlerEmission {service : Service}
    (made : handlerEmission (g.seenFrom module) path service = .ok emission) :
    Emit.handlerOutput g service.name = .ok emission.name ∧
      (EmissionUnreserved emission ↔
        (∀ parent ∈ service.extends?, ∀ r, Emit.handlerRef g parent = .ok r →
          r.Unreserved (Name.modulePath emission.name)) ∧
        ∀ m ∈ service.methods, g.HandledUnreserved (Name.modulePath emission.name) m) := by
  obtain ⟨o, drafted, made⟩ := bind_eq_ok.mp made
  cases made
  obtain ⟨name, parent, methods, named, -, -, isDrafted⟩ := Emit.handler_eq_ok drafted
  rw [isDrafted.name]
  exact ⟨named, Emit.unreserved_handler drafted⟩

theorem unreserved_constantEmissions (types : g.TypesUnreserved)
    (member : .ok emission ∈ constantEmissions (g.seenFrom s.module) s) :
    g.constantsOutput s.module = .ok emission.name ∧
      (EmissionUnreserved emission ↔ ∀ c ∈ s.constants.values,
        (g.seenFrom s.module).owns c.name = .ok true →
          g.ConstantUnreserved (Name.modulePath emission.name) c) := by
  obtain ⟨cs, own, named, drafted⟩ := constantEmissions_eq_ok member
  refine ⟨named, (Emit.unreserved_constants types drafted).trans ?_⟩
  simp only [mem_ownConstants_iff own, and_imp]

theorem companionEmission_name {name : Except Fault String} {entity : Entity}
    (made : companionEmission g path name entity = .ok emission) :
    ∃ output, name = .ok output ∧ emission.name = Name.companion output ∧
      Companion.output g path output entity = .ok emission.output := by
  obtain ⟨output, known, drafted, same⟩ := companionEmission_eq_ok made
  obtain ⟨_, _, _, _, _, _, _, -, isDrafted⟩ := Companion.output_eq_ok drafted
  exact ⟨output, known, same.trans isDrafted.name, drafted⟩

namespace EmissionsUnreserved

variable {entry : Value × Schema} (free : EmissionsUnreserved g) (generated : ofGroup g = .ok raw)
include free generated

theorem main (known : entry ∈ g.schemas) {outcome : Except Fault Emission}
    (of : MainOf (g.seenFrom entry.2.module) entry.2 outcome) :
    ∃ emission, outcome = .ok emission ∧ EmissionUnreserved emission := by
  obtain ⟨emission, rfl, member⟩ := exists_main generated known of
  exact ⟨emission, rfl, free entry known emission (List.mem_append_left _ member)⟩

theorem companion (known : entry ∈ g.schemas)
    {name : Except Fault String} {entity : Entity}
    (of : CompanionOf (g.seenFrom entry.2.module) entry.2
      (companionEmission (g.seenFrom entry.2.module) entry.2.path name entity)) :
    ∃ output o, name = .ok output ∧
      Companion.output (g.seenFrom entry.2.module) entry.2.path output entity = .ok o ∧
      ∀ d ∈ o.body, d.Unreserved (Name.modulePath (Name.companion output)) := by
  obtain ⟨emission, made, member⟩ := exists_companion generated known of
  have unreserved := free entry known emission (List.mem_append_right _ member)
  obtain ⟨output, named, name, drafted⟩ := companionEmission_name made
  rw [EmissionUnreserved, name] at unreserved
  exact ⟨output, emission.output, named, drafted, unreserved⟩

theorem types : g.TypesUnreserved := by
  constructor
  · intro r declared output named
    obtain ⟨entry, known, inSchema⟩ := List.mem_flatMap.mp declared
    obtain ⟨found, o, outputName, drafted, unreserved⟩ :=
      free.companion generated known (.record inSchema rfl)
    cases Except.ok.inj (named.symm.trans outputName)
    obtain ⟨cls, strategy, subject, result, class_, -, -, drafted⟩ :=
      Companion.output_record_eq_ok drafted
    rw [drafted.body] at unreserved
    exact Companion.outputUnreserved_of_class named class_ unreserved
  · intro e declared output named
    obtain ⟨entry, known, inSchema⟩ := List.mem_flatMap.mp declared
    obtain ⟨found, o, outputName, drafted, unreserved⟩ :=
      free.companion generated known (.enum inSchema rfl)
    cases Except.ok.inj (named.symm.trans outputName)
    obtain ⟨cls, strategy, subject, class_, -, -, drafted⟩ := Companion.output_enum_eq_ok drafted
    rw [drafted.body] at unreserved
    exact Companion.outputUnreserved_of_class named class_ unreserved

theorem group : g.Unreserved := by
  have types := free.types generated
  have fields (r : Record) (declared : r ∈ g.records) (output : String)
      (named : g.outputName r.name = .ok output) :
      ∀ f ∈ r.fields, g.FieldUnreserved (Name.modulePath output) f := by
    obtain ⟨entry, known, inSchema⟩ := List.mem_flatMap.mp declared
    obtain ⟨emission, made, unreserved⟩ := free.main generated known (.record inSchema rfl)
    obtain ⟨outputName, freeIff⟩ := unreserved_recordEmission made
    cases Except.ok.inj (named.symm.trans outputName)
    exact (freeIff.mp unreserved).2
  have handlers (s : Service) (declared : s ∈ g.services) (output : String)
      (named : Emit.handlerOutput g s.name = .ok output) :
      (∀ parent ∈ s.extends?, ∀ r, Emit.handlerRef g parent = .ok r →
        r.Unreserved (Name.modulePath output)) ∧
        ∀ m ∈ s.methods, g.HandledUnreserved (Name.modulePath output) m := by
    obtain ⟨entry, known, inSchema⟩ := List.mem_flatMap.mp declared
    obtain ⟨emission, made, unreserved⟩ := free.main generated known (.handler inSchema rfl)
    obtain ⟨outputName, freeIff⟩ := unreserved_handlerEmission made
    cases Except.ok.inj (named.symm.trans outputName)
    exact freeIff.mp unreserved
  refine ⟨types, fun e declared => ?_, fields, fun r declared output named => ?_,
    fun entry known output named c declared owned => ?_, fun s declared output named => ?_,
    fun s declared output named => (handlers s declared output named).1,
    fun s declared output named => (handlers s declared output named).2,
    fun entry known named declared output outputName => ?_⟩
  · obtain ⟨entry, known, inSchema⟩ := List.mem_flatMap.mp declared
    obtain ⟨output, o, -, drafted, unreserved⟩ :=
      free.companion generated known (.enum inSchema rfl)
    exact (Companion.unreserved_enum types declared drafted).mp unreserved
  · obtain ⟨entry, known, inSchema⟩ := List.mem_flatMap.mp declared
    obtain ⟨found, o, outputName, drafted, unreserved⟩ :=
      free.companion generated known (.record inSchema rfl)
    cases Except.ok.inj (named.symm.trans outputName)
    have names : Companion.FieldsUnreserved r.fields := fun f member =>
      (fields r declared output named f member).1
    exact (Companion.unreserved_record types declared names drafted).mp unreserved
  · obtain ⟨emission, cs, inMain, emissionName, own, drafted⟩ :=
      constants_of_owned generated known declared owned
    cases Except.ok.inj (named.symm.trans emissionName)
    have unreserved := free entry known emission (List.mem_append_left _ inMain)
    exact (Emit.unreserved_constants types drafted).mp unreserved c own
  · obtain ⟨entry, known, inSchema⟩ := List.mem_flatMap.mp declared
    obtain ⟨emission, made, unreserved⟩ := free.main generated known (.service inSchema rfl)
    obtain ⟨outputName, freeIff⟩ := unreserved_serviceEmission made
    cases Except.ok.inj (named.symm.trans outputName)
    exact freeIff.mp unreserved
  · obtain ⟨found, o, foundName, drafted, unreserved⟩ :=
      free.companion generated known (.typedef declared rfl)
    have same : output = found := Except.ok.inj (outputName.symm.trans foundName)
    rw [same]
    exact (Companion.unreserved_typedef types drafted).mp unreserved

end EmissionsUnreserved

theorem emissionsUnreserved_of_group (free : g.Unreserved) : EmissionsUnreserved g := by
  intro entry known emission member
  rcases List.mem_append.mp member with inMain | inCompanions
  · cases mem_mainEmissions_iff.mp inMain with
    | enum inSchema made =>
      obtain ⟨named, drafted⟩ := enumEmission_eq_ok made
      exact (Emit.unreserved_enumeration drafted).mpr
        (free.types.enum _ (List.mem_flatMap.mpr ⟨entry, known, inSchema⟩) _ named).2
    | constants constants =>
      obtain ⟨named, freeIff⟩ := unreserved_constantEmissions free.types constants
      exact freeIff.mpr (free.constants entry known _ named)
    | @record r inSchema made =>
      have declared : r ∈ g.records := List.mem_flatMap.mpr ⟨entry, known, inSchema⟩
      obtain ⟨named, freeIff⟩ := unreserved_recordEmission made
      exact freeIff.mpr ⟨(free.types.record _ declared _ named).2, free.fields _ declared _ named⟩
    | service inSchema made =>
      obtain ⟨named, freeIff⟩ := unreserved_serviceEmission made
      exact freeIff.mpr
        (free.functions _ (List.mem_flatMap.mpr ⟨entry, known, inSchema⟩) _ named)
    | @handler service inSchema made =>
      have declared : service ∈ g.services := List.mem_flatMap.mpr ⟨entry, known, inSchema⟩
      obtain ⟨named, freeIff⟩ := unreserved_handlerEmission made
      exact freeIff.mpr ⟨free.parents _ declared _ named, free.handled _ declared _ named⟩
  · cases mem_companionEmissions_iff.mp inCompanions with
    | typedef inSchema made =>
      obtain ⟨output, outputName, name, drafted⟩ := companionEmission_name made
      rw [EmissionUnreserved, name]
      exact (Companion.unreserved_typedef free.types drafted).mpr
        (free.aliases entry known _ inSchema output outputName)
    | @record r inSchema made =>
      have declared : r ∈ g.records := List.mem_flatMap.mpr ⟨entry, known, inSchema⟩
      obtain ⟨output, named, name, drafted⟩ := companionEmission_name made
      have names : Companion.FieldsUnreserved r.fields := fun f member =>
        (free.fields r declared output named f member).1
      rw [EmissionUnreserved, name]
      exact (Companion.unreserved_record free.types declared names drafted).mpr
        (free.defaults r declared output named)
    | @enum e inSchema made =>
      have declared : e ∈ g.enums := List.mem_flatMap.mpr ⟨entry, known, inSchema⟩
      obtain ⟨output, -, -, drafted⟩ := companionEmission_name made
      exact (Companion.unreserved_enum free.types declared drafted).mpr (free.members e declared)

end

end Stream

/-- No module of a group has a reserved word among its identifiers exactly if the classes of its
    records and enums and the paths of their modules have none, nor the first members of its enums,
    and if none is written where annotations, literals and handlers refer to something. -/
theorem units_unreserved_iff {g : Group} {streams : Streams}
    (resolved : Stream.resolved g = .ok streams) :
    (∀ unit ∈ streams.units, unit.2.Unreserved) ↔ g.Unreserved := by
  obtain ⟨raw, generated, main, companions⟩ := Stream.resolved_eq_ok resolved
  rw [Stream.units_iff_emissions resolved generated main companions]
  exact ⟨fun free => Stream.EmissionsUnreserved.group free generated,
    Stream.emissionsUnreserved_of_group⟩

/-- Two modules with reserved words for the names of fields, functions, parameters and constants. -/
def clerkGroup : Group where
  schemas := [
    (.text "mail", {
      module := .text "mail"
      enums := [("Rank", { name := "mail.Rank", values := [("LOW", 1), ("with", 2)] })]
      typedefs := [("Ranks", { name := "mail.Ranks", type := .list (.ref "mail.Rank") })]
      constants := [("pass", {
        name := "mail.pass", type := .ref "mail.Rank", value := .ref "mail.Rank.LOW" })]
      services := [("Clerk", {
        name := "mail.Clerk", extends? := none
        methods := [{
          name := .text "import", params := [{ name := .text "in", type := .ref "mail.Ranks" }]
          returns := some (.ref "mail.Rank"), throws := [], oneway := false }] })] }),
    (.text "post", {
      module := .text "post", includes := [.text "mail"]
      structs := [("Note", {
        kind := .struct, name := "post.Note"
        fields := [
          { name := .text "from", type := .primitive .string },
          { name := .text "class", type := .ref "mail.Rank", default := .ref "mail.pass" }] })]
      services := [("Head", {
        name := "post.Head", methods := [], extends? := some "mail.Clerk" })] })]

/-- The reserved words are sanitized in all modules. -/
theorem clerk_unreserved :
    (∃ streams, Stream.resolved clerkGroup = .ok streams ∧
      (∀ unit ∈ streams.units, unit.2.Unreserved) ∧
      ∀ id ∈ ["pass_", "with_", "import_", "in_", "from_", "class_"],
        ∃ unit ∈ streams.units, id ∈ unit.2.identifiers) ∧
    clerkGroup.Unreserved := by
  refine (and_iff_left_of_imp ?_).mpr ?_
  · rintro ⟨streams, resolved, free, -⟩
    exact (units_unreserved_iff resolved).mp free
  · simp only [← toOption_eq_some, ← Option.mem_def]
    decide +kernel

/-- A document of a module with two records whose names are not reserved, and an enum that has a
    reserved word for a member. -/
def schoolDocument : String :=
  "\x7b\"module\": \"school\", \"structs\": [\x7b\"name\": \"Class\", \"fields\": []\x7d, " ++
  "\x7b\"name\": \"none\", \"fields\": []\x7d], \"enums\": " ++
  "[\x7b\"name\": \"Color\", \"values\": \x7b\"from\": 1\x7d\x7d]\x7d"

def schoolWorld : World where
  tree := { nodes := [(["school.json"], .file schoolDocument)] }

/-- The document is loaded and resolved, and the qualified names of its types are not reserved. But
    the record `Class` has the module `class`, the record `none` has the class `None`, and the
    member of the enum, declared as `from_`, is referred to as `from`. -/
theorem school_reserved :
    ∃ g, ((Session.loadGroup ["school.json"]).run schoolWorld).1 = .ok g ∧
      g.records.map (·.name) ++ g.enums.map (·.name) =
        ["school.Class", "school.none", "school.Color"] ∧
      (∀ name ∈ g.records.map (·.name) ++ g.enums.map (·.name), Name.Unreserved name) ∧
      ∃ streams, Stream.resolved g = .ok streams ∧
        streams.units.map (fun unit =>
            (unit.1, firstOccurrences (unit.2.identifiers.filter Name.isReserved))) = [
          ("Color", []), ("Class", []), ("None", ["None"]),
          ("ClassTestData", ["class"]), ("NoneTestData", ["None"]), ("ColorTestData", ["from"])] ∧
        ¬ ∀ unit ∈ streams.units, unit.2.Unreserved := by
  simp only [← toOption_eq_some, ← Option.mem_def]
  decide +kernel

end IdlGen
