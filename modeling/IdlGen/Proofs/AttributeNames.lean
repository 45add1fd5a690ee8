import IdlGen.Proofs.Companions
import IdlGen.Proofs.Identifiers
import IdlGen.Proofs.KeptDeclarations
import IdlGen.Proofs.MemberReferences

/-!
Attributes of generated classes. Which fields get different attributes is said about the names
that are declared (`FieldsApart`, `Method.ClassesApart`), exactly (`attributes_distinct_iff`).
-/
namespace IdlGen

open Outcome

variable {fields : List Field} {r : Record} {g : Group} {kind name : String}

namespace Name

theorem ne_append_underscore (word : String) : word ≠ word ++ "_" := by
  intro same
  have lengths := congrArg String.length same
  simp at lengths

/-- Two names become one exactly if they are the same, or one is reserved and the other is it with
    an underscore. -/
theorem sanitize_eq_sanitize_iff {a b : String} :
    sanitize a = sanitize b ↔
      a = b ∨ (isReserved a ∧ b = a ++ "_") ∨ (isReserved b ∧ a = b ++ "_") := by
  have escaped {word : String} (isWord : isReserved word) : ¬ isReserved (word ++ "_") := by
    have free := isReserved_sanitize word
    rw [sanitize, if_pos isWord] at free
    simp [free]
  by_cases word : isReserved b
  · rw [show sanitize b = b ++ "_" from if_pos word, sanitize_eq_iff (escaped word),
      String.append_left_inj]
    constructor
    · rintro (same | ⟨-, same⟩)
      · exact .inr (.inr ⟨word, same⟩)
      · exact .inl same
    · rintro (rfl | ⟨other, rfl⟩ | ⟨-, same⟩)
      · exact .inr ⟨word, rfl⟩
      · exact absurd word (escaped other)
      · exact .inl same
  · rw [show sanitize b = b from if_neg word, sanitize_eq_iff word]
    simp [word, @eq_comm _ b]

theorem attributeName_eq_success {v : Value} :
    attributeName v = "success" ↔ v.display = "success" := by
  cases v with
  | text s =>
    have free : sanitize "success" = "success" := by decide +kernel
    have plain : isReserved "success" = false := by decide +kernel
    have noEscape : ∀ word ∈ reserved, "success" ≠ word ++ "_" := by decide +kernel
    have same : sanitize s = sanitize "success" ↔ s = "success" := by
      rw [sanitize_eq_sanitize_iff]
      constructor
      · rintro (same | ⟨isWord, escaped⟩ | ⟨isWord, -⟩)
        · exact same
        · exact absurd escaped (noEscape s (by simpa [isReserved] using isWord))
        · simp [plain] at isWord
      · exact .inl
    rwa [free] at same
  | _ => exact Iff.rfl

end Name

def Value.isText : Value → Bool
  | .text _ => true
  | _ => false

/-- Different names of fields that give different attributes: none is a reserved word beside the
    same word with an underscore, and none that is no text is shown as the attribute of another. -/
structure FieldsApart (fields : List Field) : Prop where
  words : ∀ word, Name.isReserved word → .text word ∈ fields.map (·.name) →
    .text (word ++ "_") ∉ fields.map (·.name)
  shown : fields.Pairwise fun f other => f.name.isText = false ∨ other.name.isText = false →
    Name.attributeName f.name ≠ Name.attributeName other.name

theorem pairwise_of_hasRepeat {names : List Value} (apart : Schema.hasRepeat names = false) :
    names.Pairwise fun name other => name.same other = false := by
  induction names with
  | nil => exact .nil
  | cons name rest ih =>
    rw [Schema.hasRepeat, Bool.or_eq_false_iff, List.any_eq_false] at apart
    exact .cons (fun other member => Bool.eq_false_iff.mpr (apart.1 other member)) (ih apart.2)

/-- Fields with different names have different attributes exactly if no two of these clash. -/
theorem nodup_attributesOf_iff (apart : Schema.hasRepeat (fields.map (·.name)) = false) :
    (attributesOf fields).Nodup ↔ FieldsApart fields := by
  constructor
  · intro distinct
    refine ⟨?_, ?_⟩
    · intro word reserved plain escaped
      obtain ⟨f, known, named⟩ := List.mem_map.mp plain
      obtain ⟨other, knownOther, namedOther⟩ := List.mem_map.mp escaped
      have same : Name.attributeName f.name = Name.attributeName other.name := by
        rw [named, namedOther]
        exact Name.sanitize_eq_sanitize_iff.mpr (.inr (.inl ⟨reserved, rfl⟩))
      have equal := List.inj_on_of_nodup_map distinct known knownOther same
      rw [equal, namedOther] at named
      exact Name.ne_append_underscore word (Value.text.inj named).symm
    · refine (List.pairwise_map.mp distinct).imp ?_
      intro f other differ _
      exact differ
  · intro free
    have differ := List.pairwise_map.mp (pairwise_of_hasRepeat apart)
    refine List.pairwise_map.mpr ((differ.and free.shown).imp_of_mem ?_)
    rintro f other known knownOther ⟨raw, shown⟩ same
    cases named : f.name with
    | text a =>
      cases namedOther : other.name with
      | text b =>
        have plain : Value.text a ∈ fields.map (·.name) := named ▸ List.mem_map_of_mem known
        have plainOther : Value.text b ∈ fields.map (·.name) :=
          namedOther ▸ List.mem_map_of_mem knownOther
        rw [named, namedOther] at same raw
        rcases Name.sanitize_eq_sanitize_iff.mp same with rfl | ⟨reserved, rfl⟩ | ⟨reserved, rfl⟩
        · simp [Value.same, Value.equal] at raw
        · exact free.words a reserved plain plainOther
        · exact free.words b reserved plainOther plain
      | _ => exact shown (.inr (by rw [namedOther]; rfl)) same
    | _ => exact shown (.inl (by rw [named]; rfl)) same

/-- The classes of a function have different attributes each. The class of its result has the
    attribute `success` before those of the exceptions, if something is returned. -/
structure Method.ClassesApart (m : Method) : Prop where
  arguments : FieldsApart m.params
  exceptions : m.oneway = false → FieldsApart m.throws
  success : m.oneway = false → m.returns.isSome → ∀ f ∈ m.throws, f.name.display ≠ "success"

namespace Schema

theorem hasRepeat_of_fields {home : Home} {raw : Value} (read : home.fields raw = .ok fields) :
    hasRepeat (fields.map (·.name)) = false := by
  obtain ⟨items, -, read⟩ := bind_eq_ok.mp read
  obtain ⟨found, -, read⟩ := bind_eq_ok.mp read
  dsimp only at read
  cases loose : (found.map (·.name)).find? fun name => !name.hashable with
  | some name =>
    rw [loose] at read
    cases read
  | none =>
    rw [loose] at read
    dsimp only at read
    split at read
    · cases read
    · rename_i apart
      cases read
      exact Bool.eq_false_iff.mpr apart

theorem hasRepeat_of_method {home : Home} {raw : Value} {m : Method}
    (read : home.method raw = .ok m) :
    hasRepeat (m.params.map (·.name)) = false ∧ hasRepeat (m.throws.map (·.name)) = false := by
  obtain ⟨entries, -, read⟩ := bind_eq_ok.mp read
  obtain ⟨name, -, read⟩ := bind_eq_ok.mp read
  obtain ⟨params, parameters, read⟩ := bind_eq_ok.mp read
  have finish {returns : Option FieldType} (done : (do
      let throws ← home.fields (optional entries "throws" (.list []))
      return Method.mk name params returns throws
        (optional entries "oneway" (.bool false)).truthy) = .ok m) :
      hasRepeat (m.params.map (·.name)) = false ∧ hasRepeat (m.throws.map (·.name)) = false := by
    obtain ⟨throws, exceptions, made⟩ := bind_eq_ok.mp done
    cases made
    exact ⟨hasRepeat_of_fields parameters, hasRepeat_of_fields exceptions⟩
  dsimp only at read
  split at read
  · exact finish read
  · exact finish read
  · obtain ⟨returns, -, read⟩ := bind_eq_ok.mp read
    exact finish read

end Schema

theorem Table.mem_of_mem_ofEntries {α : Type} {found : List (String × α)} {entry : String × α}
    (member : entry ∈ ofEntries found) : entry ∈ found := by
  have put (table : Table α) (key : String) (value : α) (inside : entry ∈ table.put key value) :
      entry ∈ table ∨ entry = (key, value) := by
    induction table with
    | nil => exact .inr (List.mem_singleton.mp inside)
    | cons first rest ih =>
      rw [Table.put] at inside
      split at inside
      · rename_i same
        rcases List.mem_cons.mp inside with rfl | later
        · exact .inr (by rw [same])
        · exact .inl (List.mem_cons_of_mem _ later)
      · rcases List.mem_cons.mp inside with rfl | later
        · exact .inl (List.mem_cons_self ..)
        · exact (ih later).imp_left (List.mem_cons_of_mem _)
  induction found using List.reverseRecOn with
  | nil => cases member
  | append_singleton found last ih =>
    rw [ofEntries_concat] at member
    rcases put _ _ _ member with before | rfl
    · exact List.mem_append_left _ (ih before)
    · exact List.mem_append_right _ (List.mem_singleton_self _)

namespace Schema

def records (s : Schema) : List Record := s.structs.values ++ s.unions.values ++ s.exceptions.values

theorem read_of_mem_values {α : Type} {read : Value → Except Fault (String × α)} {raw : Value}
    {table : Table α} (done : tableOf read raw = .ok table) {value : α}
    (member : value ∈ table.values) : ∃ item key, read item = .ok (key, value) := by
  obtain ⟨items, found, -, each, rfl⟩ := ofEntries_of_tableOf done
  obtain ⟨entry, known, rfl⟩ := List.mem_map.mp member
  obtain ⟨item, -, made⟩ := mem_of_forall₂ each (Table.mem_of_mem_ofEntries known)
  exact ⟨item, entry.1, made⟩

variable {document : Value} {path : String} {s : Schema}

theorem hasRepeat_of_record (loaded : load document path = .ok s) (member : r ∈ s.records) :
    hasRepeat (r.fields.map (·.name)) = false := by
  obtain ⟨entries, -, structs, unions, exceptions, -⟩ := tables_of_load loaded
  have each {kind : RecordKind} {raw : Value} {table : Table Record}
      (done : tableOf (s.home.record kind) raw = .ok table) (member : r ∈ table.values) :
      hasRepeat (r.fields.map (·.name)) = false := by
    obtain ⟨item, key, read⟩ := read_of_mem_values done member
    obtain ⟨_, -, -, listed⟩ := describesRecord_of_read read
    exact hasRepeat_of_fields listed
  rcases List.mem_append.mp member with first | last
  · rcases List.mem_append.mp first with inStructs | inUnions
    · exact each structs inStructs
    · exact each unions inUnions
  · exact each exceptions last

theorem hasRepeat_of_service (loaded : load document path = .ok s) {service : Service}
    (member : service ∈ s.services.values) {m : Method} (known : m ∈ service.methods) :
    hasRepeat (m.params.map (·.name)) = false ∧ hasRepeat (m.throws.map (·.name)) = false := by
  obtain ⟨entries, -, -, -, -, -, -, services⟩ := tables_of_load loaded
  obtain ⟨item, key, read⟩ := read_of_mem_values services member
  obtain ⟨_, items, -, -, each, -⟩ := describesService_of_read read
  obtain ⟨raw, -, made⟩ := mem_of_mapM each known
  exact hasRepeat_of_method made

end Schema

def Declaration.attributes? : Declaration → Option (List String)
  | .record _ _ _ attributes => some (attributes.map (·.name))
  | .arguments _ attributes => some (attributes.map (·.name))
  | .response _ attributes => some (attributes.map (·.name))
  | _ => none

/-- The attributes of each class of a module, as they are written. -/
def Output.attributes (o : Output) : List (List String) := o.body.filterMap Declaration.attributes?

/-- The fields of the classes of a service: for each function those of the arguments and, if it
    answers, those of the result. -/
def Service.classFields (service : Service) : List (List Field) :=
  service.methods.flatMap fun m => m.params :: (Emit.responseFields? m).toList

namespace Emit

theorem attributes_record {path : Value} {o : Output} (done : record g path kind name r = .ok o) :
    o.attributes = [attributesOf r.fields] := by
  obtain ⟨attributes, each, drafted⟩ := record_eq_ok done
  simp [Output.attributes, drafted.body, Declaration.attributes?, names_of_isAttribute each]

theorem attributes_methodParts {m : Method} {parts : List Declaration}
    (isParts : MethodParts g m parts) :
    parts.filterMap Declaration.attributes? =
      (m.params :: (responseFields? m).toList).map attributesOf := by
  cases isParts with
  | oneway named way arguments =>
    have none : responseFields? m = none := if_pos way
    simp [none, Declaration.attributes?, names_of_isAttribute arguments]
  | answered named way arguments response answers =>
    simp [response, Declaration.attributes?, names_of_isAttribute arguments,
      names_of_isAttribute answers]

theorem attributes_service {path : Value} {service : Service} {o : Output}
    (done : Emit.service g path service = .ok o) :
    o.attributes = service.classFields.map attributesOf := by
  obtain ⟨name, parts, rows, parent, -, each, -, drafted⟩ := service_eq_ok done
  have table : [.functionTable rows parent].filterMap Declaration.attributes? = [] := rfl
  rw [Output.attributes, drafted.body, List.filterMap_append, table, List.append_nil,
    Service.classFields]
  clear drafted
  generalize service.methods = methods at each
  induction each with
  | nil => rfl
  | cons first _ ih =>
    rw [List.flatten_cons, List.filterMap_append, attributes_methodParts first, ih,
      List.flatMap_cons, List.map_append]

end Emit

/-- The attributes of the result of a function are different exactly if those of its exceptions are,
    and none of them is the attribute of what is returned. -/
theorem nodup_responseFields_iff {m : Method}
    (apart : Schema.hasRepeat (m.throws.map (·.name)) = false) :
    (∀ fields ∈ (Emit.responseFields? m).toList, (attributesOf fields).Nodup) ↔
      (m.oneway = false → FieldsApart m.throws) ∧
        (m.oneway = false → m.returns.isSome → ∀ f ∈ m.throws, f.name.display ≠ "success") := by
  cases way : m.oneway with
  | true => simp [Emit.responseFields?, way]
  | false =>
    have exceptions := nodup_attributesOf_iff apart
    rw [attributesOf] at exceptions
    cases returns : m.returns with
    | none => simp [Emit.responseFields?, way, returns, attributesOf, exceptions]
    | some type =>
      have fresh : "success" ∉ m.throws.map (fun f => Name.attributeName f.name) ↔
          ∀ f ∈ m.throws, f.name.display ≠ "success" := by
        simp [← Name.attributeName_eq_success]
      have named : Name.attributeName (.text "success") = "success" := by decide +kernel
      simp only [Emit.responseFields?, way, returns, Option.map_some, Option.toList_some,
        List.singleton_append, Bool.false_eq_true, if_false, List.forall_mem_singleton,
        attributesOf, List.map_cons, named, List.nodup_cons, fresh, exceptions, forall_true_left,
        Option.isSome_some]
      exact and_comm

def Expr.givenKeywords : Expr → List (List String)
  | .letAll _ bindings => [bindings.map (·.1)]
  | .rebuild _ fields => [fields.map (·.1)]
  | _ => []

/-- The keywords of the calls that a companion makes for its own record, call by call. -/
def Expr.ownKeywords : Expr → List (List String)
  | .call _ args kwargs => kwargs.map (·.1) :: args.flatMap givenKeywords
  | e => givenKeywords e

def Declaration.keywords : Declaration → List (List String)
  | .generator _ _ strategy => strategy.ownKeywords
  | .defaults _ _ result => result.ownKeywords
  | _ => []

def Output.keywords (o : Output) : List (List String) := o.body.flatMap Declaration.keywords

namespace Companion

variable {names : List String}

theorem sublist_of_generator {constructor strategy : Expr}
    (drawn : generator g kind constructor fields = .ok strategy)
    (member : names ∈ strategy.ownKeywords) : names.Sublist (attributesOf fields) := by
  unfold generator at drawn
  split at drawn
  · cases drawn
    cases List.mem_singleton.mp member
    exact List.nil_sublist _
  · split at drawn
    · obtain ⟨members, each, made⟩ := bind_eq_ok.mp drawn
      cases made
      rcases List.mem_cons.mp member with rfl | inMembers
      · exact List.nil_sublist _
      · obtain ⟨e, known, inside⟩ := List.mem_flatMap.mp inMembers
        obtain ⟨f, inFields, made⟩ := mem_of_mapM each known
        obtain ⟨draw, -, made⟩ := bind_eq_ok.mp made
        cases made
        cases List.mem_singleton.mp inside
        exact List.singleton_sublist.mpr (List.mem_map_of_mem inFields)
    · obtain ⟨exprs, each, made⟩ := bind_eq_ok.mp drawn
      cases made
      cases List.mem_singleton.mp member
      rw [List.map_map, attributesOf_of_forall₂ ?_ (mapM_eq_ok.mp each)]
      intro f e made
      obtain ⟨draw, -, made⟩ := bind_eq_ok.mp made
      obtain ⟨default, -, made⟩ := bind_eq_ok.mp made
      cases made
      rfl

theorem keywords_of_applyDefaults {result : Expr} (made : applyDefaults g r = .ok result)
    (some : r.fields ≠ []) :
    attributesOf r.fields ∈ result.ownKeywords ∧
      ∀ names ∈ result.ownKeywords, names.Sublist (attributesOf r.fields) := by
  by_cases kind : r.kind = .union
  · obtain ⟨defaults, each, same⟩ := applyDefaults_union made some kind
    have given : defaults.map (·.1) = attributesOf (r.fields.filter Field.declares) :=
      attributesOf_of_forall₂ (fun _ _ paired => paired.1) each
    have all : (r.fields.map fun f => (Name.attributeName f.name, defaultedField f)).map (·.1) =
        attributesOf r.fields := by
      rw [List.map_map]
      rfl
    have part : (attributesOf (r.fields.filter Field.declares)).Sublist (attributesOf r.fields) :=
      List.filter_sublist.map _
    rw [same]
    split
    · simp [Expr.ownKeywords, Expr.givenKeywords, all]
    · simp [Expr.ownKeywords, Expr.givenKeywords, all, given, part]
  · obtain ⟨kwargs, rfl, each⟩ := applyDefaults_struct made some kind
    have all : kwargs.map (·.1) = attributesOf r.fields :=
      attributesOf_of_forall₂ (fun _ _ paired => paired.1) each
    simp [Expr.ownKeywords, Expr.givenKeywords, all]

theorem nodup_keywords_iff {path : Value} {o : Output}
    (done : output g path name (.record r) = .ok o) :
    (∀ names ∈ o.keywords, names.Nodup) ↔ (attributesOf r.fields).Nodup := by
  obtain ⟨cls, strategy, subject, result, -, drawn, defaulted, drafted⟩ := output_record_eq_ok done
  have keywords : o.keywords = strategy.ownKeywords ++ result.ownKeywords := by
    simp [Output.keywords, drafted.body, Declaration.keywords]
  rw [keywords]
  by_cases some : r.fields = []
  · have plain : result = .name recordParam := by
      rw [applyDefaults, some] at defaulted
      exact (Except.ok.inj defaulted).symm
    have none : attributesOf r.fields = [] := by rw [some]; rfl
    have empty (names : List String) (member : names ∈ strategy.ownKeywords) : names = [] :=
      List.sublist_nil.mp (none ▸ sublist_of_generator drawn member)
    rw [plain, none]
    simp only [Expr.ownKeywords, Expr.givenKeywords, List.append_nil, List.nodup_nil, iff_true]
    intro names member
    rw [empty names member]
    exact List.nodup_nil
  · obtain ⟨whole, parts⟩ := keywords_of_applyDefaults defaulted some
    constructor
    · intro distinct
      exact distinct _ (List.mem_append_right _ whole)
    · intro distinct names member
      rcases List.mem_append.mp member with inStrategy | inResult
      · exact distinct.sublist (sublist_of_generator drawn inStrategy)
      · exact distinct.sublist (parts names inResult)

end Companion

/-- The classes of a loaded schema have an attribute for each field, in order. Those of a record are
    different, and no keyword of its companion is repeated, exactly if no two names of its fields
    clash; those of a service if this holds for its functions, and no exception is shown as
    `success` beside a result. Attributes are compared as they are written, not by their normal
    forms. -/
theorem attributes_distinct_iff {document : Value} {path : String} {s : Schema}
    (loaded : Schema.load document path = .ok s) (g : Group) :
    (∀ r ∈ s.records,
      (∀ kind name o, Emit.record g s.path kind name r = .ok o →
        o.attributes = [attributesOf r.fields] ∧
          ((∀ names ∈ o.attributes, names.Nodup) ↔ FieldsApart r.fields)) ∧
      ∀ name o, Companion.output g s.path name (.record r) = .ok o →
        ((∀ names ∈ o.keywords, names.Nodup) ↔ FieldsApart r.fields)) ∧
    ∀ service ∈ s.services.values, ∀ o, Emit.service g s.path service = .ok o →
      o.attributes = service.classFields.map attributesOf ∧
        ((∀ names ∈ o.attributes, names.Nodup) ↔ ∀ m ∈ service.methods, m.ClassesApart) := by
  constructor
  · intro r known
    have apart := nodup_attributesOf_iff (Schema.hasRepeat_of_record loaded known)
    refine ⟨fun kind name o done => ?_, fun name o done => ?_⟩
    · have attributes := Emit.attributes_record done
      exact ⟨attributes, by rw [attributes, List.forall_mem_singleton, apart]⟩
    · rw [Companion.nodup_keywords_iff done, apart]
  · intro service known o done
    have attributes := Emit.attributes_service done
    refine ⟨attributes, ?_⟩
    rw [attributes, List.forall_mem_map, Service.classFields, List.forall_mem_flatMap]
    refine forall₂_congr fun m inService => ?_
    obtain ⟨params, throws⟩ := Schema.hasRepeat_of_service loaded known inService
    have arguments := nodup_attributesOf_iff params
    have response := nodup_responseFields_iff throws
    rw [List.forall_mem_cons, arguments, response]
    constructor
    · rintro ⟨first, second, third⟩
      exact ⟨first, second, third⟩
    · rintro ⟨first, second, third⟩
      exact ⟨first, second, third⟩

/-- A document of a service with a reserved word among its parameters, and an exception. -/
def callDocument : Value :=
  .dict [(.text "module", .text "m"), (.text "services", .list [.dict [
    (.text "name", .text "Mail"), (.text "functions", .list [.dict [
      (.text "name", .text "send"),
      (.text "params", .list [.dict [(.text "name", .text "from"), (.text "type", .text "i32")],
        .dict [(.text "name", .text "to"), (.text "type", .text "i32")]]),
      (.text "returns", .text "i32"),
      (.text "throws", .list [
        .dict [(.text "name", .text "lost"), (.text "type", .text "i32")]])]])]])]

def callSchema : Schema := (Schema.load callDocument "").toOption.get (by decide +kernel)

theorem call_classes_apart :
    ∃ s, Schema.load callDocument "" = .ok s ∧
      ∀ service ∈ s.services.values, ∀ m ∈ service.methods, m.ClassesApart := by
  have loaded : Schema.load callDocument "" = .ok callSchema :=
    toOption_eq_some.mp (Option.some_get _).symm
  have checked : ∀ service ∈ callSchema.services.values,
      ∃ o ∈ (Emit.service {} callSchema.path service).toOption,
        ∀ names ∈ o.attributes, names.Nodup := by
    decide +kernel
  refine ⟨callSchema, loaded, fun service known => ?_⟩
  obtain ⟨o, done, distinct⟩ := checked service known
  exact (((attributes_distinct_iff loaded {}).2 service known o
    (toOption_eq_some.mp done)).2).mp distinct

/-- A struct with a reserved word and the same word with an underscore for its fields. -/
def intervalDocument : Value :=
  .dict [(.text "module", .text "m"), (.text "structs", .list [.dict [
    (.text "name", .text "Span"), (.text "fields", .list [
      .dict [(.text "name", .text "from"), (.text "type", .text "i32")],
      .dict [(.text "name", .text "from_"), (.text "type", .text "i32")]])]])]

theorem span_repeats_attribute :
    ∃ s, Schema.load intervalDocument "" = .ok s ∧
      s.records.map (fun r => (Emit.record {} s.path "struct" "Span" r).toOption.map
        Output.attributes) = [some [["from_", "from_"]]] := by
  simp only [← toOption_eq_some, ← Option.mem_def]
  decide +kernel

end IdlGen
