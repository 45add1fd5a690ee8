import IdlGen.Proofs.Containers
import IdlGen.Proofs.Programs
import IdlGen.Proofs.Tables

/-!
Classes as they are made. What a reference finds in a linked program is the class that running the
declarations of its module binds (`class_is_made`).
-/
namespace IdlGen

open Run Outcome Code

namespace Run

/-! ### Class bodies -/

/-- A name that the body of a class binds, with what its annotation begins with if it has one. -/
structure BodyName where
  name : String
  value : Value
  annotation? : Option (Option String) := none

def BodyName.statement (b : BodyName) : Statement :=
  match b.annotation? with
  | none => .assign [.name b.name] (.literal b.value)
  | some leading? => .annotate (.name b.name) true leading? (some (.literal b.value))

def bodyFrame (className : String) (names : List BodyName) : Frame where
  className
  bindings := names.map fun b => (b.name, .value b.value)
  annotated := names.filterMap fun b => b.annotation?.map (b.name, ·)

def inBody (id : Nat) (f : Frame) : Site := { home := id, frame? := some f }

section
variable {h : Hooks} {m : Machine} {id : Nat} {className : String} {before names : List BodyName}
  {b : BodyName}

theorem get?_bodyFrame {name : String} (absent : name ∉ names.map (·.name)) :
    (bodyFrame className names).get? name = none := by
  rw [Frame.get?, List.lookup_eq_none_iff]
  intro entry member
  rw [bne_iff_ne]
  rintro rfl
  obtain ⟨b, known, rfl⟩ := List.mem_map.mp (List.mem_reverse.mp member)
  exact absent (List.mem_map_of_mem known)

theorem returns_cons {site next last : Site} {statement : Statement} {rest : List Statement}
    (first : Returns m (runStatement h site statement) next)
    (others : Returns m (runAll h next rest) last) :
    Returns m (runAll h site (statement :: rest)) last := by
  rw [runAll]
  exact first.bind others

theorem returns_statement (kept : privateName className b.name = b.name)
    (fresh : b.name ∉ before.map (·.name))
    (shown : Site.annotationsName ∉ (before ++ [b]).map (·.name)) :
    Returns m (runStatement h (inBody id (bodyFrame className before)) b.statement)
      (inBody id (bodyFrame className (before ++ [b]))) := by
  obtain ⟨name, value, annotation?⟩ := b
  let bound : Frame := { bodyFrame className before with
    bindings := (bodyFrame className (before ++ [⟨name, value, annotation?⟩])).bindings }
  have assigned : Returns m (assignTo h (inBody id (bodyFrame className before)) (.value value)
      (.name name)) (inBody id bound) := by
    have here : Site.nameHere { home := id, frame? := some (bodyFrame className before) } name =
      name := kept
    simp only [assignTo, Site.bind, inBody, here]
    simp only [bound, bodyFrame, List.map_append]
    exact returns_pure _
  cases annotation? with
  | none =>
    rw [BodyName.statement, runStatement]
    refine Returns.bind (returns_pure (Object.value value)) ?_
    rw [assignToAll]
    refine assigned.bind ?_
    simp only [bound, bodyFrame, List.filterMap_append]
    simp only [List.filterMap_cons, Option.map_none, List.filterMap_nil, List.append_nil]
    exact returns_pure _
  | some leading? =>
    rw [BodyName.statement, runStatement]
    refine Returns.bind (returns_pure (Object.value value)) (assigned.bind ?_)
    have here : Site.nameHere { home := id, frame? := some bound } name = name := kept
    have shows : Returns m (inBody id bound).hidesAnnotations false := by
      have none : bound.get? Site.annotationsName = none := @get?_bodyFrame className _ _ shown
      simp only [Site.hidesAnnotations, inBody, none]
      exact returns_pure false
    have new : name ∉ bound.annotated.keys := by
      intro known
      obtain ⟨entry, member, rfl⟩ := List.mem_map.mp known
      obtain ⟨b, inBefore, made⟩ := List.mem_filterMap.mp member
      obtain ⟨_, -, rfl⟩ := Option.map_eq_some_iff.mp made
      exact fresh (List.mem_map.mpr ⟨b, inBefore, rfl⟩)
    refine shows.bind ?_
    simp only [inBody, here, Table.put_of_not_mem leading? new]
    simp only [bound, bodyFrame, List.filterMap_append]
    exact returns_pure _

theorem returns_body (kept : ∀ b ∈ names, privateName className b.name = b.name)
    (apart : ((before ++ names).map (·.name)).Nodup)
    (shown : Site.annotationsName ∉ (before ++ names).map (·.name)) :
    Returns m (runAll h (inBody id (bodyFrame className before)) (names.map BodyName.statement))
      (inBody id (bodyFrame className (before ++ names))) := by
  induction names generalizing before with
  | nil =>
    rw [List.append_nil]
    exact returns_pure _
  | cons b rest ih =>
    obtain ⟨here, later⟩ := List.forall_mem_cons.mp kept
    have whole : before ++ b :: rest = before ++ [b] ++ rest := by simp
    rw [whole] at apart shown ⊢
    have first := (List.nodup_append.mp (List.map_append ▸ apart)).1
    have fresh : b.name ∉ before.map (·.name) := by
      rw [List.map_append] at first
      exact fun known => (List.nodup_append.mp first).2.2 _ known _ (List.mem_singleton_self _) rfl
    refine returns_cons (returns_statement here fresh fun known => shown ?_) (ih later apart shown)
    exact List.map_append ▸ List.mem_append_left _ known

theorem returns_remark (text : String) (site : Site) :
    Returns m (runStatement h site (Declaration.remark text)) site := by
  rw [Declaration.remark, runStatement]
  exact Returns.bind (returns_pure (Object.value (.text text))) (returns_pure site)

end

/-! ### Modules -/

def Machine.names (m : Machine) (id : Nat) : Table Object := (m.modules.getD id default).names

def Machine.bound (m : Machine) (id : Nat) (name : String) (o : Object) : Machine :=
  { m with modules :=
    m.modules.modify id fun known => { known with names := known.names.put name o } }

def Machine.isClassVar (m : Machine) (id : Nat) (leading : String) : Bool :=
  match (m.names id).get? leading with
  | some (.native .classVar) => true
  | _ => false

section
variable {h : Hooks} {m : Machine} {id : Nat}

theorem returns_name {scope : Scope} {name : String} {o : Object} (outer : scope.inner = [])
    (found : ((m.names scope.home).get? name <|> builtin? name) = some o) :
    Returns m (scope.name name) o := by
  rw [Returns, Scope.run_name "" name, Surroundings.name]
  simp only [Machine.around, outer, List.nil_append]
  rw [Machine.names, Table.get?] at found
  rw [found]

theorem run_bind_of_returns {α β : Type} {step : Running α} {a : α} (first : Returns m step a)
    (next : α → Running β) : (step >>= next).run m = (next a).run m := by
  rw [run_bind, first]

/-- A class is bound to its name once its decorators, bases and body have run. -/
theorem run_classDef {name text : String} {decorators bases : List Term} {names : List BodyName}
    {ds bs : List Object} {cls made : Object}
    (decorates : Returns m (evalAll h { home := id } decorators) ds)
    (derives : Returns m (evalAll h { home := id } bases) bs)
    (kept : ∀ b ∈ names, privateName name b.name = b.name) (apart : (names.map (·.name)).Nodup)
    (shown : Site.annotationsName ∉ names.map (·.name))
    (makes : makeClass (m.isClassVar id) bs (bodyFrame name names) = .ok cls)
    (decorated : Returns m (applyDecorators h cls ds) made) :
    (runAll h { home := id } [.classDef name decorators bases
        (Declaration.remark text :: names.map BodyName.statement)]).run m =
      (.ok { home := id }, m.bound id name made) := by
  have tested : Returns m (classVarTest id) (m.isClassVar id) := rfl
  have runs : Returns m (runAll h (inBody id (bodyFrame name []))
      (Declaration.remark text :: names.map BodyName.statement))
      (inBody id (bodyFrame name names)) :=
    returns_cons (returns_remark text _) (returns_body kept apart shown)
  have ran : (runStatement h { home := id } (.classDef name decorators bases
      (Declaration.remark text :: names.map BodyName.statement))).run m =
      (.ok { home := id }, m.bound id name made) := by
    rw [runStatement]
    refine (run_bind_of_returns decorates _).trans ((run_bind_of_returns derives _).trans ?_)
    refine (run_bind_of_returns runs _).trans ((run_bind_of_returns tested _).trans ?_)
    exact (run_bind_of_returns (returns_of makes) _).trans (run_bind_of_returns decorated _)
  rw [runAll, run_bind, ran]
  rfl

end

/-! ### Classes of records -/

/-- The names that decide how a record class is made and how its instances are. -/
def formativeNames : List String :=
  ["__annotations__", "__hash__", "__init__", "__new__", "__post_init__", "__class__",
    "__getattribute__", "__setattr__", "__delattr__", "__module__", "__dict__",
    "__dataclass_fields__"] ++ fixedNames

namespace ClassBody

variable {b : ClassBody} {output : String}

theorem bindsAny_eq_false (names : List String) (formative : names ⊆ formativeNames)
    (free : ∀ name ∈ formativeNames, b.names.lookup name = none) : b.bindsAny names = false := by
  simp only [bindsAny, List.any_eq_false]
  intro name member
  simp [free name (formative member)]

theorem ofBody_eq_ok (isFrozen : Bool) (label : b.names.lookup labelName = some (.text output))
    (free : ∀ name ∈ formativeNames, b.names.lookup name = none)
    (bound : ∀ field ∈ b.annotated, b.names.lookup field = some .null) :
    RecordType.ofBody isFrozen b = .ok {
      cls := { name := output, hashable := !b.isException }
      fields := b.annotated.map fun field => (field, unsetValue b.name b.isException field) } := by
  have other (name : String) (formative : name ∈ formativeNames) : name ∉ b.annotated := by
    intro member
    cases (free name formative).symm.trans (bound name member)
  have given (field : String) (member : field ∈ b.annotated) : b.requires field = false := by
    simp [requires, bound field member]
  have ordered : (b.annotated.dropWhile b.requires).any b.requires = false := by
    rw [List.any_eq_false]
    intro field member
    simp [given field ((List.dropWhile_sublist _).subset member)]
  have cls : b.recordClass = { name := output, hashable := !b.isException } := by
    simp [recordClass, label, bindsAny_eq_false ["__hash__"] (by decide) free]
  have obstacle : b.obstacle? isFrozen = none := by
    have makers := bindsAny_eq_false
      ["__init__", "__new__", "__post_init__", "__class__", "__getattribute__"] (by decide) free
    have setter := bindsAny_eq_false ["__setattr__"] (by decide) free
    have described : b.annotated.contains "__dataclass_fields__" = false := by
      simpa using other "__dataclass_fields__" (by decide)
    simp only [obstacle?, makers, setter, described]
    simp
  have fields : (b.annotated.map fun field => (field, b.fieldValue field)) =
      b.annotated.map fun field => (field, unsetValue b.name b.isException field) :=
    List.map_congr_left fun field member => by simp [fieldValue, unsetValue, bound field member]
  have required : b.annotated.filter b.requires = [] :=
    List.filter_eq_nil_iff.mpr fun field member => by simp [given field member]
  have module := bindsAny_eq_false ["__module__"] (by decide) free
  have setters := bindsAny_eq_false ["__setattr__", "__delattr__"] (by decide) free
  have dict : b.annotated.contains "__dict__" = false := by
    simpa using other "__dict__" (by decide)
  simp only [RecordType.ofBody, module, setters, dict, ordered, cls, fields, required, obstacle]
  simp

end ClassBody

/-- The module has what classes of records are made with. -/
structure Machine.HasRecordTools (m : Machine) (id : Nat) : Prop where
  dataclass : (m.names id).get? "dataclass" = some (.native .dataclass)
  classVar : (m.names id).get? "ClassVar" = some (.native .classVar)
  exception : (m.names id).get? "Exception" = none

/-- The attributes of a class have names that differ, mean nothing else there and are not changed
    by it, and none is annotated as one of the class. -/
structure Machine.Takes (m : Machine) (id : Nat) (home className : String)
    (attributes : List Attribute) : Prop where
  apart : (labelName :: attributes.map (·.name)).Nodup
  kept : ∀ a ∈ attributes, privateName className a.name = a.name
  free : ∀ a ∈ attributes, a.name ∉ formativeNames
  ofInstances : ∀ a ∈ attributes, (a.hint.leading? home).any (m.isClassVar id) = false

def recordNames (home output : String) (attributes : List Attribute) : List BodyName :=
  ⟨labelName, .text output, some (some "ClassVar")⟩ ::
    attributes.map fun a => ⟨a.name, .null, some (a.hint.leading? home)⟩

def recordBody (home output kind : String) (attributes : List Attribute) : ClassBody where
  name := Name.className output
  isException := kind == "exception"
  names := (recordNames home output attributes).reverse.map fun b => (b.name, b.value)
  annotated := attributes.map (·.name)
  namesOwn := true

section
variable {h : Hooks} {m : Machine} {id : Nat} {home output kind declared : String}
  {attributes : List Attribute}

theorem names_recordNames : (recordNames home output attributes).map (·.name) =
    labelName :: attributes.map (·.name) := by
  simp [recordNames, Function.comp_def]

section
variable (tools : m.HasRecordTools id) (takes : m.Takes id home (Name.className output) attributes)
include takes

theorem not_mem_recordNames {name : String} (formative : name ∈ formativeNames) :
    name ∉ (recordNames home output attributes).map (·.name) := by
  rw [names_recordNames, List.mem_cons, not_or]
  constructor
  · rintro rfl
    exact absurd formative (by decide)
  · intro member
    obtain ⟨a, known, rfl⟩ := List.mem_map.mp member
    exact takes.free a known formative

theorem kept_recordNames : ∀ b ∈ recordNames home output attributes,
    privateName (Name.className output) b.name = b.name := by
  refine List.forall_mem_cons.mpr ⟨if_neg (by simp [labelName, Text.hasStart]), ?_⟩
  exact List.forall_mem_map.mpr takes.kept

variable (kind) in
theorem lookup_recordBody :
    (recordBody home output kind attributes).names.lookup labelName = some (.text output) ∧
      (∀ name ∈ formativeNames,
        (recordBody home output kind attributes).names.lookup name = none) ∧
      ∀ field ∈ (recordBody home output kind attributes).annotated,
        (recordBody home output kind attributes).names.lookup field = some .null := by
  have names : (recordBody home output kind attributes).names.map (·.1) =
      ((recordNames home output attributes).map (·.name)).reverse := by
    simp [recordBody, Function.comp_def]
  have apart : ((recordBody home output kind attributes).names.map (·.1)).Nodup := by
    rw [names, names_recordNames]
    exact List.nodup_reverse.mpr takes.apart
  have bound (b : BodyName) (member : b ∈ recordNames home output attributes) :
      (recordBody home output kind attributes).names.lookup b.name = some b.value :=
    lookup_of_mem apart (List.mem_map.mpr ⟨b, List.mem_reverse.mpr member, rfl⟩)
  refine ⟨bound _ (List.mem_cons_self ..), fun name formative => ?_, ?_⟩
  · rw [List.lookup_eq_none_iff]
    intro entry member
    rw [bne_iff_ne]
    rintro rfl
    refine not_mem_recordNames takes formative ?_
    rw [← List.mem_reverse, ← names]
    exact List.mem_map_of_mem member
  · refine List.forall_mem_map.mpr fun a member =>
      bound ⟨a.name, .null, some (a.hint.leading? home)⟩ (List.mem_cons_of_mem _ ?_)
    exact List.mem_map.mpr ⟨a, member, rfl⟩

include tools

variable (kind) in
theorem makeClass_record :
    makeClass (m.isClassVar id) (if kind = "exception" then [.native .exception] else [])
      (bodyFrame (Name.className output) (recordNames home output attributes)) =
        .ok (.classBody (recordBody home output kind attributes)) := by
  have unfixed : (fixedNames.any fun name => ((bodyFrame (Name.className output)
      (recordNames home output attributes)).get? name).isSome) = false := by
    rw [List.any_eq_false]
    intro name member
    simp [get?_bodyFrame (not_mem_recordNames takes (List.mem_append_right _ member))]
  have annotated : (bodyFrame (Name.className output)
      (recordNames home output attributes)).annotated = (labelName, some "ClassVar") ::
        attributes.map fun a => (a.name, a.hint.leading? home) := by
    simp [bodyFrame, recordNames, Function.comp_def]
  have ofClass : m.isClassVar id "ClassVar" = true := by
    simp [Machine.isClassVar, tools.classVar]
  have ofInstances : ((bodyFrame (Name.className output)
      (recordNames home output attributes)).annotated.filter fun entry =>
        !entry.2.any (m.isClassVar id)).map (·.1) = attributes.map (·.name) := by
    rw [annotated, List.filter_cons_of_neg (by simp [ofClass]), List.filter_eq_self.mpr,
      List.map_map]
    · rfl
    · exact List.forall_mem_map.mpr fun a member => by simp [takes.ofInstances a member]
  have namesOwn : ((bodyFrame (Name.className output)
      (recordNames home output attributes)).annotated.any fun entry => entry.2.isSome) = true := by
    rw [annotated]
    rfl
  by_cases exception : kind = "exception"
  · simp only [makeClass, exception, if_true, unfixed, ofInstances, namesOwn]
    simp [recordBody, bodyFrame, bind, Except.bind, pure, Except.pure, Object.toValue,
      Function.comp_def]
  · simp only [makeClass, exception, if_false, unfixed, ofInstances, namesOwn]
    simp [recordBody, bodyFrame, bind, Except.bind, pure, Except.pure, Object.toValue,
      Function.comp_def, exception]

omit takes in
theorem returns_dataclass :
    Returns m (eval h { home := id } (.name "dataclass")) (.native .dataclass) := by
  rw [eval]
  exact returns_name rfl (by simp [tools.dataclass])

/-- Running the declaration of a record binds the class that `class?` gives. -/
theorem run_record {name : String} {cls : Object}
    (made : (Declaration.record output kind declared attributes).class? = some (name, cls)) :
    (runAll h { home := id }
        ((Declaration.record output kind declared attributes).statements home)).run m =
      (.ok { home := id }, m.bound id name cls) := by
  obtain ⟨label, free, bound⟩ := lookup_recordBody kind takes
  have decorated (isFrozen : Bool) : Returns m
      (applyDecorators h (.classBody (recordBody home output kind attributes))
        [if isFrozen then .decorator true else .native .dataclass]) cls := by
    have same : decorate isFrozen (recordBody home output kind attributes) = .ok cls := by
      cases made
      rw [decorate, ClassBody.ofBody_eq_ok isFrozen label free bound]
      simp [recordBody, bne, Functor.map, Except.map, Function.comp_def]
    rw [applyDecorators]
    refine Returns.bind (returns_pure _) ?_
    cases isFrozen <;> exact returns_of same
  cases made
  have makes := makeClass_record kind tools takes
  have apart : ((recordNames home output attributes).map (·.name)).Nodup := by
    rw [names_recordNames]
    exact takes.apart
  have shown : Site.annotationsName ∉ (recordNames home output attributes).map (·.name) :=
    not_mem_recordNames takes (by decide)
  have body : (recordNames home output attributes).map BodyName.statement =
      .annotate (.name "THRIFT_NAME") true (some "ClassVar") (some (.literal (.text output))) ::
        attributes.map (Declaration.attributeStatement home) := by
    rw [recordNames, List.map_cons, List.map_map]
    rfl
  rw [Declaration.statements, ← body]
  by_cases exception : kind = "exception"
  · rw [if_pos exception] at makes
    rw [if_pos exception, if_pos exception]
    have derives : Returns m (evalAll h { home := id } [.name "Exception"])
        [.native .exception] := by
      refine Expr.returns_evalAll_single ?_
      rw [eval]
      exact returns_name rfl (by simp [tools.exception, builtin?])
    exact run_classDef (Expr.returns_evalAll_single (returns_dataclass tools)) derives
      (kept_recordNames takes) apart shown makes (decorated false)
  · rw [if_neg exception] at makes
    rw [if_neg exception, if_neg exception]
    have keyword : Returns m (evalKeywords h { home := id } [("frozen", .literal (.bool true))])
        [("frozen", .value (.bool true))] := returns_pure _
    have decorates : Returns m (eval h { home := id } Declaration.frozenRecord)
        (.decorator true) := by
      rw [Declaration.frozenRecord, eval]
      refine (returns_dataclass tools).bind (Returns.bind (returns_pure []) ?_)
      exact keyword.bind (returns_pure _)
    exact run_classDef (Expr.returns_evalAll_single decorates) (returns_pure [])
      (kept_recordNames takes) apart shown makes (decorated true)

end

/-! ### Classes of enums -/

theorem isPrefixOf_eq_false {name : String} (plain : name.toList.head? ≠ some '_')
    (rest : List Char) : ('_' :: rest).isPrefixOf name.toList = false := by
  cases chars : name.toList with
  | nil => rfl
  | cons c others =>
    have differs : ('_' == c) = false := by
      rw [beq_eq_false_iff_ne]
      rintro rfl
      simp [chars] at plain
    simp [List.isPrefixOf, differs]

/-- Names that begin with no underscore are not special in an enum class. -/
theorem bind_member {t : EnumType} {name : String} {n : Int} (plain : name.toList.head? ≠ some '_')
    (fresh : name ∉ t.members.map (·.1)) :
    t.bind name (.value (.int n)) = .ok { t with members := t.members ++ [(name, n)] } := by
  have unmarked := isPrefixOf_eq_false plain
  have ownName : isPrivateTo t.name name = false := by
    simp [isPrivateTo, Text.hasStart, unmarked]
  have single : isBetween "_" name = false := by simp [isBetween, unmarked]
  have double : isBetween "__" name = false := by simp [isBetween, unmarked]
  have new : (t.members.any fun m => m.1 == name) = false := by
    rw [List.any_eq_false]
    intro m known
    rw [beq_iff_eq]
    rintro rfl
    exact fresh (List.mem_map_of_mem known)
  simp [EnumType.bind, ownName, single, double, new]

theorem foldlM_bind {members : List (String × Int)} {t : EnumType}
    (plain : ∀ m ∈ members, m.1.toList.head? ≠ some '_')
    (apart : ((t.members ++ members).map (·.1)).Nodup) :
    (members.map fun m => (m.1, Object.value (.int m.2))).foldlM
        (fun t binding => t.bind binding.1 binding.2) t =
      .ok { t with members := t.members ++ members } := by
  induction members generalizing t with
  | nil => simp [pure, Except.pure]
  | cons m rest ih =>
    obtain ⟨plainHere, plainLater⟩ := List.forall_mem_cons.mp plain
    have fresh : m.1 ∉ t.members.map (·.1) := by
      rw [List.map_append, List.map_cons] at apart
      exact fun known => (List.nodup_append.mp apart).2.2 _ known _ (List.mem_cons_self ..) rfl
    rw [List.map_cons, List.foldlM_cons, bind_member plainHere fresh]
    refine (ih (t := { t with members := t.members ++ [m] }) plainLater ?_).trans ?_
    · simpa using apart
    · simp

/-- The members of an enum have names that differ and mean nothing else in a class. -/
structure TakesMembers (members : List (String × Int)) : Prop where
  apart : (members.map (·.1)).Nodup
  plain : ∀ m ∈ members, m.1.toList.head? ≠ some '_'
  allowed : ∀ m ∈ members, m.1 ≠ "mro"

/-- The module has what enum classes are made with. -/
def Machine.HasEnumTools (m : Machine) (id : Nat) : Prop :=
  ∃ library, (m.names id).get? "enum" = some (.module library) ∧
    (m.modules.getD library default).attribute? "IntEnum" = some (.native .intEnum)

def memberNames (members : List (String × Int)) : List BodyName :=
  members.map fun m => { name := m.1, value := .int m.2 }

section
variable {members : List (String × Int)} {className : String} (takes : TakesMembers members)
include takes

theorem not_mem_memberNames {name : String} (marked : name.toList.head? = some '_') :
    name ∉ (memberNames members).map (·.name) := by
  rw [memberNames, List.map_map]
  intro member
  obtain ⟨m, known, rfl⟩ := List.mem_map.mp member
  exact takes.plain m known marked

theorem makeClass_members (isClassVar : String → Bool) :
    makeClass isClassVar [.native .intEnum] (bodyFrame className (memberNames members)) =
      .ok (.enum { name := className, members }) := by
  have unfixed : (fixedNames.any fun name =>
      ((bodyFrame className (memberNames members)).get? name).isSome) = false := by
    rw [List.any_eq_false]
    intro name fixed
    have marked : name.toList.head? = some '_' := by
      revert name
      decide
    simp [get?_bodyFrame (not_mem_memberNames takes marked)]
  have bindings : (bodyFrame className (memberNames members)).bindings =
      members.map fun m => (m.1, .value (.int m.2)) := by
    simp [bodyFrame, memberNames, Function.comp_def]
  have bound := foldlM_bind (t := { name := className, members := [] }) takes.plain takes.apart
  have unreserved : (members.any fun m => m.1 == "mro") = false := by
    rw [List.any_eq_false]
    exact fun m known => by simpa using takes.allowed m known
  have ofFrame : EnumType.ofFrame (bodyFrame className (memberNames members)) =
      .ok { name := className, members } := by
    rw [EnumType.ofFrame, bindings]
    simp only [bodyFrame, bound]
    simp [bind, Except.bind, unreserved, pure, Except.pure]
  simp only [makeClass, unfixed, ofFrame]
  rfl

end

/-- Running the declaration of an enum binds the class that `class?` gives. -/
theorem run_enumeration {members : List (String × Int)} (tools : m.HasEnumTools id)
    (takes : TakesMembers (members.map fun m => (Name.sanitize m.1, m.2))) {name : String}
    {cls : Object}
    (made : (Declaration.enumeration output declared members).class? = some (name, cls)) :
    (runAll h { home := id }
        ((Declaration.enumeration output declared members).statements home)).run m =
      (.ok { home := id }, m.bound id name cls) := by
  cases made
  obtain ⟨library, found, exports⟩ := tools
  have base : Returns m (eval h { home := id } (.attr (.name "enum") "IntEnum"))
      (.native .intEnum) := by
    rw [eval, eval]
    exact Returns.bind (returns_name rfl (by simp [found])) (returns_attributeOf_module exports)
  have statements : (members.map fun m => .assign [.name (Name.sanitize m.1)] (.literal (.int m.2)) :
      List Statement) = (memberNames (members.map fun m => (Name.sanitize m.1, m.2))).map
        BodyName.statement := by
    rw [memberNames, List.map_map, List.map_map]
    rfl
  have kept : ∀ b ∈ memberNames (members.map fun m => (Name.sanitize m.1, m.2)),
      privateName (Name.className output) b.name = b.name :=
    List.forall_mem_map.mpr fun m known =>
      if_neg (by simp [Text.hasStart, isPrefixOf_eq_false (takes.plain m known)])
  have apart : ((memberNames (members.map fun m => (Name.sanitize m.1, m.2))).map
      (·.name)).Nodup := by
    rw [memberNames, List.map_map]
    exact takes.apart
  rw [Declaration.statements, statements]
  exact run_classDef (returns_pure []) (Expr.returns_evalAll_single base) kept apart
    (not_mem_memberNames takes (by decide)) (makeClass_members takes _) (returns_pure _)

end

end Run

/-! ### Modules of a program -/

/-- The module with a number has what it takes to make the class of a declaration, whose names mean
    nothing else there. -/
def Declaration.IsMadeIn (m : Machine) (id : Nat) (home : String) : Declaration → Prop
  | record output _ _ attributes =>
    m.HasRecordTools id ∧ m.Takes id home (Name.className output) attributes
  | enumeration _ _ members =>
    m.HasEnumTools id ∧ TakesMembers (members.map fun m => (Name.sanitize m.1, m.2))
  | _ => False

/-- Running the only declaration of a module binds its class. -/
theorem Output.run_body {h : Hooks} {m : Machine} {id : Nat} {name : String} {cls : Object}
    {o : Output} (only : o.classes = [(name, cls)])
    (ready : ∀ d ∈ o.body, d.IsMadeIn m id o.home) :
    (runAll h { home := id } (o.body.flatMap (Declaration.statements o.home))).run m =
      (.ok { home := id }, m.bound id name cls) := by
  have makes (d : Declaration) (member : d ∈ o.body) : ∃ made, d.class? = some made := by
    have here := ready d member
    cases d with
    | record | enumeration => exact ⟨_, rfl⟩
    | _ => cases here
  obtain ⟨d, single, made⟩ : ∃ d, o.body = [d] ∧ d.class? = some (name, cls) := by
    rw [Output.classes] at only
    cases body : o.body with
    | nil =>
      rw [body] at only
      cases only
    | cons d rest =>
      rw [body] at only makes
      obtain ⟨made, isMade⟩ := makes d (List.mem_cons_self ..)
      rw [List.filterMap_cons_some isMade] at only
      obtain ⟨rfl, none⟩ := List.cons.inj only
      rw [List.filterMap_eq_nil_iff] at none
      have last : rest = [] := by
        refine List.eq_nil_iff_forall_not_mem.mpr fun other member => ?_
        obtain ⟨made, isMade⟩ := makes other (List.mem_cons_of_mem _ member)
        cases (none other member).symm.trans isMade
      exact ⟨d, by rw [last], isMade⟩
  rw [single] at ready ⊢
  rw [List.flatMap_singleton]
  have here := ready d (List.mem_singleton_self d)
  cases d with
  | record output kind declared attributes => exact run_record here.1 here.2 made
  | enumeration output declared members => exact run_enumeration here.1 here.2 made
  | _ => cases here

namespace Stream.IsProgram

variable {g : Group} {raw streams : Streams} {l : Linking} {cls : Ref}

/-- The class that a reference to a record or an enum finds in the linked program is the one that
    running the module at its path binds. -/
theorem class_is_made (program : IsProgram g raw streams)
    (linked : l.program = Program.ofStreams streams) {name : String}
    (declared : (∃ r ∈ g.records, r.name = name) ∨ ∃ e ∈ g.enums, e.name = name)
    (names : g.classRef name = .ok cls) {o : Object} (found : l.object cls = .ok o)
    (isClass : (∃ t, o = .record t) ∨ ∃ t, o = .enum t) :
    ∃ named ∈ streams.main, named.2.home = cls.module ∧ ∀ h m id,
      (∀ d ∈ named.2.body, d.IsMadeIn m id named.2.home) →
        (runAll h { home := id }
            (named.2.body.flatMap (Declaration.statements named.2.home))).run m =
          (.ok { home := id }, m.bound id cls.attr o) := by
  obtain ⟨named, member, home, own, classes⟩ := program.main_of_class declared names
  have inClasses := program.mem_classes_of_object linked member home found isClass
  rw [classes, List.mem_singleton] at inClasses
  cases inClasses
  exact ⟨named, member, home, fun h m id ready => Output.run_body classes ready⟩

end Stream.IsProgram
end IdlGen
