import IdlGen.Proofs.Literals
import IdlGen.Proofs.Sessions
import IdlGen.Run.Program

/-!
Literals in running modules: if references find the classes of the group where a module runs, a
literal evaluates to a value of the annotation of its type (`literal_evaluates_as_annotated`).
-/
namespace IdlGen

open Run Outcome

variable {g : Group} {fuel : Nat} {module : String} {s : Schema}

/-- Where references find the classes of a group, a literal of a type of data evaluates without a
    fault and without effects, to a value in the representation of its annotation, with hashable set
    elements and keys and the content of the literal. -/
theorem literal_evaluates_as_annotated {g : Group} (attributes : g.AttributesApart)
    {s : Surroundings} (finds : s.FindsClasses g) {type : FieldType} {v : Value}
    (data : g.ReachesData type) (typed : WellTyped g type v) :
    ∃ hint e w, (g.hint type false).outcome = .ok hint ∧
      g.literalExpr v (some type) false = .ok e ∧ e.meaning s = .ok (.value w) ∧
      (∀ h scope home m, Expr.Agree s (m.around scope home) e.nodes →
        ShowsBuiltins (m.around scope home) →
          (eval h scope (e.term home)).run m = (.ok (.value w), m)) ∧
      Represents g s hint w ∧ w.KeysHashed ∧ Denotes g type v w := by
  obtain ⟨hint, hinted⟩ := finds.hint_exists data false
  obtain ⟨e, w, written, means, represents, denotes⟩ :=
    typed.evaluates finds attributes data (fun impossible => by cases impossible) hinted
  refine ⟨hint, e, w, hinted, written, means, ?_, represents, ?_, denotes⟩
  · exact fun h scope home m agree shows => returns_of_meaning means agree shows
  · exact finds.laidOut.keysHashed ⟨data, _, hint, hinted, represents⟩

/-! ### What is found, computed -/

theorem exists_of_any_toOption {ε α : Type} {outcome : Except ε α} {test : α → Bool}
    (passed : outcome.toOption.any test) : ∃ a, outcome = .ok a ∧ test a := by
  cases outcome with
  | error _ => cases passed
  | ok a => exact ⟨a, rfl, passed⟩

def Run.Running.ends {α : Type} (step : Running α) (m : Machine) (test : α → Machine → Bool) :
    Bool :=
  match step.run m with
  | (.ok a, after) => test a after
  | (.error _, _) => false

theorem Run.Running.exists_of_ends {α : Type} {step : Running α} {m : Machine}
    {test : α → Machine → Bool} (ends : step.ends m test) :
    ∃ a after, step.run m = (.ok a, after) ∧ test a after := by
  unfold Running.ends at ends
  split at ends
  · rename_i a after ran
    exact ⟨a, after, ran, ends⟩
  · cases ends

namespace Group

def isDataWithin (g : Group) : Nat → FieldType → Bool
  | 0, _ => false
  | fuel + 1, type =>
    match g.resolveType type with
    | .ok (.primitive p) => p.hint.toOption.isSome
    | .ok (.enum _) => true
    | .ok (.record _) => true
    | .ok (.list element) => g.isDataWithin fuel element
    | .ok (.set element) => g.isDataWithin fuel element
    | .ok (.map key value) => g.isDataWithin fuel key && g.isDataWithin fuel value
    | _ => false

def reached (g : Group) (type : FieldType) : List FieldType :=
  match g.resolveType type with
  | .ok (.record r) => r.fields.map (·.type)
  | .ok resolved => resolved.held
  | .error _ => []

variable {type : FieldType}

theorem dataType_of_isDataWithin (is : g.isDataWithin fuel type) : g.DataType type := by
  induction fuel generalizing type with
  | zero => cases is
  | succ fuel ih =>
    rw [isDataWithin] at is
    split at is
    · rename_i p resolves
      refine .primitive resolves ?_
      rintro name rfl
      cases is
    · rename_i resolves
      exact .enum resolves
    · rename_i resolves
      exact .record resolves
    · rename_i resolves
      exact .list resolves (ih is)
    · rename_i resolves
      exact .set resolves (ih is)
    · rename_i resolves
      obtain ⟨keys, values⟩ := Bool.and_eq_true_iff.mp is
      exact .map resolves (ih keys) (ih values)
    · cases is

theorem reachesData_of_closed {nodes : List FieldType}
    (closed : ∀ node ∈ nodes, g.isDataWithin fuel node ∧ ∀ part ∈ g.reached node, part ∈ nodes)
    (start : type ∈ nodes) : g.ReachesData type := by
  intro part below
  suffices inside : part ∈ nodes from dataType_of_isDataWithin (closed part inside).1
  induction below with
  | self => exact start
  | @held node part resolved _ resolves member ih =>
    refine (closed node ih).2 part ?_
    rw [reached, resolves]
    cases resolved with
    | record r => cases member
    | _ => exact member
  | @field node r f _ resolves member ih =>
    refine (closed node ih).2 f.type ?_
    rw [reached, resolves]
    exact List.mem_map_of_mem member

theorem resolve_of_find {name rest : String} {entity : Entity}
    (split : Name.split name = .ok (module, rest)) (schema : g.schemaNamed? module = some s)
    (found : s.find? rest = some entity) : g.resolve name = .ok entity := by
  rw [resolve, split]
  simp [bind, Except.bind, schema, found, pure, Except.pure]

theorem schemaNamed?_head {rest : List (Value × Schema)} :
    schemaNamed? { schemas := (.text module, s) :: rest } module = some s := by
  simp [schemaNamed?, schema?, Value.same, Value.equal]

theorem resolveType_record {name : String} {r : Record}
    (known : g.resolve name = .ok (.record r)) : g.resolveType (.ref name) = .ok (.record r) := by
  simp [resolveType, follow, known, bind, Except.bind, pure, Except.pure]

theorem resolveType_enum {name : String} {e : Enum} (known : g.resolve name = .ok (.enum e)) :
    g.resolveType (.ref name) = .ok (.enum e) := by
  simp [resolveType, follow, known, bind, Except.bind, pure, Except.pure]

end Group

def Record.isShownBy (r : Record) : Except Fault Object → Bool
  | .ok (.record t) =>
    t.fields.map (·.1) == r.fields.map (fun f => Name.attributeName f.name) &&
      t.fields.all (fun field => field.2.isNull) && t.cls.hashable == decide (r.kind ≠ .exception) &&
      t.required.isEmpty && t.obstacle?.isNone
  | _ => false

def Enum.isShownBy (e : Enum) : Except Fault Object → Bool
  | .ok (.enum t) => t.members == e.values.map fun m => (Name.sanitize m.1, m.2)
  | _ => false

namespace Surroundings

def showsNative (s : Surroundings) (id : String) (n : Native) : Bool :=
  match s.name id with
  | .ok (.native found) => found == n
  | _ => false

def showsClasses (s : Surroundings) (g : Group) : Bool :=
  (g.records.all fun r => (g.classRef r.name).toOption.any fun cls => r.isShownBy (s.ref cls)) &&
  (g.enums.all fun e => (g.classRef e.name).toOption.any fun cls => e.isShownBy (s.ref cls)) &&
  decide (g.records.map fun r => (g.classRef r.name).toOption).Nodup &&
  s.showsNative "frozenset" .frozenset

theorem name_of_showsNative {s : Surroundings} {id : String} {n : Native}
    (shown : s.showsNative id n) : s.name id = .ok (.native n) := by
  unfold showsNative at shown
  split at shown
  · rename_i found same
    rw [same, eq_of_beq shown]
  · cases shown

end Surroundings

theorem Value.eq_null_of_isNull {v : Value} (null : v.isNull) : v = .null := by
  cases v with
  | null => rfl
  | _ => cases null

variable {outcome : Except Fault Object} {s : Surroundings}

theorem Record.isFor_of_isShownBy {r : Record} (shown : r.isShownBy outcome) :
    ∃ t, outcome = .ok (.record t) ∧ t.IsFor r := by
  unfold Record.isShownBy at shown
  split at shown
  · rename_i t
    simp only [Bool.and_eq_true, beq_iff_eq, List.all_eq_true, List.isEmpty_iff,
      Option.isNone_iff_eq_none] at shown
    obtain ⟨⟨⟨⟨names, absent⟩, hashable⟩, required⟩, unobstructed⟩ := shown
    have plain : t.fields = t.fields.map fun field => (field.1, .null) := by
      refine (List.map_id t.fields).symm.trans (List.map_congr_left fun field member => ?_)
      exact Prod.ext rfl (Value.eq_null_of_isNull (absent field member))
    have attributes : t.fields = (t.fields.map (·.1)).map (·, .null) := by
      rw [List.map_map]
      exact plain
    rw [names, List.map_map] at attributes
    exact ⟨t, rfl, attributes, hashable, required, unobstructed⟩
  · cases shown

theorem Enum.members_of_isShownBy {e : Enum} (shown : e.isShownBy outcome) :
    ∃ t, outcome = .ok (.enum t) ∧ t.members = e.values.map fun m => (Name.sanitize m.1, m.2) := by
  unfold Enum.isShownBy at shown
  split at shown
  · exact ⟨_, rfl, eq_of_beq shown⟩
  · cases shown

theorem Surroundings.findsClasses_of_shows (shown : s.showsClasses g) : s.FindsClasses g := by
  simp only [showsClasses, Bool.and_eq_true, List.all_eq_true, decide_eq_true_eq] at shown
  obtain ⟨⟨⟨records, enums⟩, apart⟩, frozenset⟩ := shown
  refine ⟨fun r declared => ?_, fun e declared => ?_, ?_, name_of_showsNative frozenset⟩
  · obtain ⟨cls, named, found⟩ := exists_of_any_toOption (records r declared)
    obtain ⟨t, same, isFor⟩ := Record.isFor_of_isShownBy found
    exact ⟨cls, t, named, same, isFor⟩
  · obtain ⟨cls, named, found⟩ := exists_of_any_toOption (enums e declared)
    obtain ⟨t, same, members⟩ := Enum.members_of_isShownBy found
    exact ⟨cls, t, named, same, members⟩
  · intro r declared other otherDeclared same
    exact List.inj_on_of_nodup_map apart declared otherDeclared (congrArg Except.toOption same)

def Surroundings.showsBuiltins (s : Surroundings) : Bool :=
  s.showsNative "float" .float && s.showsNative "set" .set

theorem Surroundings.builtins_of_shows (shown : s.showsBuiltins) : ShowsBuiltins s := by
  obtain ⟨float, set⟩ := Bool.and_eq_true_iff.mp shown
  exact ⟨name_of_showsNative float, name_of_showsNative set⟩

def showsAfterImport (p : Program) (path : String) (g : Group) : Bool :=
  (p.importPath path).ends {} fun id m =>
    (m.around { home := id } path).showsClasses g && (m.around { home := id } path).showsBuiltins

theorem findsClasses_of_showsAfterImport {p : Program} {path : String}
    (shown : showsAfterImport p path g) :
    ∃ id m, (p.importPath path).run {} = (.ok id, m) ∧
      (m.around { home := id } path).FindsClasses g ∧
        ShowsBuiltins (m.around { home := id } path) := by
  obtain ⟨id, m, imported, shown⟩ := Running.exists_of_ends shown
  obtain ⟨classes, builtins⟩ := Bool.and_eq_true_iff.mp shown
  exact ⟨id, m, imported, Surroundings.findsClasses_of_shows classes,
    Surroundings.builtins_of_shows builtins⟩

def sizeEnum : Enum where
  name := "shop.Size"
  values := [("SMALL", 1), ("LARGE", 2)]

def keyRecord : Record where
  kind := .struct
  name := "shop.Key"
  fields := [
    { name := .text "size", type := .ref "shop.Size" },
    { name := .text "weight", type := .primitive .double }]

def itemRecord : Record where
  kind := .struct
  name := "shop.Item"
  fields := [
    { name := .text "class", type := .primitive .i32 },
    { name := .text "tags", type := .list (.primitive .string) }]

def keysTypedef : Typedef where
  name := "shop.Keys"
  type := .set (.list (.ref "shop.Key"))

def catalogType : FieldType := .map (.ref "shop.Keys") (.set (.ref "shop.Item"))

def catalogLiteral : Value :=
  .dict [(.list [.list [.dict [(.text "size", .int 1), (.text "weight", .int 3)]]],
    .set [.dict [(.text "class", .int 5), (.text "tags", .null)]])]

def catalogSchema : Schema where
  module := .text "shop"
  typedefs := [("Keys", keysTypedef)]
  enums := [("Size", sizeEnum)]
  constants := [("ITEMS", { name := "shop.ITEMS", type := catalogType, value := catalogLiteral })]
  structs := [("Key", keyRecord), ("Item", itemRecord)]

def catalogGroup : Group where
  schemas := [(.text "shop", catalogSchema)]

theorem catalog_resolves :
    catalogGroup.resolveType (.ref "shop.Size") = .ok (.enum sizeEnum) ∧
      catalogGroup.resolveType (.ref "shop.Key") = .ok (.record keyRecord) ∧
      catalogGroup.resolveType (.ref "shop.Item") = .ok (.record itemRecord) ∧
      catalogGroup.resolveType (.ref "shop.Keys") = .ok (.set (.list (.ref "shop.Key"))) := by
  have schema : catalogGroup.schemaNamed? "shop" = some catalogSchema :=
    Group.schemaNamed?_head
  have keys : catalogGroup.resolve "shop.Keys" = .ok (.typedef keysTypedef) :=
    Group.resolve_of_find rfl schema rfl
  refine ⟨Group.resolveType_enum (Group.resolve_of_find rfl schema rfl),
    Group.resolveType_record (Group.resolve_of_find rfl schema rfl),
    Group.resolveType_record (Group.resolve_of_find rfl schema rfl), ?_⟩
  simp [Group.resolveType, Group.follow, keys, keysTypedef, bind, Except.bind]

theorem catalog_wellTyped : WellTyped catalogGroup catalogType catalogLiteral := by
  obtain ⟨size, key, item, keys⟩ := catalog_resolves
  have keyTyped : WellTyped catalogGroup (.ref "shop.Key")
      (.dict [(.text "size", .int 1), (.text "weight", .int 3)]) := by
    refine .record key (by simp) (by simp [keyRecord]) ?_
    suffices WellTyped catalogGroup (.ref "shop.Size") (.int 1) ∧
        WellTyped catalogGroup (.primitive .double) (.int 3) by simpa [keyRecord]
    exact ⟨.enum size (by decide), .scalar rfl rfl⟩
  have itemTyped : WellTyped catalogGroup (.ref "shop.Item")
      (.dict [(.text "class", .int 5), (.text "tags", .null)]) := by
    refine .record item (by simp) (by simp [itemRecord]) ?_
    suffices WellTyped catalogGroup (.primitive .i32) (.int 5) by simpa [itemRecord]
    exact .scalar rfl rfl
  refine .map rfl (List.forall_mem_singleton.mpr ?_) (List.forall_mem_singleton.mpr ?_)
  · refine .set keys rfl (List.forall_mem_singleton.mpr ?_)
    exact .list rfl rfl (List.forall_mem_singleton.mpr keyTyped)
  · exact .set rfl rfl (List.forall_mem_singleton.mpr itemTyped)

def catalogNodes : List FieldType :=
  [catalogType, .ref "shop.Keys", .list (.ref "shop.Key"), .ref "shop.Key", .ref "shop.Size",
    .primitive .double, .set (.ref "shop.Item"), .ref "shop.Item", .primitive .i32,
    .list (.primitive .string), .primitive .string]

theorem catalog_literal_evaluates :
    ∃ streams, Stream.resolved catalogGroup = .ok streams ∧
      ∃ id m, ((Program.ofStreams streams).importPath "shop").run {} = (.ok id, m) ∧
      ∃ hint e w, (catalogGroup.hint catalogType false).outcome = .ok hint ∧
        catalogGroup.literalExpr catalogLiteral (some catalogType) false = .ok e ∧
        (∀ h, (eval h { home := id } (e.term "shop")).run m = (.ok (.value w), m)) ∧
        Represents catalogGroup (m.around { home := id } "shop") hint w ∧ w.KeysHashed ∧
        Denotes catalogGroup catalogType catalogLiteral w := by
  have shown : (Stream.resolved catalogGroup).toOption.any fun streams =>
      showsAfterImport (Program.ofStreams streams) "shop" catalogGroup := by
    decide +kernel
  have closed : ∀ node ∈ catalogNodes, catalogGroup.isDataWithin 4 node ∧
      ∀ part ∈ catalogGroup.reached node, part ∈ catalogNodes := by
    decide +kernel
  have attributes : catalogGroup.AttributesApart := by
    unfold Group.AttributesApart
    decide +kernel
  obtain ⟨streams, resolved, shown⟩ := exists_of_any_toOption shown
  obtain ⟨id, m, imported, finds, shows⟩ := findsClasses_of_showsAfterImport shown
  obtain ⟨hint, e, w, hinted, written, -, runs, represents, keys, denotes⟩ :=
    literal_evaluates_as_annotated attributes finds
      (Group.reachesData_of_closed closed (List.mem_cons_self ..)) catalog_wellTyped
  exact ⟨streams, resolved, id, m, imported, hint, e, w, hinted, written,
    fun h => runs h _ _ m ⟨fun _ _ => rfl, fun _ _ => rfl⟩ shows, represents, keys, denotes⟩

def tintEnum : Enum where
  name := "paint.Color"
  values := [("RED", 1), ("GREEN", 2)]

def tintSchema : Schema where
  module := .text "paint"
  scope := .text "art"
  enums := [("Color", tintEnum)]
  constants := [("MAIN", { name := "paint.MAIN", type := .ref "paint.Color", value := .int 1 })]

/-- An enum and a constant of it, and another module of the namespace with a constant that is
    written to the module of the enum, under the name of its class. -/
def tintGroup : Group where
  schemas := [(.text "paint", tintSchema),
    (.text "color", {
      module := .text "color", scope := .text "art"
      constants := [("Color", {
        name := "color.Color", type := .list (.list (.primitive .i32))
        value := .list [.list [.int 1], .list [.int 2]] })] })]

/-- The group is accepted and all its names differ, and the constant of the enum is a literal of
    its type. But its module has the other constant where the literal looks for the class, so the
    literal does not evaluate. -/
theorem shadowed_literal_fails :
    ((Session.generate tintGroup ["a", "b"] false).run { working := "/" }).1.toOption.isSome ∧
    (∀ e ∈ tintGroup.enums, ∀ entry ∈ tintGroup.schemas, ∀ c ∈ entry.2.constants.values,
      e.name ≠ c.name) ∧
    tintGroup.AttributesApart ∧ tintGroup.ReachesData (.ref "paint.Color") ∧
    WellTyped tintGroup (.ref "paint.Color") (.int 1) ∧
    ∃ streams, Stream.resolved tintGroup = .ok streams ∧
      ∃ fault, (((Program.ofStreams streams).annotatedValues "Art.Paint").run {}).1 =
        .error fault := by
  obtain ⟨accepted, fails⟩ : ((Session.generate tintGroup ["a", "b"] false).run
        { working := "/" }).1.toOption.isSome ∧
      (Stream.resolved tintGroup).toOption.any fun streams =>
        (((Program.ofStreams streams).annotatedValues "Art.Paint").run {}).1.toOption.isNone := by
    decide +kernel
  have apart : ∀ e ∈ tintGroup.enums, ∀ entry ∈ tintGroup.schemas,
      ∀ c ∈ entry.2.constants.values, e.name ≠ c.name := by
    decide
  have closed : ∀ node ∈ [FieldType.ref "paint.Color"], tintGroup.isDataWithin 1 node ∧
      ∀ part ∈ tintGroup.reached node, part ∈ [FieldType.ref "paint.Color"] := by
    decide +kernel
  have typed : tintGroup.resolveType (.ref "paint.Color") = .ok (.enum tintEnum) :=
    Group.resolveType_enum (Group.resolve_of_find rfl Group.schemaNamed?_head rfl)
  obtain ⟨streams, resolved, failed⟩ := exists_of_any_toOption fails
  have attributes : tintGroup.AttributesApart := fun r none => by cases none
  exact ⟨accepted, apart, attributes, Group.reachesData_of_closed closed (List.mem_cons_self ..),
    .enum typed (by decide), streams, resolved, isNone_toOption.mp failed⟩

end IdlGen
