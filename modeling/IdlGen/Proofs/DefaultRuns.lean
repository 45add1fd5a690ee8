import IdlGen.Proofs.LoadedPrograms

/-!
Declared defaults in the programs of accepted groups. Wherever companions are served, values are
given the defaults that the schema says (`apply_defaults_follows_schema`).
-/
namespace IdlGen

open Run Outcome

variable {e : Expr} {f : Field} {raw streams : Streams}

namespace Group

variable {g : Group} {type : FieldType}

theorem known_of_draw {p : Primitive} (drawn : p.draw = .ok e) (name : String) :
    p ≠ .other name := by
  rintro rfl
  cases drawn

theorem dataType_of_drawWithin {fuel : Nat} {frozen : Bool}
    (drawn : g.drawWithin fuel type frozen = .ok e) : g.DataType type := by
  induction fuel generalizing type frozen e with
  | zero => cases drawn
  | succ fuel ih =>
    rw [drawWithin_succ] at drawn
    obtain ⟨resolved, resolves, drawn⟩ := bind_eq_ok.mp drawn
    cases resolved with
    | primitive p => exact .primitive resolves (known_of_draw drawn)
    | enum _ => exact .enum resolves
    | record _ => exact .record resolves
    | list element =>
      obtain ⟨inner, known, -⟩ := bind_eq_ok.mp drawn
      exact .list resolves (ih known)
    | set element =>
      obtain ⟨hashes, -, drawn⟩ := bind_eq_ok.mp drawn
      obtain ⟨inner, known, -⟩ := bind_eq_ok.mp drawn
      exact .set resolves (ih known)
    | map key value =>
      obtain ⟨hashes, -, drawn⟩ := bind_eq_ok.mp drawn
      obtain ⟨keys, keyKnown, drawn⟩ := bind_eq_ok.mp drawn
      obtain ⟨values, valueKnown, -⟩ := bind_eq_ok.mp drawn
      exact .map resolves (ih keyKnown) (ih valueKnown)
    | constant _ => cases drawn
    | service _ => cases drawn

theorem DataType.held {resolved : Resolved} {part : FieldType} (data : g.DataType type)
    (resolves : g.resolveType type = .ok resolved) (member : part ∈ resolved.held) :
    g.DataType part := by
  cases data with
  | primitive is _ | enum is | record is =>
    cases resolves.symm.trans is
    cases member
  | list is inner | set is inner =>
    cases resolves.symm.trans is
    cases List.mem_singleton.mp member
    exact inner
  | map is keys values =>
    cases resolves.symm.trans is
    rcases List.mem_cons.mp member with rfl | later
    · exact keys
    · cases List.mem_singleton.mp later
      exact values

theorem reachesData_of_fields (fields : ∀ r ∈ g.records, ∀ f ∈ r.fields, g.DataType f.type)
    (data : g.DataType type) : g.ReachesData type := by
  intro part reached
  induction reached with
  | self => exact data
  | held _ resolves member ih => exact ih.held resolves member
  | field _ resolves member _ =>
    exact fields _ (declared_of_resolveType resolves) _ member

end Group

theorem Companion.draw_of_generator {g : Group} {kind : String} {constructor : Expr}
    {fields : List Field} (made : generator g kind constructor fields = .ok e)
    (member : f ∈ fields) : ∃ drawn, g.draw f.type false = .ok drawn := by
  have some : fields.isEmpty = false := by
    simpa using List.ne_nil_of_mem member
  rw [generator, some] at made
  by_cases union : kind = "union"
  · simp only [union, if_true] at made
    obtain ⟨options, drawn, -⟩ := bind_eq_ok.mp made
    obtain ⟨option, -, made⟩ := exists_of_mapM drawn member
    obtain ⟨strategy, known, -⟩ := bind_eq_ok.mp made
    exact ⟨strategy, known⟩
  · simp only [union, if_false] at made
    obtain ⟨exprs, drawn, -⟩ := bind_eq_ok.mp made
    obtain ⟨expr, -, made⟩ := exists_of_mapM drawn member
    obtain ⟨strategy, known, -⟩ := bind_eq_ok.mp made
    obtain ⟨plain, known, -⟩ := bind_eq_ok.mp known
    exact ⟨plain, known⟩

/-- The fields of the records of an accepted group are of data, and so is all that they reach. -/
theorem IsProgram.reachesData {g : Group} (program : IsProgram g raw streams) :
    ∀ r ∈ g.records, ∀ f ∈ r.fields, g.ReachesData f.type := by
  have fields : ∀ r ∈ g.records, ∀ f ∈ r.fields, g.DataType f.type := by
    intro r declared f member
    obtain ⟨entry, inGroup, inSchema⟩ := List.mem_flatMap.mp declared
    obtain ⟨emission, made, -⟩ :=
      Stream.exists_companion program.generated inGroup (.record inSchema rfl)
    obtain ⟨output, outputKnown, -⟩ := Stream.companionEmission_eq_ok made
    obtain ⟨_, -, -, module, cls, strategy, -, -, -, -, drawn, -⟩ :=
      program.companion_of_output declared outputKnown
    obtain ⟨e, drawn⟩ := Companion.draw_of_generator drawn member
    rw [Group.draw_seenFrom] at drawn
    exact Group.dataType_of_drawWithin drawn
  exact fun r declared f member => Group.reachesData_of_fields fields (fields r declared f member)

/-- What the declared default of a field evaluates to. -/
def Group.evaluatedDefault (g : Group) (s : Surroundings) (f : Field) : Value :=
  match Companion.declaredDefault g f >>= Expr.meaning s with
  | .ok o => o.toValue
  | .error _ => .null

section
variable {g : Group} {s : Surroundings}

theorem evaluatedDefault_eq (finds : s.FindsClasses g) (attributes : g.AttributesApart)
    (data : g.ReachesData f.type) (typed : WellTyped g f.type f.default) :
    ∃ e hint, Companion.declaredDefault g f = .ok e ∧
      e.meaning s = .ok (.value (g.evaluatedDefault s f)) ∧
      Represents g s hint (g.evaluatedDefault s f) ∧
      Denotes g f.type f.default (g.evaluatedDefault s f) := by
  obtain ⟨hint, hinted⟩ := finds.hint_exists data false
  obtain ⟨e, w, written, means, represents, denotes⟩ :=
    typed.evaluates finds attributes data (fun impossible => by cases impossible) hinted
  have same : g.evaluatedDefault s f = w := by
    simp only [Group.evaluatedDefault, Companion.declaredDefault, written, bind, Except.bind, means]
    rfl
  rw [same]
  exact ⟨e, hint, written, means, represents, denotes⟩

theorem Represents.built (finds : s.FindsClasses g)
    (data : ∀ r ∈ g.records, ∀ f ∈ r.fields, g.ReachesData f.type)
    {allows : RecordClass → List String → Prop}
    (classes : ∀ r ∈ g.records, ∀ cls t, g.classRef r.name = .ok cls → s.ref cls = .ok (.record t) →
      allows t.cls (t.fields.map (·.1)))
    {hint : TypeHint} {v : Value} (represents : Represents g s hint v) : v.Built allows := by
  have leaf {v : Value} (form : v.HasForm allows) (none : v.parts = []) : v.Built allows :=
    .mk form fun part member => by
      rw [none] at member
      cases member
  induction represents with
  | @builtin word v kind =>
    cases v with
    | bool _ | int _ | float _ | text _ | bytes _ => exact leaf trivial rfl
    | _ => cases kind
  | list each ih | tuple each ih | set each ih | frozenset each ih => exact .mk trivial ih
  | dict keys values keysIh valuesIh =>
    refine .mk trivial fun part member => ?_
    rcases List.mem_append.mp member with inKeys | inValues
    · obtain ⟨entry, known, rfl⟩ := List.mem_map.mp inKeys
      exact keysIh entry known
    · obtain ⟨entry, known, rfl⟩ := List.mem_map.mp inValues
      exact valuesIh entry known
  | pair first second firstIh secondIh =>
    refine .mk trivial fun part member => ?_
    rcases List.mem_cons.mp member with rfl | later
    · exact firstIh
    · cases List.mem_singleton.mp later
      exact secondIh
  | member found known => exact leaf trivial rfl
  | @record cls t r fields declared named found names each ih =>
    obtain ⟨cls', t', named', found', isFor⟩ := finds.record r declared
    cases named.symm.trans named'
    cases found.symm.trans found'
    have form : allows t.cls (fields.map (·.1)) := by
      rw [names]
      exact classes r declared cls t named found
    refine .mk form fun part member => ?_
    obtain ⟨field, inFields, rfl⟩ := List.mem_map.mp member
    by_cases absent : field.2 = .null
    · rw [absent]
      exact leaf trivial rfl
    · obtain ⟨f, known, same⟩ :=
        isFor.field_of_name (names ▸ List.mem_map_of_mem inFields : field.1 ∈ _)
      obtain ⟨hint, hinted⟩ := finds.hint_exists (data r declared f known) false
      exact ih field inFields absent f known same hint hinted

end

theorem Record.mem_fillable {r : Record} (fills : f ∈ r.fillable) : f ∈ r.fields ∧ f.declares := by
  unfold fillable at fills
  split at fills
  · have first : r.fields.find? Field.declares = some f := Option.mem_toList.mp fills
    exact ⟨List.mem_of_find?_eq_some first, List.find?_some first⟩
  · exact List.mem_filter.mp fills

theorem data_of_isData {v : Value} (isData : v.isData) : (Object.value v).data = .ok v := by
  simp [Object.data, Object.toValue, isData]

namespace Run.Program

variable {g : Group} {s : Surroundings} {m : Machine}

variable {default : Field → Value} {v : Value}

section
variable {p : Program} (holds : p.HoldsCompanions g) (attributes : g.AttributesApart)
  (evaluates : ∀ r ∈ g.records, ∀ f ∈ r.fields, f.declares →
    Companion.DefaultMeans g s f (default f))
  (defaults : ∀ output r, g.recordOf? output = some r → ∀ f ∈ r.fillable,
    (default f).Built fun _ _ => True)

include defaults in
theorem bind_data (built : v.Built g.Instance) :
    (Object.value <$> g.defaulted default v) >>= Object.data = g.defaulted default v := by
  cases done : g.defaulted default v with
  | error fault => rfl
  | ok w =>
    exact data_of_isData (Group.built_defaulted (fun _ _ _ => trivial) defaults built done).isData

variable (serves : p.Serves g s m)
include holds attributes evaluates defaults serves

theorem run_applyDefaults (c : Context) (built : v.Built g.Instance) :
    ∃ after, (p.applyDefaults c v).run m = (g.defaulted default v, after) ∧
      p.Imports g m after := by
  have enough : p.importable + 2 * v.height + 2 ≤ p.fuelFor v := by
    simp only [fuelFor]
    omega
  have gives := (gives_applyDefaults (c := .context c) holds attributes evaluates built enough
    serves).bind fun o _ => gives_of o.data
  rw [bind_data defaults built] at gives
  exact gives m (.refl m)

theorem run_companionDefaults {cls : RecordClass} {fields : List (String × Value)}
    (named : companionPath cls.name ≠ "")
    (absolute : Text.hasStart "." (companionPath cls.name) = false) (c : Context)
    (built : (Value.record cls fields).Built g.Instance) :
    ∃ after, (p.companionDefaults cls.name c (pure (.record cls fields))).run m =
        (g.defaulted default (.record cls fields), after) ∧ p.Imports g m after := by
  obtain ⟨-, r, known, names⟩ := built.form
  obtain ⟨fuel, enough⟩ : ∃ fuel, p.fuelFor (.record cls fields) = fuel + 1 := ⟨_, rfl⟩
  obtain ⟨id, after, function, ran, imports, has, gives⟩ :=
    exists_function holds attributes evaluates (c := .context c) (p.fuelFor .null) fuel serves known
      names (by simp only [fuelFor]; omega) fun field member => by
        have inParts : field.2 ∈ (Value.record cls fields).parts := List.mem_map_of_mem member
        have lower := Value.height_part inParts
        refine gives_applyDefaults holds attributes evaluates (built.part inParts) ?_ serves
        simp only [fuelFor] at enough
        omega
  have applied := gives.bind fun o _ => gives_of o.data
  rw [bind_data defaults built] at applied
  obtain ⟨last, called, others⟩ := applied after (.refl after)
  refine ⟨last, ?_, imports.trans others⟩
  have required : p.importPath (companionPath cls.name) =
      (p.hooks (p.fuelFor .null)).require (companionPath cls.name) := by
    simp [importPath, named, absolute, plainHooks]
  have found : (p.companionFunction cls.name "apply_defaults").run m = (.ok function, after) := by
    rw [companionFunction, required, run_bind, ran]
    exact has
  rw [← enough] at called
  rw [companionDefaults, run_bind, found]
  exact called

end

end Run.Program

section
variable {g : Group} {s : Surroundings} {m : Machine}

section
variable (program : IsProgram g raw streams) (attributes : g.AttributesApart)
  (typed : ∀ r ∈ g.records, ∀ f ∈ r.fields, f.declares → WellTyped g f.type f.default)
include program attributes typed

theorem IsProgram.built_default (finds : s.FindsClasses g)
    {allows : RecordClass → List String → Prop}
    (classes : ∀ r ∈ g.records, ∀ cls t, g.classRef r.name = .ok cls → s.ref cls = .ok (.record t) →
      allows t.cls (t.fields.map (·.1))) :
    ∀ output r, g.recordOf? output = some r → ∀ f ∈ r.fillable,
      (g.evaluatedDefault s f).Built allows := by
  intro output r known f fills
  obtain ⟨declared, -⟩ := Group.recordOf?_eq_some known
  obtain ⟨member, declares⟩ := Record.mem_fillable fills
  obtain ⟨-, hint, -, -, represents, -⟩ := evaluatedDefault_eq finds attributes
    (program.reachesData r declared f member) (typed r declared f member declares)
  exact represents.built finds program.reachesData classes

end
end

def homeRecord : Record where
  kind := .struct
  name := "post.Home"
  fields := [
    { name := .text "city", type := .primitive .string },
    { name := .text "level", type := .primitive .i32, default := .int 3 },
    { name := .text "safe", type := .primitive .bool, default := .bool true }]

def lineRecord : Record where
  kind := .union
  name := "post.Line"
  fields := [
    { name := .text "mail", type := .primitive .string },
    { name := .text "call", type := .primitive .string, default := .text "none" }]

def orderRecord : Record where
  kind := .struct
  name := "post.Order"
  fields := [
    { name := .text "home", type := .ref "post.Home" },
    { name := .text "lines", type := .list (.ref "post.Line") },
    { name := .text "spare", type := .ref "post.Home"
      default := .dict [(.text "city", .text "Oslo")] }]

def shippingSchema : Schema where
  module := .text "post"
  structs := [("Home", homeRecord), ("Order", orderRecord)]
  unions := [("Line", lineRecord)]

def shippingGroup : Group where
  schemas := [(.text "post", shippingSchema)]

/-- The group is accepted, and its companions are offered once its classes are imported. -/
theorem shipping_checked :
    ((Session.generate shippingGroup ["", ""] false).run { working := "/" }).1.toOption.isSome ∧
      (Stream.resolved shippingGroup).toOption.any fun streams =>
        (Program.ofStreams streams).offersLoaded shippingGroup
          ((Program.ofStreams streams).afterImports ["Home", "Line", "Order"]) := by
  decide +kernel

theorem shipping_accepted : ∃ written,
    ((Session.generate shippingGroup ["", ""] false).run { working := "/" }).1 = .ok written :=
  isSome_toOption.mp shipping_checked.1

theorem shipping_attributesApart : shippingGroup.AttributesApart := by
  unfold Group.AttributesApart
  decide +kernel

theorem shipping_wellTyped : ∀ r ∈ shippingGroup.records, ∀ f ∈ r.fields, f.declares →
    WellTyped shippingGroup f.type f.default := by
  have resolves : shippingGroup.resolveType (.ref "post.Home") = .ok (.record homeRecord) :=
    Group.resolveType_record (Group.resolve_of_find rfl Group.schemaNamed?_head rfl)
  have spare : WellTyped shippingGroup (.ref "post.Home")
      (.dict [(.text "city", .text "Oslo")]) := by
    refine .record resolves (by simp) (by simp [homeRecord]) ?_
    suffices WellTyped shippingGroup (.primitive .string) (.text "Oslo") by simpa [homeRecord]
    exact .scalar rfl rfl
  have records : shippingGroup.records = [homeRecord, orderRecord, lineRecord] := rfl
  suffices WellTyped shippingGroup (.primitive .i32) (.int 3) ∧
      WellTyped shippingGroup (.primitive .bool) (.bool true) ∧
      WellTyped shippingGroup (.primitive .string) (.text "none") by
    simpa [records, homeRecord, orderRecord, lineRecord, Field.declares, Value.isNull, spare,
      and_assoc]
  exact ⟨.scalar rfl rfl, .scalar rfl rfl, .scalar rfl rfl⟩

theorem shipping_offers {streams : Streams} (resolved : Stream.resolved shippingGroup = .ok streams) :
    ∃ m, (Program.ofStreams streams).Offers shippingGroup m.linked m := by
  obtain ⟨_, same, offers⟩ := exists_of_any_toOption shipping_checked.2
  cases resolved.symm.trans same
  exact ⟨_, Program.offers_of_loaded offers⟩

end IdlGen
