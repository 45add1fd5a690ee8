import IdlGen.Proofs.Layouts
import IdlGen.Proofs.Meanings
import IdlGen.Proofs.TypeFuel

/-!
Values of annotations (`Represents`). Where references find the classes of a group, such values
are laid out by their types (`FindsClasses.laidOut`).
-/
namespace IdlGen

open Run Outcome

variable {element key value : TypeHint} {hashes : Bool}

def Value.builtin? : Value → Option String
  | .bool _ => some "bool"
  | .int _ => some "int"
  | .float _ => some "float"
  | .text _ => some "str"
  | .bytes _ => some "bytes"
  | _ => none

/-- A value in the representation that an annotation declares, where classes are what their
    references find. The fields of a record may be absent. -/
inductive Represents (g : Group) (s : Surroundings) : TypeHint → Value → Prop where
  | builtin {word : String} {v : Value} (kind : v.builtin? = some word) :
      Represents g s (.builtin word) v
  | list {element : TypeHint} {items : List Value} (each : ∀ v ∈ items, Represents g s element v) :
      Represents g s (.list element) (.list items)
  | tuple {element : TypeHint} {items : List Value} (each : ∀ v ∈ items, Represents g s element v) :
      Represents g s (.tuple element) (.tuple items)
  | set {element : TypeHint} {items : List Value} (each : ∀ v ∈ items, Represents g s element v) :
      Represents g s (.set element) (.set items)
  | frozenset {element : TypeHint} {items : List Value}
      (each : ∀ v ∈ items, Represents g s element v) :
      Represents g s (.frozenset element) (.frozenset items)
  | dict {key value : TypeHint} {entries : List (Value × Value)}
      (keys : ∀ entry ∈ entries, Represents g s key entry.1)
      (values : ∀ entry ∈ entries, Represents g s value entry.2) :
      Represents g s (.dict key value) (.dict entries)
  | pair {key value : TypeHint} {v w : Value} (first : Represents g s key v)
      (second : Represents g s value w) : Represents g s (.pair key value) (.tuple [v, w])
  | member {cls : Ref} {t : EnumType} {m : String × Int} (found : s.ref cls = .ok (.enum t))
      (known : m ∈ t.members) : Represents g s (.cls cls) (.member t.name m.1 m.2)
  | record {cls : Ref} {t : RecordType} {r : Record} {fields : List (String × Value)}
      (declared : r ∈ g.records) (named : g.classRef r.name = .ok cls)
      (found : s.ref cls = .ok (.record t)) (names : fields.map (·.1) = t.fields.map (·.1))
      (each : ∀ field ∈ fields, field.2 ≠ .null → ∀ f ∈ r.fields,
        Name.attributeName f.name = field.1 → ∀ hint, (g.hint f.type false).outcome = .ok hint →
          Represents g s hint field.2) : Represents g s (.cls cls) (.record t.cls fields)

/-- A class with the fields of a record, each unset by default. -/
structure Run.RecordType.IsFor (t : RecordType) (r : Record) : Prop where
  fields : t.fields = r.fields.map fun f => (Name.attributeName f.name, .null)
  hashable : t.cls.hashable = decide (r.kind ≠ .exception)
  required : t.required = []
  unobstructed : t.obstacle? = none

/-- References find the classes of all records and enums, each record has a class of its own, and
    freezing is not hidden. -/
structure Surroundings.FindsClasses (s : Surroundings) (g : Group) : Prop where
  record : ∀ r ∈ g.records, ∃ cls t, g.classRef r.name = .ok cls ∧ s.ref cls = .ok (.record t) ∧
    t.IsFor r
  enum : ∀ e ∈ g.enums, ∃ cls t, g.classRef e.name = .ok cls ∧ s.ref cls = .ok (.enum t) ∧
    t.members = e.values.map fun m => (Name.sanitize m.1, m.2)
  apart : ∀ r ∈ g.records, ∀ other ∈ g.records, g.classRef r.name = g.classRef other.name →
    r = other
  frozenset : s.name "frozenset" = .ok (.native .frozenset)

/-- A value is in the representation that its type is annotated with. -/
def Surroundings.Declares (s : Surroundings) (g : Group) (type : FieldType) (frozen : Bool)
    (v : Value) : Prop :=
  g.ReachesData type ∧
    ∃ fuel hint, (g.hintWithin fuel type frozen).outcome = .ok hint ∧ Represents g s hint v

section
variable {g : Group} {s : Surroundings} {type : FieldType} {frozen : Bool} {hint : TypeHint}
variable {v : Value}

theorem Value.hashed_of_builtin? {word : String} (kind : v.builtin? = some word) : v.Hashed := by
  cases v with
  | bool b => exact .bool b
  | int n => exact .int n
  | float x => exact .float x
  | text t => exact .text t
  | bytes data => exact .bytes data
  | _ => cases kind

theorem Primitive.hint_eq_ok {p : Primitive} (hinted : p.hint = .ok hint) :
    ∃ word, hint = .builtin word := by
  cases p with
  | other name => cases hinted
  | _ =>
    cases hinted
    exact ⟨_, rfl⟩

theorem represents_sequence_iff :
    Represents g s (if frozen then .tuple element else .list element) v ↔
      ∃ items : List Value, v = (if frozen then .tuple items else .list items) ∧
        ∀ w ∈ items, Represents g s element w := by
  constructor
  · intro represents
    cases frozen with
    | false => cases represents with | list each => exact ⟨_, rfl, each⟩
    | true => cases represents with | tuple each => exact ⟨_, rfl, each⟩
  · rintro ⟨items, rfl, each⟩
    cases frozen with
    | false => exact .list each
    | true => exact .tuple each

theorem represents_collection_iff :
    Represents g s
        (if hashes then if frozen then .frozenset element else .set element else .list element) v ↔
      ∃ items : List Value,
        v = (if hashes then if frozen then .frozenset items else .set items else .list items) ∧
          ∀ w ∈ items, Represents g s element w := by
  constructor
  · intro represents
    cases hashes with
    | false => cases represents with | list each => exact ⟨_, rfl, each⟩
    | true =>
      cases frozen with
      | false => cases represents with | set each => exact ⟨_, rfl, each⟩
      | true => cases represents with | frozenset each => exact ⟨_, rfl, each⟩
  · rintro ⟨items, rfl, each⟩
    cases hashes with
    | false => exact .list each
    | true =>
      cases frozen with
      | false => exact .set each
      | true => exact .frozenset each

theorem represents_pairs_iff {items : List Value} :
    (∀ v ∈ items, Represents g s (.pair key value) v) ↔
      ∃ entries, items = Value.pairs entries ∧
        ∀ entry ∈ entries, Represents g s key entry.1 ∧ Represents g s value entry.2 := by
  constructor
  · intro each
    induction items with
    | nil => exact ⟨[], rfl, by simp⟩
    | cons v rest ih =>
      obtain ⟨first, later⟩ := List.forall_mem_cons.mp each
      obtain ⟨entries, rfl, others⟩ := ih later
      cases first with
      | @pair _ _ k w keyHolds valueHolds =>
        exact ⟨(k, w) :: entries, rfl, List.forall_mem_cons.mpr ⟨⟨keyHolds, valueHolds⟩, others⟩⟩
  · rintro ⟨entries, rfl, each⟩ v member
    obtain ⟨entry, known, rfl⟩ := List.mem_map.mp member
    exact .pair (each entry known).1 (each entry known).2

theorem represents_entries_iff :
    Represents g s (if frozen then .frozenset (.pair key value)
        else if hashes then .dict key value else .list (.pair key value)) v ↔
      ∃ entries, v = (if frozen then .frozenset (Value.pairs entries)
          else if hashes then .dict entries else .list (Value.pairs entries)) ∧
        ∀ entry ∈ entries, Represents g s key entry.1 ∧ Represents g s value entry.2 := by
  constructor
  · intro represents
    cases frozen with
    | true =>
      cases represents with
      | frozenset each =>
        obtain ⟨entries, rfl, both⟩ := represents_pairs_iff.mp each
        exact ⟨entries, rfl, both⟩
    | false =>
      cases hashes with
      | true =>
        cases represents with
        | dict keys values =>
          exact ⟨_, rfl, fun entry member => ⟨keys entry member, values entry member⟩⟩
      | false =>
        cases represents with
        | list each =>
          obtain ⟨entries, rfl, both⟩ := represents_pairs_iff.mp each
          exact ⟨entries, rfl, both⟩
  · rintro ⟨entries, rfl, each⟩
    cases frozen with
    | true => exact .frozenset (represents_pairs_iff.mpr ⟨entries, rfl, each⟩)
    | false =>
      cases hashes with
      | true =>
        exact .dict (fun entry member => (each entry member).1)
          (fun entry member => (each entry member).2)
      | false => exact .list (represents_pairs_iff.mpr ⟨entries, rfl, each⟩)

theorem Run.RecordType.IsFor.field_of_name {t : RecordType} {r : Record} (isFor : t.IsFor r)
    {name : String} (member : name ∈ t.fields.map (·.1)) :
    ∃ f ∈ r.fields, Name.attributeName f.name = name := by
  rw [isFor.fields, List.map_map] at member
  exact List.mem_map.mp member

namespace Surroundings.FindsClasses

theorem hint_exists (finds : s.FindsClasses g) (data : g.ReachesData type) (frozen : Bool) :
    ∃ hint, (g.hint type frozen).outcome = .ok hint := by
  refine data.hint_exists (fun r declared => ?_) (fun e declared => ?_) frozen
  · obtain ⟨cls, t, named, -⟩ := finds.record r declared
    exact ⟨cls, named⟩
  · obtain ⟨cls, t, named, -⟩ := finds.enum e declared
    exact ⟨cls, named⟩

theorem laidOut (finds : s.FindsClasses g) : g.LaidOut (s.Declares g) := by
  rintro type frozen v ⟨data, fuel, hint, hinted, represents⟩
  cases fuel with
  | zero => cases hinted
  | succ fuel =>
    rw [Group.outcome_hintWithin_succ] at hinted
    obtain ⟨resolved, resolves, hinted⟩ := bind_eq_ok.mp hinted
    refine ⟨resolved, resolves, ?_⟩
    cases data.dataType with
    | primitive is known =>
      cases resolves.symm.trans is
      obtain ⟨word, rfl⟩ := Primitive.hint_eq_ok hinted
      cases represents with
      | builtin kind => exact Value.hashed_of_builtin? kind
    | enum is =>
      cases resolves.symm.trans is
      obtain ⟨cls, named, rfl⟩ := map_eq_ok.mp hinted
      obtain ⟨cls', t, named', found, -⟩ := finds.enum _ (Group.declared_of_resolveType resolves)
      cases named.symm.trans named'
      cases represents with
      | member found' known => exact .member ..
      | record declared named found' names each => cases found.symm.trans found'
    | list is _ =>
      cases resolves.symm.trans is
      have inner := data.held is (List.mem_singleton_self _)
      obtain ⟨element, known, made⟩ := bind_eq_ok.mp hinted
      cases made
      obtain ⟨items, same, each⟩ := represents_sequence_iff.mp represents
      exact ⟨items, same, fun w member => ⟨inner, fuel, element, known, each w member⟩⟩
    | set is _ =>
      cases resolves.symm.trans is
      have inner := data.held is (List.mem_singleton_self _)
      obtain ⟨hashes, answered, hinted⟩ := bind_eq_ok.mp hinted
      obtain ⟨element, known, made⟩ := bind_eq_ok.mp hinted
      cases made
      obtain ⟨items, same, each⟩ := represents_collection_iff.mp represents
      exact ⟨hashes, items, answered, same,
        fun w member => ⟨inner, fuel, element, known, each w member⟩⟩
    | @map _ key value is _ _ =>
      cases resolves.symm.trans is
      have keys : g.ReachesData key := data.held is (by simp [Group.Resolved.held])
      have values : g.ReachesData value := data.held is (by simp [Group.Resolved.held])
      obtain ⟨valueHint, valueKnown, hinted⟩ := bind_eq_ok.mp hinted
      obtain ⟨hashes, answered, hinted⟩ := bind_eq_ok.mp hinted
      obtain ⟨keyHint, keyKnown, made⟩ := bind_eq_ok.mp hinted
      cases made
      obtain ⟨entries, same, each⟩ := represents_entries_iff.mp represents
      exact ⟨hashes, entries, answered, same, fun entry member =>
        ⟨⟨keys, fuel, keyHint, keyKnown, (each entry member).1⟩,
          ⟨values, fuel, valueHint, valueKnown, (each entry member).2⟩⟩⟩
    | @record _ r is =>
      cases resolves.symm.trans is
      have declared : r ∈ g.records := Group.declared_of_resolveType resolves
      obtain ⟨cls, named, rfl⟩ := map_eq_ok.mp hinted
      obtain ⟨cls', t, named', found, isFor⟩ := finds.record r declared
      cases named.symm.trans named'
      cases represents with
      | member found' known => cases found.symm.trans found'
      | @record _ t' r' fields declared' named' found' names each =>
        cases found.symm.trans found'
        cases finds.apart r' declared' r declared (named'.trans named.symm)
        intro other otherDeclared sameName
        cases finds.apart other otherDeclared r declared (by rw [sameName])
        refine ⟨t.cls, fields, rfl, isFor.hashable, fun field member => ?_⟩
        by_cases absent : field.2 = .null
        · exact .inl (absent ▸ .null)
        · obtain ⟨f, inFields, same⟩ :=
            isFor.field_of_name (names ▸ List.mem_map_of_mem member : field.1 ∈ _)
          have inner := data.field resolves inFields
          obtain ⟨hint, hinted⟩ := finds.hint_exists inner false
          exact .inr ⟨f, inFields, inner, _, hint, hinted,
            each field member absent f inFields same hint hinted⟩

end Surroundings.FindsClasses

end

end IdlGen
