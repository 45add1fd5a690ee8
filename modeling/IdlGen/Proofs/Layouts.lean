import IdlGen.Proofs.Groups

/-!
How values of a type are laid out, one level at a time (`Layout`). A type that the search finds
hashable has hashable values (`LaidOut.hashed`), and so have all set elements and keys
(`LaidOut.keysHashed`).
-/
namespace IdlGen

variable {seen : List String} {g : Group} {frozen : Bool}

namespace Value

/-! ### Hashable values -/

/-- A value built only from scalars, enum members, classes and other objects of the language,
    tuples and frozen sets of such values, and instances of hashable classes with such fields. -/
inductive Hashed : Value → Prop where
  | null : Hashed .null
  | bool (b : Bool) : Hashed (.bool b)
  | int (n : Int) : Hashed (.int n)
  | float (x : Binary64) : Hashed (.float x)
  | text (t : String) : Hashed (.text t)
  | bytes (data : List UInt8) : Hashed (.bytes data)
  | member (owner name : String) (n : Int) : Hashed (.member owner name n)
  | object (name : String) : Hashed (.object name)
  | tuple {items : List Value} (each : ∀ v ∈ items, Hashed v) : Hashed (.tuple items)
  | frozenset {items : List Value} (each : ∀ v ∈ items, Hashed v) : Hashed (.frozenset items)
  | record {cls : RecordClass} {fields : List (String × Value)} (hashable : cls.hashable)
      (each : ∀ field ∈ fields, Hashed field.2) : Hashed (.record cls fields)

/-- The values that stand directly in a value. -/
def parts : Value → List Value
  | list items => items
  | tuple items => items
  | set items => items
  | frozenset items => items
  | dict entries => entries.map (·.1) ++ entries.map (·.2)
  | record _ fields => fields.map (·.2)
  | _ => []

/-- The first value is the second or one inside it, at any depth. -/
inductive Within : Value → Value → Prop where
  | self (v : Value) : Within v v
  | part {w u v : Value} (member : u ∈ v.parts) (deeper : Within w u) : Within w v

def components : Value → List Value
  | tuple items => items
  | _ => []

/-- The parts that have to be hashable: the elements of sets and frozen sets, the keys of
    dictionaries, and the keys and values of maps that are frozen sets of pairs. -/
def keys : Value → List Value
  | set items => items
  | frozenset items => items ++ items.flatMap components
  | dict entries => entries.map (·.1)
  | _ => []

/-- All keys in a value, at any depth, can be hashed. -/
def KeysHashed (v : Value) : Prop := ∀ w : Value, w.Within v → ∀ k ∈ w.keys, k.Hashed

variable {v w : Value}

theorem sizeOf_part (member : w ∈ v.parts) : sizeOf w < sizeOf v := by
  cases v with
  | list items | tuple items | set items | frozenset items =>
    have smaller : sizeOf w < sizeOf items := List.sizeOf_lt_of_mem member
    simp only [list.sizeOf_spec, tuple.sizeOf_spec, set.sizeOf_spec, frozenset.sizeOf_spec]
    omega
  | dict entries =>
    rcases List.mem_append.mp member with inside | inside
    all_goals
      obtain ⟨⟨k, value⟩, known, rfl⟩ := List.mem_map.mp inside
      have smaller := List.sizeOf_lt_of_mem known
      simp only [dict.sizeOf_spec, Prod.mk.sizeOf_spec] at smaller ⊢
      omega
  | record cls fields =>
    obtain ⟨⟨name, value⟩, known, rfl⟩ := List.mem_map.mp member
    have smaller := List.sizeOf_lt_of_mem known
    simp only [record.sizeOf_spec, Prod.mk.sizeOf_spec] at smaller ⊢
    omega
  | _ => cases member

theorem induction_on_size {motive : Value → Prop}
    (step : ∀ v, (∀ w, sizeOf w < sizeOf v → motive w) → motive v) (v : Value) : motive v :=
  (measure (sizeOf : Value → Nat)).wf.induction v step

theorem hashableList_iff (items : List Value) : hashableList items ↔ ∀ v ∈ items, v.hashable := by
  induction items with
  | nil => simp [hashableList]
  | cons v rest ih => simp [hashableList, ih]

theorem hashableFields_iff (fields : List (String × Value)) :
    hashableFields fields ↔ ∀ field ∈ fields, field.2.hashable := by
  induction fields with
  | nil => simp [hashableFields]
  | cons field rest ih => simp [hashableFields, ih]

theorem Hashed.hashable (hashed : v.Hashed) : v.hashable := by
  induction hashed with
  | tuple each ih | frozenset each ih =>
    rw [Value.hashable, hashableList_iff]
    exact ih
  | record hashable each ih =>
    rw [Value.hashable, Bool.and_eq_true, hashableFields_iff]
    exact ⟨hashable, ih⟩
  | _ => rfl

theorem KeysHashed.of_parts (own : ∀ k ∈ v.keys, k.Hashed) (deeper : ∀ u ∈ v.parts, u.KeysHashed) :
    v.KeysHashed := by
  intro w within k member
  cases within with
  | self => exact own k member
  | part inside within => exact deeper _ inside w within k member

theorem hashed_of_mem_components (hashed : v.Hashed) (member : w ∈ v.components) : w.Hashed := by
  cases hashed with
  | tuple each => exact each w member
  | _ => cases member

theorem Hashed.keysHashed (hashed : v.Hashed) : v.KeysHashed := by
  induction hashed with
  | tuple each ih => exact .of_parts (fun k member => by cases member) ih
  | @frozenset items each ih =>
    refine .of_parts (fun k member => ?_) ih
    rcases List.mem_append.mp member with element | component
    · exact each k element
    · obtain ⟨pair, element, inside⟩ := List.mem_flatMap.mp component
      exact hashed_of_mem_components (each pair element) inside
  | @record cls fields hashable each ih =>
    refine .of_parts (fun k member => by cases member) (fun u member => ?_)
    obtain ⟨field, known, rfl⟩ := List.mem_map.mp member
    exact ih field known
  | _ => exact .of_parts (fun k member => by cases member) (fun u member => by cases member)

end Value

namespace Group

def Entered (g : Group) : List String → Prop
  | [] => True
  | name :: around => Entered g around ∧ ∃ r ∈ g.records, r.name = name ∧ r.kind ≠ .exception ∧
      ∀ field ∈ r.fields, Hashes g (name :: around) false field.type

theorem Entered.of_mem {name : String} (entered : Entered g seen) (member : name ∈ seen) :
    ∃ around, Entered g (name :: around) := by
  induction seen with
  | nil => cases member
  | cons first around ih =>
    rcases List.mem_cons.mp member with rfl | outer
    · exact ⟨around, entered⟩
    · exact ih entered.1 outer

theorem Entered.of_reason {r : Record} (entered : Entered g seen) (declared : r ∈ g.records)
    (reason : Hashes.Reason g seen frozen (.record r)) :
    ∃ around, Entered g (r.name :: around) := by
  obtain ⟨plain, again | fresh⟩ := reason
  · exact entered.of_mem again
  · exact ⟨seen, entered, r, declared, rfl, plain, fresh⟩

end Group

namespace Value

def pairs (entries : List (Value × Value)) : List Value :=
  entries.map fun entry => .tuple [entry.1, entry.2]

/-- A value is a container with the given items. -/
def Collects (v : Value) (items : List Value) : Prop :=
  v = .list items ∨ v = .tuple items ∨ v = .set items ∨ v = .frozenset items

/-- A value is a map with the given entries: a dictionary, or a container of pairs. -/
def Maps (v : Value) (entries : List (Value × Value)) : Prop :=
  v = .dict entries ∨ v = .list (pairs entries) ∨ v = .frozenset (pairs entries)

variable {v w : Value} {items : List Value} {entries : List (Value × Value)} {frozen hashes : Bool}

theorem collects_list (same : v = if frozen then .tuple items else .list items) :
    v.Collects items := by
  cases frozen <;> simp [Collects, same]

theorem collects_set
    (same : v = if hashes then if frozen then .frozenset items else .set items else .list items) :
    v.Collects items := by
  cases frozen <;> cases hashes <;> simp [Collects, same]

theorem maps_map (same : v = if frozen then .frozenset (pairs entries)
    else if hashes then .dict entries else .list (pairs entries)) : v.Maps entries := by
  cases frozen <;> cases hashes <;> simp [Maps, same]

theorem Collects.sizeOf_lt (collects : v.Collects items) (member : w ∈ items) :
    sizeOf w < sizeOf v := by
  rcases collects with rfl | rfl | rfl | rfl
  all_goals exact sizeOf_part member

theorem Maps.sizeOf_lt (maps : v.Maps entries) {entry : Value × Value} (member : entry ∈ entries) :
    sizeOf entry.1 < sizeOf v ∧ sizeOf entry.2 < sizeOf v := by
  have paired (inParts : .tuple [entry.1, entry.2] ∈ v.parts) :
      sizeOf entry.1 < sizeOf v ∧ sizeOf entry.2 < sizeOf v := by
    have pair : Value.Collects (.tuple [entry.1, entry.2]) [entry.1, entry.2] := .inr (.inl rfl)
    have smaller := sizeOf_part inParts
    exact ⟨Nat.lt_trans (pair.sizeOf_lt (by simp)) smaller,
      Nat.lt_trans (pair.sizeOf_lt (by simp)) smaller⟩
  rcases maps with rfl | rfl | rfl
  · exact ⟨sizeOf_part (List.mem_append_left _ (List.mem_map_of_mem member)),
      sizeOf_part (List.mem_append_right _ (List.mem_map_of_mem member))⟩
  · exact paired (List.mem_map.mpr ⟨entry, member, rfl⟩)
  · exact paired (List.mem_map.mpr ⟨entry, member, rfl⟩)

end Value

namespace Group

def Layout (g : Group) (R : FieldType → Bool → Value → Prop) (frozen : Bool) (v : Value) :
    Resolved → Prop
  | .primitive _ => v.Hashed
  | .enum _ => v.Hashed
  | .list element => ∃ items : List Value,
      v = (if frozen then .tuple items else .list items) ∧ ∀ w ∈ items, R element frozen w
  | .set element => ∃ (hashes : Bool) (items : List Value),
      g.isHashable element true = .ok hashes ∧
      v = (if hashes then if frozen then .frozenset items else .set items else .list items) ∧
      ∀ w ∈ items, R element hashes w
  | .map key value => ∃ (hashes : Bool) (entries : List (Value × Value)),
      g.keysFrozen frozen key = .ok hashes ∧
      v = (if frozen then .frozenset (Value.pairs entries)
        else if hashes then .dict entries else .list (Value.pairs entries)) ∧
      ∀ entry ∈ entries, R key hashes entry.1 ∧ R value frozen entry.2
  | .record r => ∀ other ∈ g.records, other.name = r.name →
      ∃ cls fields, v = .record cls fields ∧ cls.hashable = decide (other.kind ≠ .exception) ∧
        ∀ field ∈ fields, field.2.Hashed ∨ ∃ f ∈ other.fields, R f.type false field.2
  | .constant _ => False
  | .service _ => False

def LaidOut (g : Group) (R : FieldType → Bool → Value → Prop) : Prop :=
  ∀ type frozen v, R type frozen v →
    ∃ resolved, g.resolveType type = .ok resolved ∧ g.Layout R frozen v resolved

namespace LaidOut

variable {R : FieldType → Bool → Value → Prop} {type : FieldType} {v : Value}

/-- A hashable type has hashable values. Containers are hashable only where they are frozen,
    which is never below a record. -/
theorem hashed (laid : g.LaidOut R) (entered : g.Entered seen)
    (outermost : frozen = true → seen = []) (hashes : g.Hashes seen frozen type)
    (holds : R type frozen v) : v.Hashed := by
  induction v using Value.induction_on_size generalizing type frozen seen with
  | step v ih =>
    obtain ⟨resolved, resolves, layout⟩ := laid type frozen v holds
    have reason := hashes.reason resolves
    cases resolved with
    | primitive p => exact layout
    | enum e => exact layout
    | list element =>
      obtain ⟨rfl, elementHashes⟩ := reason
      obtain ⟨items, rfl, each⟩ := layout
      refine .tuple fun w member => ?_
      exact ih w (Value.sizeOf_part member) entered outermost elementHashes (each w member)
    | set element =>
      obtain ⟨rfl, elementHashes⟩ := reason
      obtain ⟨hashes, items, answered, rfl, each⟩ := layout
      cases outermost rfl
      cases elementHashes.answer answered
      refine .frozenset fun w member => ?_
      exact ih w (Value.sizeOf_part member) entered outermost elementHashes (each w member)
    | map key value =>
      obtain ⟨rfl, keyHashes, valueHashes⟩ := reason
      obtain ⟨hashes, entries, answered, rfl, each⟩ := layout
      cases answered
      have maps : Value.Maps (.frozenset (Value.pairs entries)) entries := .inr (.inr rfl)
      refine .frozenset fun pair member => ?_
      obtain ⟨entry, known, rfl⟩ := List.mem_map.mp member
      obtain ⟨keyHolds, valueHolds⟩ := each entry known
      refine .tuple fun w inPair => ?_
      rcases List.mem_pair.mp inPair with rfl | rfl
      · exact ih _ (maps.sizeOf_lt known).1 entered outermost keyHashes keyHolds
      · exact ih _ (maps.sizeOf_lt known).2 entered outermost valueHashes valueHolds
    | record r =>
      -- Whether the record is met again or entered now, one of its name has hashable fields.
      obtain ⟨around, inner⟩ := entered.of_reason (declared_of_resolveType resolves) reason
      obtain ⟨other, declared, sameName, plain, fieldHashes⟩ := inner.2
      obtain ⟨cls, fields, rfl, hashable, each⟩ := layout other declared sameName
      refine .record (by simpa [plain] using hashable) fun field member => ?_
      rcases each field member with unset | ⟨f, inFields, fieldHolds⟩
      · exact unset
      · have smaller : sizeOf field.2 < sizeOf (Value.record cls fields) :=
          Value.sizeOf_part (List.mem_map_of_mem member)
        exact ih field.2 smaller inner (fun impossible => by cases impossible)
          (fieldHashes f inFields) fieldHolds
    | constant _ => cases layout
    | service _ => cases layout

theorem hashed_of_isHashable (laid : g.LaidOut R) (answered : g.isHashable type true = .ok true)
    (holds : R type true v) : v.Hashed := by
  have outside : g.Entered [] := trivial
  exact laid.hashed outside (fun _ => rfl) (.of_isHashable answered) holds

theorem keysHashed (laid : g.LaidOut R) (holds : R type false v) : v.KeysHashed := by
  induction v using Value.induction_on_size generalizing type with
  | step v ih =>
    obtain ⟨resolved, resolves, layout⟩ := laid type false v holds
    cases resolved with
    | primitive p => exact Value.Hashed.keysHashed layout
    | enum e => exact Value.Hashed.keysHashed layout
    | list element =>
      obtain ⟨items, rfl, each⟩ := layout
      refine .of_parts (fun k member => by cases member) fun w member => ?_
      exact ih w (Value.sizeOf_part member) (each w member)
    | set element =>
      obtain ⟨hashes, items, answered, rfl, each⟩ := layout
      cases hashes with
      | true =>
        have hashed (w : Value) (member : w ∈ items) : w.Hashed :=
          laid.hashed_of_isHashable answered (each w member)
        exact .of_parts hashed fun w member => (hashed w member).keysHashed
      | false =>
        refine .of_parts (fun k member => by cases member) fun w member => ?_
        exact ih w (Value.sizeOf_part member) (each w member)
    | map key value =>
      obtain ⟨hashes, entries, answered, same, each⟩ := layout
      have maps := Value.maps_map same
      subst same
      cases hashes with
      | true =>
        have hashed (k : Value) (member : k ∈ entries.map (·.1)) : k.Hashed := by
          obtain ⟨entry, known, rfl⟩ := List.mem_map.mp member
          exact laid.hashed_of_isHashable answered (each entry known).1
        refine .of_parts hashed fun w member => ?_
        rcases List.mem_append.mp member with inKeys | inValues
        · exact (hashed w inKeys).keysHashed
        · obtain ⟨entry, known, rfl⟩ := List.mem_map.mp inValues
          exact ih entry.2 (maps.sizeOf_lt known).2 (each entry known).2
      | false =>
        refine .of_parts (fun k member => by cases member) fun pair member => ?_
        obtain ⟨entry, known, rfl⟩ := List.mem_map.mp member
        refine .of_parts (fun k member => by cases member) fun w inPair => ?_
        rcases List.mem_pair.mp inPair with rfl | rfl
        · exact ih _ (maps.sizeOf_lt known).1 (each entry known).1
        · exact ih _ (maps.sizeOf_lt known).2 (each entry known).2
    | record r =>
      obtain ⟨cls, fields, rfl, -, each⟩ := layout r (declared_of_resolveType resolves) rfl
      refine .of_parts (fun k member => by cases member) fun w member => ?_
      have smaller := Value.sizeOf_part member
      obtain ⟨field, known, rfl⟩ := List.mem_map.mp member
      rcases each field known with unset | ⟨f, -, fieldHolds⟩
      · exact unset.keysHashed
      · exact ih field.2 smaller fieldHolds
    | constant _ => cases layout
    | service _ => cases layout

end LaidOut
end Group
end IdlGen
