import IdlGen.Proofs.Containers
import IdlGen.Proofs.References
import IdlGen.Proofs.Representations
import Mathlib.Tactic.Choose

/-!
Literals of a schema, written as expressions and evaluated. A literal of a declared type evaluates
to a value in the representation that its annotation declares, at every depth (`Represents`), with
the content of the literal (`Denotes`) and of the constants that it cites (`DenotesCited`).
-/
namespace IdlGen

open Run Outcome

/-- The scalar that a literal of a primitive stands for. An integer stands for the double nearest
    to it where a double is declared. -/
def Primitive.literal? (p : Primitive) (v : Value) : Option Value :=
  match v with
  | .bool b => if p = .bool then some (.bool b) else none
  | .int n =>
    if p.range?.isSome then some (.int n)
    else if p = .double then (Binary64.ofInt? n).map .float else none
  | .float x => if p = .double then some (.float x) else none
  | .text t => if p = .string then some (.text t) else none
  | .bytes data => if p = .binary then some (.bytes data) else none
  | _ => none

namespace Value

def sequence? : Value → Option (List Value)
  | .list items => some items
  | .tuple items => some items
  | _ => none

end Value

/-- A literal of a type. If it may cite constants, they are of the type of their position. -/
inductive WellTypedCiting (g : Group) (citing : Bool) : FieldType → Value → Prop where
  | scalar {type : FieldType} {p : Primitive} {v : Value}
      (resolves : g.resolveType type = .ok (.primitive p)) (stands : (p.literal? v).isSome) :
      WellTypedCiting g citing type v
  | list {type element : FieldType} {v : Value} {items : List Value}
      (resolves : g.resolveType type = .ok (.list element)) (written : v.sequence? = some items)
      (each : ∀ item ∈ items, WellTypedCiting g citing element item) :
      WellTypedCiting g citing type v
  | set {type element : FieldType} {v : Value} {items : List Value}
      (resolves : g.resolveType type = .ok (.set element)) (written : v.collection? = some items)
      (each : ∀ item ∈ items, WellTypedCiting g citing element item) :
      WellTypedCiting g citing type v
  | map {type key value : FieldType} {entries : List (Value × Value)}
      (resolves : g.resolveType type = .ok (.map key value))
      (keys : ∀ entry ∈ entries, WellTypedCiting g citing key entry.1)
      (values : ∀ entry ∈ entries, WellTypedCiting g citing value entry.2) :
      WellTypedCiting g citing type (.dict entries)
  | enum {type : FieldType} {e : Enum} {n : Int} (resolves : g.resolveType type = .ok (.enum e))
      (member : n ∈ e.values.map (·.2)) : WellTypedCiting g citing type (.int n)
  | record {type : FieldType} {r : Record} {entries : List (Value × Value)}
      (resolves : g.resolveType type = .ok (.record r)) (apart : (entries.map (·.1)).Nodup)
      (names : ∀ entry ∈ entries, ∃ name : String, entry.1 = .text name ∧
        ∃ f ∈ r.fields, f.name = .text name)
      (each : ∀ entry ∈ entries, entry.2 ≠ .null → ∀ f ∈ r.fields, f.name = entry.1 →
        WellTypedCiting g citing f.type entry.2) : WellTypedCiting g citing type (.dict entries)
  | constant {type : FieldType} {name : String} {c : Constant} {resolved : Group.Resolved}
      (allowed : citing = true) (cites : g.resolveValue name = .ok (.constant c))
      (position : g.resolveType type = .ok resolved) (declared : g.resolveType c.type = .ok resolved)
      (value : WellTypedCiting g citing c.type c.value) : WellTypedCiting g citing type (.ref name)

/-- A literal of a type that cites no constants. -/
abbrev WellTyped (g : Group) : FieldType → Value → Prop := WellTypedCiting g false

/-- A literal of a type that may cite constants of their positions' types. -/
abbrev WellCited (g : Group) : FieldType → Value → Prop := WellTypedCiting g true

/-- What it takes for a value to have the content of a literal of a type, if `D` holds of the levels
    below. Scalars are the same up to the doubles and enum members that integers stand for. Items
    keep their order in lists; a set keeps the first of equal elements, in any order, and a map the
    first of equal keys with the last of their values. The fields of a record that the literal
    leaves out are absent. -/
inductive Content (g : Group) (D : FieldType → Value → Value → Prop) :
    Value → FieldType → Value → Prop where
  | scalar {type : FieldType} {p : Primitive} {v w : Value}
      (resolves : g.resolveType type = .ok (.primitive p)) (stands : p.literal? v = some w) :
      Content g D v type w
  | list {type element : FieldType} {v w : Value} {items results : List Value}
      (resolves : g.resolveType type = .ok (.list element)) (written : v.sequence? = some items)
      (size : items.length = results.length)
      (each : ∀ pair ∈ items.zip results, D element pair.1 pair.2)
      (form : w = .list results ∨ w = .tuple results) : Content g D v type w
  | set {type element : FieldType} {v w : Value} {items results order : List Value}
      (resolves : g.resolveType type = .ok (.set element)) (written : v.collection? = some items)
      (size : items.length = results.length)
      (each : ∀ pair ∈ items.zip results, D element pair.1 pair.2)
      (reordered : results.Perm order)
      (form : w = .list order ∨ w = .set (Value.distinct order) ∨
        w = .frozenset (Value.distinct order)) : Content g D v type w
  | map {type key value : FieldType} {w : Value} {entries results : List (Value × Value)}
      (resolves : g.resolveType type = .ok (.map key value))
      (size : entries.length = results.length)
      (keys : ∀ pair ∈ entries.zip results, D key pair.1.1 pair.2.1)
      (values : ∀ pair ∈ entries.zip results, D value pair.1.2 pair.2.2)
      (form : w = .dict (Value.distinctEntries results) ∨ w = .list (Value.pairs results) ∨
        w = .frozenset (Value.distinct (Value.pairs results))) : Content g D (.dict entries) type w
  | enum {type : FieldType} {e : Enum} {n : Int} {owner : String} {m : String × Int}
      (resolves : g.resolveType type = .ok (.enum e))
      (first : e.values.find? (fun m => m.2 == n) = some m) :
      Content g D (.int n) type (.member owner (Name.sanitize m.1) n)
  | record {type : FieldType} {r : Record} {cls : RecordClass} {entries : List (Value × Value)}
      {results : List Value} {fields : List (String × Value)}
      (resolves : g.resolveType type = .ok (.record r)) (size : entries.length = results.length)
      (absent : ∀ pair ∈ entries.zip results, pair.1.2 = .null → pair.2 = .null)
      (each : ∀ pair ∈ entries.zip results, pair.1.2 ≠ .null → ∀ f ∈ r.fields,
        f.name = pair.1.1 → D f.type pair.1.2 pair.2)
      (given : ∀ pair ∈ entries.zip results, (Name.attributeName pair.1.1, pair.2) ∈ fields)
      (rest : ∀ field ∈ fields, (∀ entry ∈ entries, Name.attributeName entry.1 ≠ field.1) →
        field.2 = .null) : Content g D (.dict entries) type (.record cls fields)

/-- A value has the content of a literal, with the content of a constant where one may be cited. -/
inductive DenotesCiting (g : Group) (citing : Bool) : FieldType → Value → Value → Prop where
  | level {type : FieldType} {v w : Value} (content : Content g (DenotesCiting g citing) v type w) :
      DenotesCiting g citing type v w
  | constant {type : FieldType} {name : String} {c : Constant} {w : Value}
      (allowed : citing = true) (cites : g.resolveValue name = .ok (.constant c))
      (value : DenotesCiting g citing c.type c.value w) : DenotesCiting g citing type (.ref name) w

/-- A value has the content of a literal of a type. -/
abbrev Denotes (g : Group) : FieldType → Value → Value → Prop := DenotesCiting g false

/-- A value has the content of a literal and of the constants it cites. -/
abbrev DenotesCited (g : Group) : FieldType → Value → Value → Prop := DenotesCiting g true

/-- No two fields of a record have one attribute. -/
def Group.AttributesApart (g : Group) : Prop :=
  ∀ r ∈ g.records, (r.fields.map fun f => Name.attributeName f.name).Nodup

section
variable {g : Group} {s : Surroundings} {type : FieldType} {frozen : Bool} {hint : TypeHint}
variable {v : Value} {citing : Bool}

variable {p : Primitive} {n : Int} {w : Value} {cls : Ref} {element key value : FieldType}
  {items results : List Value} {pairs : List (Expr × Expr)} {keyHint valueHint : TypeHint}
  {hashes : Bool} {entries : List (Value × Value)} {es : List Expr} {r : Record} {fuel : Nat}

theorem Primitive.hint_of_range (bounded : p.range?.isSome) : p.hint = .ok (.builtin "int") := by
  cases p <;> first | rfl | cases bounded

theorem Primitive.literal_int (stands : p.literal? (.int n) = some w) :
    (p.range?.isSome ∧ w = .int n) ∨
      (p = .double ∧ ∃ x, Binary64.ofInt? n = some x ∧ w = .float x) := by
  rw [Primitive.literal?] at stands
  by_cases bounded : p.range?.isSome
  · rw [if_pos bounded] at stands
    cases stands
    exact .inl ⟨bounded, rfl⟩
  · rw [if_neg bounded] at stands
    obtain ⟨rfl, converted⟩ := Option.ite_none_right_eq_some.mp stands
    obtain ⟨x, nearest, rfl⟩ := Option.map_eq_some_iff.mp converted
    exact .inr ⟨rfl, x, nearest, rfl⟩

theorem Primitive.hint_of_literal (stands : p.literal? v = some w) :
    ∃ word, p.hint = .ok (.builtin word) ∧ w.builtin? = some word := by
  cases v with
  | int n =>
    rcases Primitive.literal_int stands with ⟨bounded, rfl⟩ | ⟨rfl, x, -, rfl⟩
    · exact ⟨_, Primitive.hint_of_range bounded, rfl⟩
    · exact ⟨_, rfl, rfl⟩
  | bool _ | float _ | text _ | bytes _ =>
    obtain ⟨rfl, same⟩ := Option.ite_none_right_eq_some.mp stands
    cases same
    exact ⟨_, rfl, rfl⟩
  | _ => cases stands

theorem literalExpr_scalar (resolves : g.resolveType type = .ok (.primitive p))
    (stands : p.literal? v = some w) : g.literalExpr v (some type) frozen = .ok (.literal w) := by
  have known : g.resolveType? (some type) = .ok (some (.primitive p)) := by
    rw [Group.resolveType?, resolves]
    rfl
  cases v with
  | int n =>
    rw [Group.literalExpr, known]
    rcases Primitive.literal_int stands with ⟨bounded, rfl⟩ | ⟨rfl, x, nearest, rfl⟩
    · cases p <;> first | rfl | cases bounded
    · simp [bind, Except.bind, Group.scalarExpr, nearest]
  | bool _ | float _ | text _ | bytes _ =>
    obtain ⟨rfl, same⟩ := Option.ite_none_right_eq_some.mp stands
    cases same
    rw [Group.literalExpr, known]
    · rfl
    all_goals simp
  | _ => cases stands

/-- Calling the class of an enum with a number gives its first member of that number. -/
theorem make_member {t : EnumType} {members : List (String × Int)}
    (same : t.members = members.map fun m => (Name.sanitize m.1, m.2))
    (known : n ∈ members.map (·.2)) :
    ∃ m, members.find? (fun m => m.2 == n) = some m ∧
      t.make (.int n) = .ok (.member t.name (Name.sanitize m.1) n) := by
  obtain ⟨m, found⟩ : ∃ m, members.find? (fun m => m.2 == n) = some m := by
    obtain ⟨m, inMembers, number⟩ := List.mem_map.mp known
    exact Option.isSome_iff_exists.mp (List.find?_isSome.mpr ⟨m, inMembers, by simp [number]⟩)
  have number : m.2 = n := by simpa using List.find?_some found
  refine ⟨m, found, ?_⟩
  have equal (k : Int) : (Value.int n).equal (.int k) = (k == n) := by
    simp [Value.equal, Value.equalNumbers, Value.number?, Value.Number.equal, eq_comm]
  simp [EnumType.make, same, List.find?_map, Function.comp_def, equal, found, number]

theorem meaning_call_ref_single {o result : Object} (found : s.ref cls = .ok o)
    (called : o.apply [.value v] [] = .ok result) :
    (Expr.call (.ref cls) [.literal v] []).meaning s = .ok result := by
  simp only [Expr.meaning, Expr.meanings, Expr.keywordMeanings, found]
  exact called

/-- A literal is written at a position of a type, and evaluates to a value of an annotation with the
    content of the literal. -/
def Evaluates (g : Group) (s : Surroundings) (citing : Bool) (type : FieldType) (frozen : Bool)
    (hint : TypeHint) (v : Value) : Prop :=
  ∃ e w, g.literalExpr v (some type) frozen = .ok e ∧ e.meaning s = .ok (.value w) ∧
    Represents g s hint w ∧ DenotesCiting g citing type v w

theorem exists_items (each : ∀ item ∈ items, Evaluates g s citing element frozen hint item) :
    ∃ es results, g.literalItems (some element) frozen items = .ok es ∧
      Expr.meanings s es = .ok (results.map .value) ∧ items.length = results.length ∧
      (∀ pair ∈ items.zip results, DenotesCiting g citing element pair.1 pair.2) ∧
      ∀ w ∈ results, Represents g s hint w := by
  choose! e w written means represents denotes using each
  refine ⟨items.map e, items.map w, ?_, ?_, by simp, ?_, ?_⟩
  · rw [literalItems_eq_mapM]
    exact mapM_eq_map written
  · rw [Expr.meanings_eq_mapM, List.mapM_map, List.map_map]
    exact mapM_eq_map means
  · rw [← List.map_prod_left_eq_zip, List.forall_mem_map]
    exact denotes
  · rw [List.forall_mem_map]
    exact represents

theorem meaning_pairList {results : List (Value × Value)}
    (mean : Expr.entryMeanings s pairs = .ok results) :
    (Group.pairList pairs).meaning s = .ok (.value (.list (Value.pairs results))) := by
  have tuples : Expr.meanings s (pairs.map fun pair => .tuple [pair.1, pair.2]) =
      .ok ((Value.pairs results).map .value) := by
    induction pairs generalizing results with
    | nil =>
      cases mean
      rfl
    | cons pair rest ih =>
      obtain ⟨k, v⟩ := pair
      rw [Expr.entryMeanings] at mean
      obtain ⟨key, keyMeans, mean⟩ := bind_eq_ok.mp mean
      obtain ⟨value, valueMeans, mean⟩ := bind_eq_ok.mp mean
      obtain ⟨others, later, made⟩ := bind_eq_ok.mp mean
      cases made
      simp only [List.map_cons, Expr.meanings, Expr.meaning, keyMeans, valueMeans, ih later]
      rfl
  simp only [Group.pairList, Expr.meaning, tuples]
  simp [bind, Except.bind, pure, Except.pure, Function.comp_def, Object.toValue]

theorem exists_entries (keys : ∀ entry ∈ entries, Evaluates g s citing key hashes keyHint entry.1)
    (values : ∀ entry ∈ entries, Evaluates g s citing value frozen valueHint entry.2) :
    ∃ pairs results,
      g.literalEntries (some key) (some value) hashes frozen entries = .ok pairs ∧
      Expr.entryMeanings s pairs = .ok results ∧ entries.length = results.length ∧
      (∀ pair ∈ entries.zip results, DenotesCiting g citing key pair.1.1 pair.2.1) ∧
      (∀ pair ∈ entries.zip results, DenotesCiting g citing value pair.1.2 pair.2.2) ∧
      ∀ entry ∈ results, Represents g s keyHint entry.1 ∧ Represents g s valueHint entry.2 := by
  choose! k keyResult keyWritten keyMeans keyRepresents keyDenotes using keys
  choose! v valueResult valueWritten valueMeans valueRepresents valueDenotes using values
  refine ⟨entries.map fun entry => (k entry, v entry),
    entries.map fun entry => (keyResult entry, valueResult entry), ?_, ?_, by simp, ?_, ?_, ?_⟩
  · rw [literalEntries_eq_mapM]
    refine mapM_eq_map fun entry member => ?_
    rw [keyWritten entry member, valueWritten entry member]
    rfl
  · rw [Expr.entryMeanings_eq_mapM, List.mapM_map]
    refine mapM_eq_map fun entry member => ?_
    simp only [Function.comp, keyMeans entry member, valueMeans entry member]
    rfl
  · rw [← List.map_prod_left_eq_zip, List.forall_mem_map]
    exact keyDenotes
  · rw [← List.map_prod_left_eq_zip, List.forall_mem_map]
    exact valueDenotes
  · rw [List.forall_mem_map]
    exact fun entry known => ⟨keyRepresents entry known, valueRepresents entry known⟩

@[simp] theorem toValue_values (results : List Value) :
    (results.map Object.value).map Object.toValue = results := by
  simp [Function.comp_def, Object.toValue]

theorem meanings_perm {order : List Expr} (reordered : es.Perm order)
    (mean : Expr.meanings s es = .ok (results.map .value)) :
    ∃ others, Expr.meanings s order = .ok (others.map .value) ∧ results.Perm others := by
  rw [Expr.meanings_eq_mapM] at mean
  obtain ⟨objects, otherwise, arranged⟩ := mapM_perm reordered mean
  have plain : (objects.map Object.toValue).map .value = objects := by
    rw [List.map_map]
    refine (List.map_congr_left fun o member => ?_).trans (List.map_id objects)
    obtain ⟨w, -, rfl⟩ := List.mem_map.mp (arranged.mem_iff.mpr member)
    rfl
  refine ⟨objects.map Object.toValue, ?_, ?_⟩
  · rw [Expr.meanings_eq_mapM, plain]
    exact otherwise
  · have values := arranged.map Object.toValue
    rwa [toValue_values] at values

theorem resolveType?_some {resolved : Group.Resolved} (resolves : g.resolveType type = .ok resolved) :
    g.resolveType? (some type) = .ok (some resolved) := by
  rw [Group.resolveType?, resolves]
  rfl

theorem literalExpr_list (resolves : g.resolveType type = .ok (.list element))
    (written : v.sequence? = some items)
    (made : g.literalItems (some element) frozen items = .ok es) :
    g.literalExpr v (some type) frozen = .ok (if frozen then .tuple es else .list es) := by
  have known := resolveType?_some resolves
  cases v with
  | list _ | tuple _ =>
    cases written
    rw [Group.literalExpr, known]
    simp only [bind, Except.bind, Group.shapeOf, Bool.or_false, made]
    rfl
  | _ => cases written

theorem literalExpr_set (resolves : g.resolveType type = .ok (.set element))
    (answered : g.isHashable element true = .ok hashes) (written : v.collection? = some items)
    (made : g.literalItems (some element) (frozen || hashes) items = .ok es) :
    ∃ order, es.Perm order ∧ g.literalExpr v (some type) frozen = .ok
      (if hashes then if frozen then Group.frozen (.list order) else .set order
        else .list order) := by
  have known := resolveType?_some resolves
  have form (order : List Expr) : Group.Shape.expr ⟨some element, true, hashes⟩ frozen order =
      if hashes then if frozen then Group.frozen (.list order) else .set order
        else .list order := by
    cases hashes <;> rfl
  cases v with
  | list _ | tuple _ =>
    cases written
    refine ⟨es, .refl _, ?_⟩
    rw [Group.literalExpr, known]
    simp only [bind, Except.bind, Group.shapeOf, answered, pure, Except.pure, made, form]
  | set _ | frozenset _ =>
    cases written
    refine ⟨Group.sortByText es, (List.mergeSort_perm ..).symm, ?_⟩
    rw [Group.literalExpr, known]
    simp only [bind, Except.bind, Group.shapeOf, answered, pure, Except.pure, made, form]
  | _ => cases written

theorem literalExpr_map (resolves : g.resolveType type = .ok (.map key value))
    (answered : g.isHashable key true = .ok hashes)
    (made : g.literalEntries (some key) (some value) hashes frozen entries = .ok pairs) :
    g.literalExpr (.dict entries) (some type) frozen =
      .ok (Group.entriesExpr frozen hashes pairs) := by
  rw [Group.literalExpr, resolveType?_some resolves]
  simp only [bind, Except.bind, Group.entryTypes, answered, pure, Except.pure, made]

theorem meaning_list (mean : Expr.meanings s es = .ok (results.map .value)) :
    (Expr.list es).meaning s = .ok (.value (.list results)) := by
  rw [Expr.meaning, mean]
  simp only [bind, Except.bind, pure, Except.pure, toValue_values]

theorem meaning_tuple (mean : Expr.meanings s es = .ok (results.map .value)) :
    (Expr.tuple es).meaning s = .ok (.value (.tuple results)) := by
  rw [Expr.meaning, mean]
  simp only [bind, Except.bind, pure, Except.pure, toValue_values]

theorem meaning_set (mean : Expr.meanings s es = .ok (results.map .value))
    (hashed : ∀ w ∈ results, w.Hashed) :
    (Expr.set es).meaning s = .ok (.value (.set (Value.distinct results))) := by
  have hashable : ∀ w ∈ results, w.hashable := fun w member => (hashed w member).hashable
  rw [Expr.meaning, mean]
  simp only [bind, Except.bind, pure, Except.pure, toValue_values, setItems_eq_ok hashable]

theorem meaning_frozen (freezes : s.name "frozenset" = .ok (.native .frozenset)) {e : Expr}
    (means : e.meaning s = .ok (.value (.list items))) (hashed : ∀ w ∈ items, w.Hashed) :
    (Group.frozen e).meaning s = .ok (.value (.frozenset (Value.distinct items))) := by
  have hashable : ∀ w ∈ items, w.hashable := fun w member => (hashed w member).hashable
  simp only [Group.frozen, Expr.meaning, Expr.meanings, Expr.keywordMeanings, freezes, means]
  simp [bind, Except.bind, pure, Except.pure, Object.apply, callNative, itemsOf,
    setItems_eq_ok hashable]

theorem meaning_collection (freezes : s.name "frozenset" = .ok (.native .frozenset))
    (mean : Expr.meanings s es = .ok (results.map .value))
    (hashed : hashes = true → ∀ w ∈ results, w.Hashed) :
    (if hashes then if frozen then Group.frozen (.list es) else .set es else .list es).meaning s =
      .ok (.value (if hashes then if frozen then .frozenset (Value.distinct results)
        else .set (Value.distinct results) else .list results)) := by
  cases hashes with
  | false => exact meaning_list mean
  | true =>
    cases frozen with
    | true => exact meaning_frozen freezes (meaning_list mean) (hashed rfl)
    | false => exact meaning_set mean (hashed rfl)

theorem meaning_entriesExpr (freezes : s.name "frozenset" = .ok (.native .frozenset))
    {results : List (Value × Value)} (mean : Expr.entryMeanings s pairs = .ok results)
    (keys : hashes = true → ∀ entry ∈ results, entry.1.Hashed)
    (values : frozen = true → hashes = true ∧ ∀ entry ∈ results, entry.2.Hashed) :
    (Group.entriesExpr frozen hashes pairs).meaning s =
      .ok (.value (if frozen then .frozenset (Value.distinct (Value.pairs results))
        else if hashes then .dict (Value.distinctEntries results)
        else .list (Value.pairs results))) := by
  have list := meaning_pairList mean
  cases frozen with
  | true =>
    obtain ⟨keysHash, valuesHashed⟩ := values rfl
    refine meaning_frozen freezes list fun w member => ?_
    obtain ⟨entry, known, rfl⟩ := List.mem_map.mp member
    refine .tuple fun part inPair => ?_
    rcases List.mem_pair.mp inPair with rfl | rfl
    · exact keys keysHash entry known
    · exact valuesHashed entry known
  | false =>
    cases hashes with
    | false => exact list
    | true =>
      have hashable : ∀ entry ∈ results, entry.1.hashable := fun entry member =>
        (keys rfl entry member).hashable
      simp only [Group.entriesExpr, Bool.false_eq_true, if_false, if_true, Expr.meaning, mean]
      simp [bind, Except.bind, pure, Except.pure, dictEntries_eq_ok hashable]

theorem Value.eq_text_of_same {t : String} (same : v.same (.text t)) : v = .text t := by
  cases v <;> simp_all [Value.same, Value.equal, Value.equalNumbers, Value.number?, Value.isNull]

theorem fieldType?_eq_some {fields : List Field} {f : Field} {name : String} (member : f ∈ fields)
    (named : f.name = .text name) :
    ∃ f ∈ fields, f.name = .text name ∧ Group.fieldType? fields (.text name) = some f.type := by
  have same : f.name.same (.text name) := by
    rw [named]
    simp [Value.same, Value.equal]
  have present : (fields.reverse.find? fun field => field.name.same (.text name)).isSome :=
    List.find?_isSome.mpr ⟨f, List.mem_reverse.mpr member, same⟩
  obtain ⟨last, found⟩ := Option.isSome_iff_exists.mp present
  have lastSame : last.name.same (.text name) := by simpa using List.find?_some found
  refine ⟨last, List.mem_reverse.mp (List.mem_of_find?_eq_some found),
    Value.eq_text_of_same lastSame, ?_⟩
  rw [Group.fieldType?, found]
  rfl

theorem field_of_attribute {f other : Field}
    (apart : (r.fields.map fun f => Name.attributeName f.name).Nodup) (member : f ∈ r.fields)
    (known : other ∈ r.fields) (same : Name.attributeName f.name = Name.attributeName other.name) :
    f = other :=
  List.inj_on_of_nodup_map apart member known same

theorem make_record {t : RecordType} (isFor : t.IsFor r) {given : List (String × Value)}
    (apart : (given.map (·.1)).Nodup) (known : ∀ d ∈ given, d.1 ∈ t.fields.map (·.1)) :
    ∃ fields, t.make [] given = .ok (.record t.cls fields) ∧
      fields.map (·.1) = t.fields.map (·.1) ∧ (∀ d ∈ given, d ∈ fields) ∧
      ∀ field ∈ fields, field ∈ given ∨ field.1 ∉ given.map (·.1) ∧ field.2 = .null := by
  have unplaced : given.find? (fun _ => false) = none := by simp
  have reversed : (given.reverse.map (·.1)).Nodup := by
    rw [List.map_reverse]
    exact List.nodup_reverse.mpr apart
  refine ⟨t.fields.map fun field => (field.1, (given.reverse.lookup field.1).getD field.2), ?_, ?_,
    fun d member => ?_, fun field member => ?_⟩
  · simp [RecordType.make, isFor.unobstructed, isFor.required, replaceFields_eq known, unplaced]
  · simp
  · obtain ⟨field, inFields, same⟩ := List.mem_map.mp (known d member)
    have looked := lookup_of_mem reversed (List.mem_reverse.mpr member)
    exact List.mem_map.mpr ⟨field, inFields, by simp [same, looked]⟩
  · obtain ⟨field, inFields, rfl⟩ := List.mem_map.mp member
    cases looked : given.reverse.lookup field.1 with
    | some value =>
      obtain ⟨before, after, split, -⟩ := List.lookup_eq_some_iff.mp looked
      exact .inl (List.mem_reverse.mp (by simp [split]))
    | none =>
      refine .inr ⟨fun inGiven => ?_, ?_⟩
      · obtain ⟨d, inGiven, same⟩ := List.mem_map.mp inGiven
        have found := lookup_of_mem reversed (List.mem_reverse.mpr inGiven)
        rw [same] at found
        cases looked.symm.trans found
      · rw [isFor.fields] at inFields
        obtain ⟨f, -, rfl⟩ := List.mem_map.mp inFields
        rfl

theorem literalExpr_record {kwargs : List (String × Expr)}
    (resolves : g.resolveType type = .ok (.record r))
    (made : g.literalFields r.fields entries = .ok kwargs) (named : g.classRef r.name = .ok cls) :
    g.literalExpr (.dict entries) (some type) frozen = .ok (.call (.ref cls) [] kwargs) := by
  rw [Group.literalExpr, resolveType?_some resolves]
  simp only [bind, Except.bind, made, named]
  rfl

/-- A value is what a literal of a record gives to a field with an entry. -/
def StandsFor (g : Group) (s : Surroundings) (citing : Bool) (r : Record) (entry : Value × Value)
    (w : Value) : Prop :=
  (entry.2 = .null → w = .null) ∧ ∀ f ∈ r.fields, f.name = entry.1 → entry.2 ≠ .null →
    (∀ hint, (g.hint f.type false).outcome = .ok hint → Represents g s hint w) ∧
      DenotesCiting g citing f.type entry.2 w

theorem exists_keywords {r : Record} {entries : List (Value × Value)}
    (each : ∀ entry ∈ entries, ∃ e w,
      g.literalExpr entry.2 (Group.fieldType? r.fields entry.1) false = .ok e ∧
        e.meaning s = .ok (.value w) ∧ StandsFor g s citing r entry w) :
    ∃ (kwargs : List (String × Expr)) (w : Value × Value → Value),
      g.literalFields r.fields entries = .ok kwargs ∧
      Expr.keywordMeanings s kwargs =
        .ok (entries.map fun entry => (Name.attributeName entry.1, .value (w entry))) ∧
      ∀ entry ∈ entries, StandsFor g s citing r entry (w entry) := by
  choose! e w written means stands using each
  refine ⟨entries.map fun entry => (Name.attributeName entry.1, e entry), w, ?_, ?_, stands⟩
  · rw [literalFields_eq_mapM]
    refine mapM_eq_map fun entry member => ?_
    rw [written entry member]
    rfl
  · rw [Expr.keywordMeanings_eq_mapM, List.mapM_map]
    refine mapM_eq_map fun entry member => ?_
    simp only [Function.comp, means entry member]
    rfl

theorem nodup_attributes (fieldsApart : (r.fields.map fun f => Name.attributeName f.name).Nodup)
    (apart : (entries.map (·.1)).Nodup)
    (names : ∀ entry ∈ entries, ∃ f ∈ r.fields, f.name = entry.1) :
    (entries.map fun entry => Name.attributeName entry.1).Nodup := by
  refine List.Nodup.map_on (fun entry member other known same => ?_) (List.Nodup.of_map _ apart)
  obtain ⟨f, inFields, fName⟩ := names entry member
  obtain ⟨f', inFields', fName'⟩ := names other known
  rw [← fName, ← fName'] at same
  cases field_of_attribute fieldsApart inFields inFields' same
  exact List.inj_on_of_nodup_map apart member known (fName.symm.trans fName')

theorem Primitive.represents_of_literal (stands : p.literal? v = some w)
    (hinted : p.hint = .ok hint) : Represents g s hint w := by
  obtain ⟨word, known, kind⟩ := Primitive.hint_of_literal stands
  cases hinted.symm.trans known
  exact .builtin kind

theorem represents_entries {keyHint valueHint : TypeHint} {hashes : Bool}
    {results : List (Value × Value)}
    (represent : ∀ entry ∈ results, Represents g s keyHint entry.1 ∧ Represents g s valueHint entry.2) :
    Represents g s (if frozen then .frozenset (.pair keyHint valueHint)
        else if hashes then .dict keyHint valueHint else .list (.pair keyHint valueHint))
      (if frozen then .frozenset (Value.distinct (Value.pairs results))
        else if hashes then .dict (Value.distinctEntries results)
        else .list (Value.pairs results)) := by
  have paired : ∀ w ∈ Value.pairs results, Represents g s (.pair keyHint valueHint) w :=
    represents_pairs_iff.mpr ⟨results, rfl, represent⟩
  cases frozen with
  | true => exact .frozenset fun w member => paired w (Value.mem_of_mem_distinct member)
  | false =>
    cases hashes with
    | false => exact .list paired
    | true =>
      refine .dict (fun entry member => ?_) (fun entry member => ?_)
      · obtain ⟨known, same⟩ := List.mem_map.mp (Value.mem_of_mem_distinctEntries member).1
        exact same.2 ▸ (represent _ same.1).1
      · obtain ⟨known, same⟩ := List.mem_map.mp (Value.mem_of_mem_distinctEntries member).2
        exact same.2 ▸ (represent _ same.1).2

theorem evaluates_entry (finds : s.FindsClasses g) {r : Record}
    (apart : (r.fields.map fun f => Name.attributeName f.name).Nodup)
    (data : ∀ f ∈ r.fields, g.ReachesData f.type) {entry : Value × Value}
    (named : ∃ name : String, entry.1 = .text name ∧ ∃ f ∈ r.fields, f.name = .text name)
    (each : entry.2 ≠ .null → ∀ f ∈ r.fields, f.name = entry.1 → ∀ hint,
      (g.hint f.type false).outcome = .ok hint → Evaluates g s citing f.type false hint entry.2) :
    ∃ e w, g.literalExpr entry.2 (Group.fieldType? r.fields entry.1) false = .ok e ∧
      e.meaning s = .ok (.value w) ∧ StandsFor g s citing r entry w := by
  obtain ⟨key, v⟩ := entry
  obtain ⟨name, rfl, f₀, known₀, named₀⟩ := named
  obtain ⟨f, known, fName, fieldType⟩ := fieldType?_eq_some known₀ named₀
  dsimp only at each ⊢
  rw [fieldType]
  by_cases null : v = .null
  · subst null
    obtain ⟨resolved, resolves⟩ := (data f known).dataType.resolves
    refine ⟨.literal .null, .null, ?_, rfl, fun _ => rfl, fun f _ _ present => absurd rfl present⟩
    rw [Group.literalExpr, resolveType?_some resolves]
    · rfl
    all_goals simp
  · obtain ⟨hint, hinted⟩ := finds.hint_exists (data f known) false
    obtain ⟨e, w, written, means, represents, denotes⟩ := each null f known fName hint hinted
    refine ⟨e, w, written, means, fun impossible => absurd impossible null, ?_⟩
    intro other otherKnown otherName _
    have same : Name.attributeName other.name = Name.attributeName f.name := by
      rw [otherName, fName]
    cases field_of_attribute apart otherKnown known same
    refine ⟨fun hint' hinted' => ?_, denotes⟩
    cases hinted.symm.trans hinted'
    exact represents

section
variable (hinted : (g.hintWithin fuel type frozen).outcome = .ok hint)
include hinted

theorem evaluates_scalar (resolves : g.resolveType type = .ok (.primitive p))
    (stands : (p.literal? v).isSome) :
    Evaluates g s citing type frozen hint v := by
  obtain ⟨below, hinted⟩ := Group.exists_step_of_hintWithin resolves hinted
  obtain ⟨w, stands⟩ := Option.isSome_iff_exists.mp stands
  exact ⟨.literal w, w, literalExpr_scalar resolves stands, rfl,
    Primitive.represents_of_literal stands hinted, .level (.scalar resolves stands)⟩

theorem evaluates_enum (finds : s.FindsClasses g) {e : Enum}
    (resolves : g.resolveType type = .ok (.enum e)) (member : n ∈ e.values.map (·.2)) :
    Evaluates g s citing type frozen hint (.int n) := by
  obtain ⟨below, hinted⟩ := Group.exists_step_of_hintWithin resolves hinted
  obtain ⟨cls, named, rfl⟩ := map_eq_ok.mp hinted
  obtain ⟨cls', t, named', found, members⟩ := finds.enum e (Group.declared_of_resolveType resolves)
  cases named.symm.trans named'
  obtain ⟨m, first, made⟩ := make_member members member
  have number : m.2 = n := by simpa using List.find?_some first
  refine ⟨.call (.ref cls) [.literal (.int n)] [], _, ?_,
    meaning_call_ref_single found (map_eq_ok.mpr ⟨_, made, rfl⟩), ?_, .level (.enum resolves first)⟩
  · rw [Group.literalExpr, resolveType?_some resolves]
    simp only [bind, Except.bind, named]
    rfl
  · refine .member (m := (Name.sanitize m.1, n)) found ?_
    rw [members, ← number]
    exact List.mem_map_of_mem (List.mem_of_find?_eq_some first)

theorem evaluates_list {element : FieldType} {items : List Value}
    (resolves : g.resolveType type = .ok (.list element)) (written : v.sequence? = some items)
    (hashes : frozen = true → g.Hashes [] true type)
    (each : ∀ item ∈ items, ∀ below inner, (frozen = true → g.Hashes [] true element) →
      (g.hintWithin below element frozen).outcome = .ok inner →
        Evaluates g s citing element frozen inner item) :
    Evaluates g s citing type frozen hint v := by
  obtain ⟨below, hinted⟩ := Group.exists_step_of_hintWithin resolves hinted
  obtain ⟨inner, known, made⟩ := bind_eq_ok.mp hinted
  cases made
  have elementHashes (isFrozen : frozen = true) : g.Hashes [] true element := by
    subst isFrozen
    exact ((hashes rfl).reason resolves).2
  obtain ⟨es, results, made, mean, size, denotes, represents⟩ :=
    exists_items fun item member => each item member below inner elementHashes known
  refine ⟨_, if frozen then .tuple results else .list results, literalExpr_list resolves written made,
    ?_, represents_sequence_iff.mpr ⟨results, rfl, represents⟩,
    .level (.list resolves written size denotes ?_)⟩
  · cases frozen with
    | false => exact meaning_list mean
    | true => exact meaning_tuple mean
  · cases frozen with
    | false => exact .inl rfl
    | true => exact .inr rfl

theorem evaluates_set (finds : s.FindsClasses g) {element : FieldType} {items : List Value}
    (data : g.ReachesData type) (resolves : g.resolveType type = .ok (.set element))
    (written : v.collection? = some items) (hashes : frozen = true → g.Hashes [] true type)
    (each : ∀ elementHashes, g.isHashable element true = .ok elementHashes → ∀ item ∈ items,
      ∀ below inner, (elementHashes = true → g.Hashes [] true element) →
        (g.hintWithin below element elementHashes).outcome = .ok inner →
          Evaluates g s citing element elementHashes inner item) :
    Evaluates g s citing type frozen hint v := by
  obtain ⟨below, hinted⟩ := Group.exists_step_of_hintWithin resolves hinted
  obtain ⟨elementHashes, answered, hinted⟩ := bind_eq_ok.mp hinted
  obtain ⟨inner, known, made⟩ := bind_eq_ok.mp hinted
  cases made
  have dataElement := data.held resolves (List.mem_singleton_self _)
  have hashed (yes : elementHashes = true) (w : Value) (represents : Represents g s inner w) :
      w.Hashed := by
    subst yes
    exact finds.laidOut.hashed_of_isHashable answered ⟨dataElement, below, inner, known, represents⟩
  have sameFlag : (frozen || elementHashes) = elementHashes := by
    cases frozen with
    | false => rfl
    | true => simp [((hashes rfl).reason resolves).2.answer answered]
  obtain ⟨es, results, made, mean, size, denotes, represents⟩ := exists_items fun item member =>
    each elementHashes answered item member below inner
      (fun yes => .of_isHashable (yes ▸ answered)) known
  obtain ⟨order, sorted, written'⟩ := literalExpr_set resolves answered written (sameFlag ▸ made)
  obtain ⟨arranged, arrangedMean, reordered⟩ := meanings_perm sorted mean
  have arrangedRepresent : ∀ w ∈ arranged, Represents g s inner w := fun w member =>
    represents w (reordered.mem_iff.mpr member)
  have arrangedHashed : elementHashes = true → ∀ w ∈ arranged, w.Hashed := fun yes w member =>
    hashed yes w (arrangedRepresent w member)
  refine ⟨_, _, written', meaning_collection finds.frozenset arrangedMean arrangedHashed, ?_,
    .level (.set resolves written size denotes reordered ?_)⟩
  · refine represents_collection_iff.mpr
      ⟨if elementHashes then Value.distinct arranged else arranged, ?_, fun w member => ?_⟩
    · cases elementHashes <;> rfl
    · cases elementHashes with
      | false => exact arrangedRepresent w member
      | true => exact arrangedRepresent w (Value.mem_of_mem_distinct member)
  · cases elementHashes with
    | false => exact .inl rfl
    | true =>
      cases frozen with
      | false => exact .inr (.inl rfl)
      | true => exact .inr (.inr rfl)

/-- A literal of a map evaluates if its keys do, frozen where they can be hashed, and its values,
    frozen as it is. -/
theorem evaluates_map (finds : s.FindsClasses g) {key value : FieldType}
    {entries : List (Value × Value)} (data : g.ReachesData type)
    (resolves : g.resolveType type = .ok (.map key value))
    (hashes : frozen = true → g.Hashes [] true type)
    (keys : ∀ keyHashes, g.isHashable key true = .ok keyHashes → ∀ entry ∈ entries, ∀ below keyHint,
      (keyHashes = true → g.Hashes [] true key) →
        (g.hintWithin below key keyHashes).outcome = .ok keyHint →
          Evaluates g s citing key keyHashes keyHint entry.1)
    (values : ∀ entry ∈ entries, ∀ below valueHint, (frozen = true → g.Hashes [] true value) →
      (g.hintWithin below value frozen).outcome = .ok valueHint →
        Evaluates g s citing value frozen valueHint entry.2) :
    Evaluates g s citing type frozen hint (.dict entries) := by
  obtain ⟨below, hinted⟩ := Group.exists_step_of_hintWithin resolves hinted
  obtain ⟨valueHint, valueKnown, hinted⟩ := bind_eq_ok.mp hinted
  obtain ⟨keyHashes, answered, hinted⟩ := bind_eq_ok.mp hinted
  obtain ⟨keyHint, keyKnown, made⟩ := bind_eq_ok.mp hinted
  cases made
  obtain ⟨dataKey, dataValue⟩ := data.entries resolves
  have reason (isFrozen : frozen = true) : g.Hashes [] true key ∧ g.Hashes [] true value :=
    ((hashes isFrozen).reason resolves).2
  -- Keys are frozen below a frozen map without a question, but the answer would be the same.
  have keyAnswered : g.isHashable key true = .ok keyHashes := by
    cases isFrozen : frozen with
    | false =>
      subst isFrozen
      exact answered
    | true =>
      rw [(reason isFrozen).1.isHashable, ← answered, isFrozen]
      rfl
  have keysHashed (yes : keyHashes = true) (w : Value) (represents : Represents g s keyHint w) :
      w.Hashed := by
    subst yes
    exact finds.laidOut.hashed_of_isHashable keyAnswered
      ⟨dataKey, below, keyHint, keyKnown, represents⟩
  have valuesHashed (isFrozen : frozen = true) (w : Value) (represents : Represents g s valueHint w) :
      w.Hashed := by
    have valueHashes := (reason isFrozen).2
    subst isFrozen
    exact finds.laidOut.hashed_of_isHashable valueHashes.isHashable
      ⟨dataValue, below, valueHint, valueKnown, represents⟩
  obtain ⟨pairs, results, made, mean, size, keysDenote, valuesDenote, represent⟩ := exists_entries
    (fun entry member => keys keyHashes keyAnswered entry member below keyHint
      (fun yes => .of_isHashable (yes ▸ keyAnswered)) keyKnown)
    (fun entry member => values entry member below valueHint
      (fun isFrozen => (reason isFrozen).2) valueKnown)
  refine ⟨_, _, literalExpr_map resolves keyAnswered made,
    meaning_entriesExpr finds.frozenset mean ?_ ?_, represents_entries represent,
    .level (.map resolves size keysDenote valuesDenote ?_)⟩
  · exact fun yes entry member => keysHashed yes _ (represent entry member).1
  · intro isFrozen
    refine ⟨(reason isFrozen).1.answer keyAnswered, fun entry member => ?_⟩
    exact valuesHashed isFrozen _ (represent entry member).2
  · cases frozen with
    | true => exact .inr (.inr rfl)
    | false =>
      cases keyHashes with
      | false => exact .inr (.inl rfl)
      | true => exact .inl rfl

/-- A literal of a record evaluates if those of its entries do that are not null. -/
theorem evaluates_record (finds : s.FindsClasses g) (attributes : g.AttributesApart) {r : Record}
    {entries : List (Value × Value)} (data : g.ReachesData type)
    (resolves : g.resolveType type = .ok (.record r)) (apart : (entries.map (·.1)).Nodup)
    (texts : ∀ entry ∈ entries, ∃ name : String, entry.1 = .text name ∧
      ∃ f ∈ r.fields, f.name = .text name)
    (each : ∀ entry ∈ entries, entry.2 ≠ .null → ∀ f ∈ r.fields, f.name = entry.1 → ∀ inner,
      (g.hint f.type false).outcome = .ok inner → Evaluates g s citing f.type false inner entry.2) :
    Evaluates g s citing type frozen hint (.dict entries) := by
  obtain ⟨below, hinted⟩ := Group.exists_step_of_hintWithin resolves hinted
  obtain ⟨cls, named, rfl⟩ := map_eq_ok.mp hinted
  have declared : r ∈ g.records := Group.declared_of_resolveType resolves
  have fieldsApart := attributes r declared
  have names (entry : Value × Value) (member : entry ∈ entries) :
      ∃ f ∈ r.fields, f.name = entry.1 := by
    obtain ⟨name, same, f, known, fName⟩ := texts entry member
    exact ⟨f, known, fName.trans same.symm⟩
  obtain ⟨cls', t, named', found, isFor⟩ := finds.record r declared
  cases named.symm.trans named'
  obtain ⟨kwargs, w, written, mean, stands⟩ := exists_keywords fun entry member =>
    evaluates_entry finds fieldsApart (fun f known => data.field resolves known)
      (texts entry member) (each entry member)
  let given := entries.map fun entry => (Name.attributeName entry.1, w entry)
  have givenApart : (given.map (·.1)).Nodup := by
    have keys : given.map (·.1) = entries.map fun entry => Name.attributeName entry.1 := by
      simp [given]
    exact keys ▸ nodup_attributes fieldsApart apart names
  have known : ∀ d ∈ given, d.1 ∈ t.fields.map (·.1) := by
    intro d member
    obtain ⟨entry, inEntries, rfl⟩ := List.mem_map.mp member
    obtain ⟨f, inFields, fName⟩ := names entry inEntries
    rw [isFor.fields, List.map_map]
    exact List.mem_map.mpr ⟨f, inFields, congrArg Name.attributeName fName⟩
  obtain ⟨made, called, sameNames, allGiven, others⟩ := make_record isFor givenApart known
  -- A field that is present comes from the one entry with its attribute.
  have origin : ∀ field ∈ made, field.2 ≠ .null → ∃ entry ∈ entries,
      field = (Name.attributeName entry.1, w entry) ∧ entry.2 ≠ .null := by
    intro field member present
    rcases others field member with inGiven | ⟨-, missing⟩
    · obtain ⟨entry, inEntries, rfl⟩ := List.mem_map.mp inGiven
      exact ⟨entry, inEntries, rfl, fun null => present ((stands entry inEntries).1 null)⟩
    · exact absurd missing present
  refine ⟨.call (.ref cls) [] kwargs, .record t.cls made, literalExpr_record resolves written named,
    ?_, ?_, ?_⟩
  · have plain : (entries.map fun entry => (Name.attributeName entry.1, Object.value (w entry))).map
        (fun d => (d.1, d.2.toValue)) = given := by
      simp [given, Function.comp_def, Object.toValue]
    simp only [Expr.meaning, Expr.meanings, found, mean, bind, Except.bind, Object.apply, plain,
      List.map_nil, called]
    rfl
  · refine .record declared named found sameNames ?_
    intro field member present f inFields same hint hinted
    obtain ⟨entry, inEntries, rfl, entryPresent⟩ := origin field member present
    obtain ⟨f', inFields', fName'⟩ := names entry inEntries
    rw [← fName'] at same
    cases field_of_attribute fieldsApart inFields inFields' same
    exact ((stands entry inEntries).2 f inFields fName' entryPresent).1 hint hinted
  · have size : entries.length = (entries.map w).length := by simp
    refine .level (.record resolves size ?_ ?_ ?_ ?_)
    · rw [← List.map_prod_left_eq_zip, List.forall_mem_map]
      exact fun entry inEntries null => (stands entry inEntries).1 null
    · rw [← List.map_prod_left_eq_zip, List.forall_mem_map]
      exact fun entry inEntries present f inFields fName =>
        ((stands entry inEntries).2 f inFields fName present).2
    · rw [← List.map_prod_left_eq_zip, List.forall_mem_map]
      exact fun entry inEntries => allGiven _ (List.mem_map_of_mem inEntries)
    · intro field member missing
      by_contra present
      obtain ⟨entry, inEntries, rfl, -⟩ := origin field member present
      exact missing entry inEntries rfl

end
end

/-! ### Citations -/

def Value.entries : Value → List (Value × Value)
  | .dict entries => entries
  | _ => []

namespace Group

/-- The positions right below a literal: their types, whether they are frozen, and what stands
    there. Set elements and keys are frozen if they can be hashed, the fields of a record never. -/
def positions (g : Group) (type : FieldType) (frozen : Bool) (v : Value) :
    List (FieldType × Bool × Value) :=
  match g.resolveType type with
  | .ok (.list element) => (v.sequence?.getD []).map (element, frozen, ·)
  | .ok (.set element) =>
    match g.isHashable element true with
    | .ok hashes => (v.collection?.getD []).map (element, frozen || hashes, ·)
    | .error _ => []
  | .ok (.map key value) =>
    match g.isHashable key true with
    | .ok hashes =>
      v.entries.flatMap fun entry => [(key, hashes, entry.1), (value, frozen, entry.2)]
    | .error _ => []
  | .ok (.record r) =>
    v.entries.flatMap fun entry => (fieldType? r.fields entry.1).toList.map (·, false, entry.2)
  | _ => []

/-- A literal at a position of a type cites a constant, at a position that is frozen or not. What
    the literal of a constant cites is cited where that constant is written, which is not frozen. -/
inductive Cites (g : Group) : FieldType → Bool → Value → Bool → Constant → Prop where
  | here {type : FieldType} {frozen : Bool} {name : String} {c : Constant}
      (cites : g.resolveValue name = .ok (.constant c)) : Cites g type frozen (.ref name) frozen c
  | through {type : FieldType} {frozen there : Bool} {name : String} {c d : Constant}
      (cites : g.resolveValue name = .ok (.constant c))
      (inside : Cites g c.type false c.value there d) : Cites g type frozen (.ref name) there d
  | within {type : FieldType} {frozen there : Bool} {v : Value} {d : Constant}
      (part : FieldType × Bool × Value) (position : part ∈ g.positions type frozen v)
      (inside : Cites g part.1 part.2.1 part.2.2 there d) : Cites g type frozen v there d

/-- A type that is no container, so that it has one representation, frozen or not. -/
def IsFlat (g : Group) (type : FieldType) : Prop :=
  ∃ resolved, g.resolveType type = .ok resolved ∧ resolved.container? = none

/-- All constants that a literal cites at frozen positions are of flat types. -/
def FrozenCitesFlat (g : Group) (type : FieldType) (frozen : Bool) (v : Value) : Prop :=
  ∀ c, g.Cites type frozen v true c → g.IsFlat c.type

end Group

/-- References to constants are written, and find what the literals of the constants mean. -/
def Surroundings.HoldsConstants (s : Surroundings) (g : Group) : Prop :=
  ∀ name c, g.resolveValue name = .ok (.constant c) → ∃ r, g.constantRef c = .ok r ∧
    ∀ e, g.literalExpr c.value (some c.type) false = .ok e →
      ∀ o, s.ref r = .ok o ↔ e.meaning s = .ok o

section
variable {g : Group} {s : Surroundings} {type : FieldType} {frozen : Bool} {hint : TypeHint}
variable {v : Value} {c : Constant} {hashes citing : Bool} {r : Record} {name : String} {fuel : Nat}

namespace Group

variable {element other : FieldType} {items : List Value} {entries : List (Value × Value)}
  {resolved : Resolved}

theorem positions_list (resolves : g.resolveType type = .ok (.list element))
    (written : v.sequence? = some items) :
    g.positions type frozen v = items.map (element, frozen, ·) := by
  simp [positions, resolves, written]

theorem positions_set (resolves : g.resolveType type = .ok (.set element))
    (answered : g.isHashable element true = .ok hashes) (written : v.collection? = some items) :
    g.positions type frozen v = items.map (element, frozen || hashes, ·) := by
  simp [positions, resolves, answered, written]

theorem positions_map {key value : FieldType}
    (resolves : g.resolveType type = .ok (.map key value))
    (answered : g.isHashable key true = .ok hashes) :
    g.positions type frozen (.dict entries) =
      entries.flatMap fun entry => [(key, hashes, entry.1), (value, frozen, entry.2)] := by
  simp [positions, resolves, answered, Value.entries]

theorem positions_record (resolves : g.resolveType type = .ok (.record r)) :
    g.positions type frozen (.dict entries) =
      entries.flatMap fun entry => (fieldType? r.fields entry.1).toList.map (·, false, entry.2) := by
  simp [positions, resolves, Value.entries]

theorem positions_leaf (sequence : v.sequence? = none) (collection : v.collection? = none)
    (entries : v.entries = []) : g.positions type frozen v = [] := by
  unfold positions
  split
  · simp [sequence]
  · split <;> simp [collection]
  · split <;> simp [entries]
  · simp [entries]
  · rfl

theorem Cites.exists_position {there : Bool} (cited : g.Cites type frozen v there c)
    (plain : ∀ name, v ≠ .ref name) :
    ∃ part ∈ g.positions type frozen v, g.Cites part.1 part.2.1 part.2.2 there c := by
  cases cited with
  | here cites | through cites inside => exact absurd rfl (plain _)
  | within part position inside => exact ⟨part, position, inside⟩

theorem FrozenCitesFlat.within {part : FieldType × Bool × Value}
    (flat : g.FrozenCitesFlat type frozen v) (position : part ∈ g.positions type frozen v) :
    g.FrozenCitesFlat part.1 part.2.1 part.2.2 :=
  fun c inside => flat c (.within part position inside)

theorem FrozenCitesFlat.through (flat : g.FrozenCitesFlat type frozen (.ref name))
    (cites : g.resolveValue name = .ok (.constant c)) : g.FrozenCitesFlat c.type false c.value :=
  fun d inside => flat d (.through cites inside)

theorem FrozenCitesFlat.of_positions (plain : ∀ name, v ≠ .ref name)
    (each : ∀ part ∈ g.positions type frozen v, g.FrozenCitesFlat part.1 part.2.1 part.2.2) :
    g.FrozenCitesFlat type frozen v := by
  intro c cited
  obtain ⟨part, position, inside⟩ := cited.exists_position plain
  exact each part position c inside

theorem FrozenCitesFlat.of_constant (cites : g.resolveValue name = .ok (.constant c))
    (own : frozen = true → g.IsFlat c.type) (inside : g.FrozenCitesFlat c.type false c.value) :
    g.FrozenCitesFlat type frozen (.ref name) := by
  intro d cited
  cases cited with
  | here cites' =>
    cases cites.symm.trans cites'
    exact own rfl
  | through cites' cited =>
    cases cites.symm.trans cites'
    exact inside d cited
  | within part position _ =>
    rw [positions_leaf rfl rfl rfl] at position
    cases position

theorem ReachesData.of_resolved (data : g.ReachesData type)
    (position : g.resolveType type = .ok resolved) (declared : g.resolveType other = .ok resolved) :
    g.ReachesData other := by
  have self : g.DataType other := by
    cases data.dataType with
    | primitive is known => exact .primitive (declared.trans (position.symm.trans is)) known
    | enum is => exact .enum (declared.trans (position.symm.trans is))
    | record is => exact .record (declared.trans (position.symm.trans is))
    | list is inner => exact .list (declared.trans (position.symm.trans is)) inner
    | set is inner => exact .set (declared.trans (position.symm.trans is)) inner
    | map is keys values => exact .map (declared.trans (position.symm.trans is)) keys values
  intro part reached
  suffices part = other ∨ g.Reaches type part from
    this.elim (fun same => same ▸ self) (data part)
  induction reached with
  | self => exact .inl rfl
  | held _ resolves member ih =>
    rcases ih with rfl | reached
    · cases declared.symm.trans resolves
      exact .inr (.held .self position member)
    · exact .inr (reached.held resolves member)
  | field _ resolves member ih =>
    rcases ih with rfl | reached
    · cases declared.symm.trans resolves
      exact .inr (.field .self position member)
    · exact .inr (reached.field resolves member)

theorem hintWithin_of_resolved (position : g.resolveType type = .ok resolved)
    (declared : g.resolveType other = .ok resolved)
    (hinted : (g.hintWithin fuel type frozen).outcome = .ok hint) :
    (g.hintWithin fuel other frozen).outcome = .ok hint := by
  cases fuel with
  | zero => cases hinted
  | succ fuel =>
    rw [outcome_hintWithin_succ, position] at hinted
    rw [outcome_hintWithin_succ, declared]
    exact hinted

theorem hintWithin_of_isFlat (flat : g.IsFlat type)
    (hinted : (g.hintWithin fuel type frozen).outcome = .ok hint) (other : Bool) :
    (g.hintWithin fuel type other).outcome = .ok hint := by
  obtain ⟨resolved, resolves, leaf⟩ := flat
  cases fuel with
  | zero => cases hinted
  | succ fuel =>
    rw [outcome_hintWithin_succ, resolves] at hinted ⊢
    cases resolved with
    | list _ | set _ | map _ _ => cases leaf
    | _ => exact hinted

end Group

theorem literalExpr_ref {type : Option FieldType} {r : Ref}
    (cites : g.resolveValue name = .ok (.constant c)) (named : g.constantRef c = .ok r) :
    g.literalExpr (.ref name) type frozen = .ok (.ref r) := by
  rw [Group.literalExpr, Group.referentRef, cites]
  simp [bind, Except.bind, named, Functor.map, Except.map]

theorem fieldType?_of_field {f : Field} {key : Value}
    (apart : (r.fields.map fun f => Name.attributeName f.name).Nodup) (known : f ∈ r.fields)
    (named : ∃ name : String, key = .text name ∧ ∃ f ∈ r.fields, f.name = .text name)
    (same : f.name = key) : Group.fieldType? r.fields key = some f.type := by
  obtain ⟨name, rfl, -⟩ := named
  obtain ⟨other, otherKnown, otherName, found⟩ := fieldType?_eq_some known same
  have sameAttribute : Name.attributeName f.name = Name.attributeName other.name := by
    rw [same, otherName]
  cases field_of_attribute apart known otherKnown sameAttribute
  exact found

variable (finds : s.FindsClasses g) (attributes : g.AttributesApart) (data : g.ReachesData type)
  (hashed : frozen = true → g.Hashes [] true type)
  (hinted : (g.hintWithin fuel type frozen).outcome = .ok hint)
include finds attributes data hashed hinted

/-- A literal whose citations at frozen positions are flat evaluates to a value of the annotation of
    its type. -/
theorem WellTypedCiting.evaluates (holds : citing = true → s.HoldsConstants g)
    (typed : WellTypedCiting g citing type v)
    (flat : citing = true → g.FrozenCitesFlat type frozen v) :
    Evaluates g s citing type frozen hint v := by
  induction typed generalizing frozen fuel hint with
  | scalar resolves stands => exact evaluates_scalar hinted resolves stands
  | enum resolves member => exact evaluates_enum hinted finds resolves member
  | @list type element v items resolves written each ih =>
    refine evaluates_list hinted resolves written hashed ?_
    intro item member below inner elementHashes known
    have position : (element, frozen, item) ∈ g.positions type frozen v := by
      rw [Group.positions_list resolves written]
      exact List.mem_map_of_mem member
    exact ih item member (data.held resolves (List.mem_singleton_self _)) elementHashes known
      fun allowed => (flat allowed).within position
  | @set type element v items resolves written each ih =>
    refine evaluates_set hinted finds data resolves written hashed ?_
    intro answer answered item member below inner elementHashes known
    have sameFlag : (frozen || answer) = answer := by
      cases frozen with
      | false => rfl
      | true => simp [((hashed rfl).reason resolves).2.answer answered]
    have position : (element, answer, item) ∈ g.positions type frozen v := by
      rw [Group.positions_set resolves answered written, sameFlag]
      exact List.mem_map_of_mem member
    exact ih item member (data.held resolves (List.mem_singleton_self _)) elementHashes known
      fun allowed => (flat allowed).within position
  | @map type key value entries resolves keys values keysIh valuesIh =>
    obtain ⟨dataKey, dataValue⟩ := data.entries resolves
    obtain ⟨answer, answered⟩ := dataKey.isHashable_answers
    have positions (entry : Value × Value) (member : entry ∈ entries) :
        (key, answer, entry.1) ∈ g.positions type frozen (.dict entries) ∧
          (value, frozen, entry.2) ∈ g.positions type frozen (.dict entries) := by
      rw [Group.positions_map resolves answered]
      exact ⟨List.mem_flatMap.mpr ⟨entry, member, by simp⟩,
        List.mem_flatMap.mpr ⟨entry, member, by simp⟩⟩
    refine evaluates_map hinted finds data resolves hashed ?_ ?_
    · intro same answered' entry member below keyHint keyHashes known
      cases answered.symm.trans answered'
      exact keysIh entry member dataKey keyHashes known
        fun allowed => (flat allowed).within (positions entry member).1
    · intro entry member below valueHint valueHashes known
      exact valuesIh entry member dataValue valueHashes known
        fun allowed => (flat allowed).within (positions entry member).2
  | @record type r entries resolves apart names each ih =>
    refine evaluates_record hinted finds attributes data resolves apart names ?_
    intro entry member present f known fName inner hinted
    have position : (f.type, false, entry.2) ∈ g.positions type frozen (.dict entries) := by
      rw [Group.positions_record resolves]
      refine List.mem_flatMap.mpr ⟨entry, member, ?_⟩
      rw [fieldType?_of_field (attributes r (Group.declared_of_resolveType resolves)) known
        (names entry member) fName]
      simp
    exact ih entry member present f known fName (data.field resolves known)
      (fun impossible => by cases impossible) hinted fun allowed => (flat allowed).within position
  | @constant type name c resolved allowed cites position declared value ih =>
    obtain ⟨r, named, found⟩ := holds allowed name c cites
    -- The constant is written unfrozen; at a frozen position its type is flat.
    have plain : (g.hintWithin fuel c.type false).outcome = .ok hint := by
      have same := Group.hintWithin_of_resolved position declared hinted
      cases frozen with
      | false => exact same
      | true => exact Group.hintWithin_of_isFlat (flat allowed c (.here cites)) same false
    obtain ⟨e, w, written, means, represents, denotes⟩ :=
      ih (data.of_resolved position declared) (fun impossible => by cases impossible) plain
        fun allowed => (flat allowed).through cites
    exact ⟨.ref r, w, literalExpr_ref cites named, (found e written _).mpr means, represents,
      .constant allowed cites denotes⟩

theorem WellTyped.evaluates (typed : WellTyped g type v) :
    Evaluates g s false type frozen hint v :=
  WellTypedCiting.evaluates finds attributes data hashed hinted (fun no => by cases no) typed
    fun no => by cases no

theorem WellCited.evaluates (holds : s.HoldsConstants g) (typed : WellCited g type v)
    (flat : g.FrozenCitesFlat type frozen v) :
    Evaluates g s true type frozen hint v :=
  WellTypedCiting.evaluates finds attributes data hashed hinted (fun _ => holds) typed fun _ => flat

end

end IdlGen
