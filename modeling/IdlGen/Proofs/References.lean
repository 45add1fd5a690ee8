import IdlGen.Companion.Field
import IdlGen.Proofs.Annotations
import IdlGen.Proofs.Layouts

/-!
What generated expressions refer to. Which references these are is a parameter, so that one walk
over literals (`writtenWith_literalExpr`) and strategies (`writtenWith_draw`) serves every
question about their references and names.
-/
namespace IdlGen

open Outcome

variable {kwargs : List (String × Expr)} {r : Record} {es args : List Expr} {e constructor : Expr}
  {id : String} {hashes : Bool} {pairs : List (Expr × Expr)}

/-- No segment of a name is reserved. -/
def Name.Unreserved (name : String) : Prop :=
  ∀ segment ∈ Text.split '.' name, isReserved segment = false

instance (name : String) : Decidable (Name.Unreserved name) :=
  inferInstanceAs (Decidable (∀ segment ∈ _, _))

namespace Expr

variable {node : Expr} {entries : List (Expr × Expr)} {r : Ref} {items : List Expr}

theorem mem_nodesOfAll : node ∈ nodesOfAll es ↔ ∃ e ∈ es, node ∈ e.nodes := by
  induction es with
  | nil => simp [nodesOfAll]
  | cons e rest ih => simp [nodesOfAll, ih]

theorem mem_nodesOfEntries :
    node ∈ nodesOfEntries entries ↔
      ∃ entry ∈ entries, node ∈ entry.1.nodes ∨ node ∈ entry.2.nodes := by
  induction entries with
  | nil => simp [nodesOfEntries]
  | cons entry rest ih => simp [nodesOfEntries, ih, or_assoc]

theorem mem_nodesOfKeywords :
    node ∈ nodesOfKeywords kwargs ↔ ∃ arg ∈ kwargs, node ∈ arg.2.nodes := by
  induction kwargs with
  | nil => simp [nodesOfKeywords]
  | cons arg rest ih => simp [nodesOfKeywords, ih]

theorem mem_refs : r ∈ e.refs ↔ ref r ∈ e.nodes := by
  rw [refs, List.mem_filterMap]
  constructor
  · rintro ⟨node, member, same⟩
    cases node with
    | ref other =>
      cases same
      exact member
    | _ => cases same
  · exact fun member => ⟨ref r, member, rfl⟩

/-! ### References and names of given sorts -/

def Allowed (Q : Ref → Prop) (N K : String → Prop) : Expr → Prop
  | ref r => Q r
  | name id => N id
  | attr _ a => K a
  | call _ _ kwargs => ∀ arg ∈ kwargs, K arg.1
  | letAll _ bindings => ∀ binding ∈ bindings, K binding.1
  | rebuild _ fields => ∀ field ∈ fields, K field.1
  | _ => True

def WrittenWith (Q : Ref → Prop) (N K : String → Prop) (e : Expr) : Prop :=
  ∀ node ∈ e.nodes, node.Allowed Q N K

variable {Q : Ref → Prop} {N K : String → Prop}

theorem WrittenWith.of_mem_refs (written : e.WrittenWith Q N K) (member : r ∈ e.refs) :
    Q r := written _ (mem_refs.mp member)

theorem WrittenWith.of_name (written : e.WrittenWith Q N K) (member : name id ∈ e.nodes) :
    N id := written _ member

theorem writtenWith_of_nodes {rest : List Expr} (split : e.nodes = e :: rest) :
    e.WrittenWith Q N K ↔ e.Allowed Q N K ∧ ∀ node ∈ rest, node.Allowed Q N K := by
  rw [WrittenWith, split, List.forall_mem_cons]

theorem forall_nodesOfAll :
    (∀ node ∈ nodesOfAll es, node.Allowed Q N K) ↔ ∀ e ∈ es, e.WrittenWith Q N K := by
  simp only [mem_nodesOfAll]
  exact ⟨fun all e known node member => all node ⟨e, known, member⟩,
    fun each node ⟨e, known, member⟩ => each e known node member⟩

theorem forall_nodesOfEntries :
    (∀ node ∈ nodesOfEntries entries, node.Allowed Q N K) ↔
      ∀ entry ∈ entries, entry.1.WrittenWith Q N K ∧ entry.2.WrittenWith Q N K := by
  simp only [mem_nodesOfEntries]
  constructor
  · intro all entry known
    exact ⟨fun node member => all node ⟨entry, known, .inl member⟩,
      fun node member => all node ⟨entry, known, .inr member⟩⟩
  · rintro each node ⟨entry, known, inKey | inValue⟩
    · exact (each entry known).1 node inKey
    · exact (each entry known).2 node inValue

theorem forall_nodesOfKeywords :
    (∀ node ∈ nodesOfKeywords kwargs, node.Allowed Q N K) ↔
      ∀ arg ∈ kwargs, arg.2.WrittenWith Q N K := by
  simp only [mem_nodesOfKeywords]
  exact ⟨fun all arg known node member => all node ⟨arg, known, member⟩,
    fun each node ⟨arg, known, member⟩ => each arg known node member⟩

@[simp]
theorem writtenWith_ref : (ref r).WrittenWith Q N K ↔ Q r :=
  (writtenWith_of_nodes rfl).trans (and_iff_left (List.forall_mem_nil _))

@[simp]
theorem writtenWith_name : (name id).WrittenWith Q N K ↔ N id :=
  (writtenWith_of_nodes rfl).trans (and_iff_left (List.forall_mem_nil _))

@[simp]
theorem writtenWith_literal {v : Value} : (literal v).WrittenWith Q N K :=
  (writtenWith_of_nodes rfl).mpr ⟨trivial, List.forall_mem_nil _⟩

@[simp]
theorem writtenWith_attr {a : String} :
    (attr e a).WrittenWith Q N K ↔ K a ∧ e.WrittenWith Q N K := writtenWith_of_nodes rfl

@[simp]
theorem writtenWith_list : (list items).WrittenWith Q N K ↔ ∀ e ∈ items, e.WrittenWith Q N K := by
  rw [← forall_nodesOfAll]
  exact (writtenWith_of_nodes rfl).trans (and_iff_right trivial)

@[simp]
theorem writtenWith_tuple : (tuple items).WrittenWith Q N K ↔ ∀ e ∈ items, e.WrittenWith Q N K := by
  rw [← forall_nodesOfAll]
  exact (writtenWith_of_nodes rfl).trans (and_iff_right trivial)

@[simp]
theorem writtenWith_set : (set items).WrittenWith Q N K ↔ ∀ e ∈ items, e.WrittenWith Q N K := by
  rw [← forall_nodesOfAll]
  exact (writtenWith_of_nodes rfl).trans (and_iff_right trivial)

@[simp]
theorem writtenWith_dict :
    (dict entries).WrittenWith Q N K ↔
      ∀ entry ∈ entries, entry.1.WrittenWith Q N K ∧ entry.2.WrittenWith Q N K := by
  rw [← forall_nodesOfEntries]
  exact (writtenWith_of_nodes rfl).trans (and_iff_right trivial)

@[simp]
theorem writtenWith_call {func : Expr} :
    (call func args kwargs).WrittenWith Q N K ↔
      func.WrittenWith Q N K ∧ (∀ e ∈ args, e.WrittenWith Q N K) ∧
        ∀ arg ∈ kwargs, K arg.1 ∧ arg.2.WrittenWith Q N K := by
  rw [← forall_nodesOfAll, forall₂_and, ← forall_nodesOfKeywords, writtenWith_of_nodes rfl,
    List.forall_mem_append, List.forall_mem_append, and_assoc]
  exact and_left_comm.trans (and_congr_right fun _ => and_left_comm)

@[simp]
theorem writtenWith_letAll {bindings : List (String × Expr)} :
    (letAll constructor bindings).WrittenWith Q N K ↔
      Q (Ref.strategy "builds") ∧ constructor.WrittenWith Q N K ∧
        ∀ binding ∈ bindings, K binding.1 ∧ binding.2.WrittenWith Q N K := by
  rw [forall₂_and, ← forall_nodesOfKeywords, writtenWith_of_nodes rfl, List.forall_mem_cons,
    List.forall_mem_append]
  exact and_left_comm.trans (and_congr_right fun _ => and_left_comm)

@[simp]
theorem writtenWith_rebuild {target : Expr} {fields : List (String × Expr)} :
    (rebuild target fields).WrittenWith Q N K ↔
      Q Ref.replace ∧ target.WrittenWith Q N K ∧
        ∀ field ∈ fields, K field.1 ∧ field.2.WrittenWith Q N K := by
  rw [forall₂_and, ← forall_nodesOfKeywords, writtenWith_of_nodes rfl, List.forall_mem_cons,
    List.forall_mem_append]
  exact and_left_comm.trans (and_congr_right fun _ => and_left_comm)

end Expr

/-! ### Literals -/

def Value.collection? : Value → Option (List Value)
  | .list items => some items
  | .tuple items => some items
  | .set items => some items
  | .frozenset items => some items
  | _ => none

structure Value.IsLeaf (v : Value) : Prop where
  items : v.collection? = none
  entries : ∀ entries, v ≠ .dict entries

theorem literalItems_eq_mapM (g : Group) (type : Option FieldType) (frozen : Bool)
    (items : List Value) :
    g.literalItems type frozen items = items.mapM fun v => g.literalExpr v type frozen := by
  induction items with
  | nil => rw [Group.literalItems]; rfl
  | cons v rest ih => rw [Group.literalItems, List.mapM_cons, ih]

theorem literalEntries_eq_mapM (g : Group) (keyType valueType : Option FieldType)
    (hashes frozen : Bool) (entries : List (Value × Value)) :
    g.literalEntries keyType valueType hashes frozen entries = entries.mapM fun entry => do
      return (← g.literalExpr entry.1 keyType hashes, ← g.literalExpr entry.2 valueType frozen) := by
  induction entries with
  | nil => rw [Group.literalEntries]; rfl
  | cons entry rest ih =>
    rw [Group.literalEntries, List.mapM_cons, ih]
    simp

theorem literalFields_eq_mapM (g : Group) (fields : List Field) (entries : List (Value × Value)) :
    g.literalFields fields entries = entries.mapM fun entry => do
      return (Name.attributeName entry.1,
        ← g.literalExpr entry.2 (Group.fieldType? fields entry.1) false) := by
  induction entries with
  | nil => rw [Group.literalFields]; rfl
  | cons entry rest ih =>
    rw [Group.literalFields, List.mapM_cons, ih]
    simp

namespace Group

open Expr

def itemType? : Option Resolved → Option FieldType
  | some (.list element) => some element
  | some (.set element) => some element
  | _ => none

/-- The types of the keys and values of a literal with entries that is no record. -/
def entryTypes? : Option Resolved → Option FieldType × Option FieldType
  | some (.map key value) => (some key, some value)
  | _ => (none, none)

variable {g : Group} {resolved : Option Resolved} {isFrozen : Bool} {v : Value}
  {type : Option FieldType} {entries : List (Value × Value)}

theorem element_shapeOf {writtenAsSet : Bool} {shape : Shape}
    (shaped : g.shapeOf writtenAsSet resolved = .ok shape) :
    shape.element = itemType? resolved := by
  unfold shapeOf at shaped
  split at shaped
  · cases shaped
    rfl
  · obtain ⟨hashes, -, made⟩ := bind_eq_ok.mp shaped
    cases made
    rfl
  · cases shaped
    rename_i resolved notList notSet
    cases resolved with
    | list element => exact absurd rfl (notList element)
    | set element => exact absurd rfl (notSet element)
    | _ => rfl
  · cases shaped
    rfl

theorem types_entryTypes {keyType valueType : Option FieldType}
    (typed : g.entryTypes resolved = .ok (keyType, valueType, hashes)) :
    (keyType, valueType) = entryTypes? resolved := by
  unfold entryTypes at typed
  split at typed
  · obtain ⟨_, -, made⟩ := bind_eq_ok.mp typed
    cases made
    rfl
  · cases typed
    rename_i notMap
    unfold entryTypes?
    split
    · exact absurd rfl (notMap _ _)
    · rfl

inductive LiteralForm (g : Group) (type : Option FieldType) (isFrozen : Bool) :
    Value → Expr → Prop where
  | ref {name : String} {r : Ref} (known : g.referentRef name = .ok r) :
      LiteralForm g type isFrozen (.ref name) (.ref r)
  | record {entries : List (Value × Value)} {r : Record} {kwargs : List (String × Expr)} {cls : Ref}
      (resolves : g.resolveType? type = .ok (some (.record r)))
      (written : g.literalFields r.fields entries = .ok kwargs)
      (named : g.classRef r.name = .ok cls) :
      LiteralForm g type isFrozen (.dict entries) (.call (.ref cls) [] kwargs)
  | entries {entries : List (Value × Value)} {resolved : Option Resolved} {hashes : Bool}
      {pairs : List (Expr × Expr)} (resolves : g.resolveType? type = .ok resolved)
      (plain : ∀ r, resolved ≠ some (.record r))
      (written : g.literalEntries (entryTypes? resolved).1 (entryTypes? resolved).2 hashes isFrozen
        entries = .ok pairs) :
      LiteralForm g type isFrozen (.dict entries) (entriesExpr isFrozen hashes pairs)
  | items {v : Value} {items : List Value} {resolved : Option Resolved} {shape : Shape}
      {exprs order : List Expr} (held : v.collection? = some items)
      (resolves : g.resolveType? type = .ok resolved)
      (written : g.literalItems (itemType? resolved) (isFrozen || shape.hashes) items = .ok exprs)
      (arranged : exprs.Perm order) : LiteralForm g type isFrozen v (shape.expr isFrozen order)
  | enum {n : Int} {e : Enum} {cls : Ref} (resolves : g.resolveType? type = .ok (some (.enum e)))
      (named : g.classRef e.name = .ok cls) :
      LiteralForm g type isFrozen (.int n) (.call (.ref cls) [.literal (.int n)] [])
  | scalar {v w : Value} (isLeaf : v.IsLeaf) (plain : ∀ name, v ≠ .ref name) :
      LiteralForm g type isFrozen v (.literal w)

theorem literalForm (made : g.literalExpr v type isFrozen = .ok e) :
    LiteralForm g type isFrozen v e := by
  have scalar {v : Value} {resolved : Option Resolved} (isLeaf : v.IsLeaf)
      (plain : ∀ name, v ≠ .ref name) (made : scalarExpr v resolved = .ok e) :
      LiteralForm g type isFrozen v e := by
    have isLiteral : ∃ u, e = literal u := by
      unfold scalarExpr at made
      grind
    obtain ⟨u, rfl⟩ := isLiteral
    exact .scalar isLeaf plain
  cases v with
  | ref name =>
    rw [literalExpr] at made
    obtain ⟨r, known, rfl⟩ := map_eq_ok.mp made
    exact .ref known
  | dict entries =>
    rw [literalExpr] at made
    obtain ⟨resolved, resolves, made⟩ := bind_eq_ok.mp made
    split at made
    · obtain ⟨kwargs, written, made⟩ := bind_eq_ok.mp made
      obtain ⟨cls, named, made⟩ := bind_eq_ok.mp made
      cases made
      exact .record resolves written named
    · rename_i plain
      obtain ⟨⟨keyType, valueType, hashes⟩, typed, made⟩ := bind_eq_ok.mp made
      obtain ⟨pairs, written, made⟩ := bind_eq_ok.mp made
      cases made
      obtain ⟨rfl, rfl⟩ := Prod.mk.inj (types_entryTypes typed)
      exact .entries resolves plain written
  | list items | tuple items =>
    rw [literalExpr] at made
    obtain ⟨resolved, resolves, made⟩ := bind_eq_ok.mp made
    obtain ⟨shape, shaped, made⟩ := bind_eq_ok.mp made
    obtain ⟨exprs, written, made⟩ := bind_eq_ok.mp made
    cases made
    exact .items rfl resolves (element_shapeOf shaped ▸ written) (.refl _)
  | set items | frozenset items =>
    rw [literalExpr] at made
    obtain ⟨resolved, resolves, made⟩ := bind_eq_ok.mp made
    obtain ⟨shape, shaped, made⟩ := bind_eq_ok.mp made
    obtain ⟨exprs, written, made⟩ := bind_eq_ok.mp made
    cases made
    exact .items rfl resolves (element_shapeOf shaped ▸ written) (List.mergeSort_perm ..).symm
  | int n =>
    rw [literalExpr] at made
    obtain ⟨resolved, resolves, made⟩ := bind_eq_ok.mp made
    split at made
    · obtain ⟨cls, named, made⟩ := bind_eq_ok.mp made
      cases made
      exact .enum resolves named
    · exact scalar ⟨rfl, by simp⟩ (by simp) made
  | _ =>
    simp only [literalExpr] at made
    obtain ⟨resolved, -, made⟩ := bind_eq_ok.mp made
    exact scalar ⟨rfl, by simp⟩ (by simp) made

/-- A literal, with the type that is declared for it, has another one in it that is written as a
    literal of its own. The keys of a record are not: they are names. -/
inductive LiteralPart (g : Group) : Value × Option FieldType → Value × Option FieldType → Prop where
  | field {entries : List (Value × Value)} {entry : Value × Value} {type : Option FieldType}
      {r : Record} (resolves : g.resolveType? type = .ok (some (.record r)))
      (member : entry ∈ entries) :
      LiteralPart g (.dict entries, type) (entry.2, fieldType? r.fields entry.1)
  | key {entries : List (Value × Value)} {entry : Value × Value} {type : Option FieldType}
      {resolved : Option Resolved} (resolves : g.resolveType? type = .ok resolved)
      (plain : ∀ r, resolved ≠ some (.record r)) (member : entry ∈ entries) :
      LiteralPart g (.dict entries, type) (entry.1, (entryTypes? resolved).1)
  | value {entries : List (Value × Value)} {entry : Value × Value} {type : Option FieldType}
      {resolved : Option Resolved} (resolves : g.resolveType? type = .ok resolved)
      (plain : ∀ r, resolved ≠ some (.record r)) (member : entry ∈ entries) :
      LiteralPart g (.dict entries, type) (entry.2, (entryTypes? resolved).2)
  | item {v item : Value} {items : List Value} {type : Option FieldType}
      {resolved : Option Resolved} (written : v.collection? = some items)
      (resolves : g.resolveType? type = .ok resolved) (member : item ∈ items) :
      LiteralPart g (v, type) (item, itemType? resolved)

theorem LiteralPart.mem_parts {part other : Value × Option FieldType}
    (isPart : g.LiteralPart part other) : other.1 ∈ part.1.parts := by
  cases isPart with
  | field _ member | value _ _ member => exact List.mem_append_right _ (List.mem_map_of_mem member)
  | key _ _ member => exact List.mem_append_left _ (List.mem_map_of_mem member)
  | @item v _ items _ _ written _ member =>
    cases v with
    | list | tuple | set | frozenset =>
      cases written
      exact member
    | _ => cases written

theorem LiteralPart.sizeOf_lt {part other : Value × Option FieldType}
    (isPart : g.LiteralPart part other) : sizeOf other.1 < sizeOf part.1 :=
  Value.sizeOf_part isPart.mem_parts

structure PartExprs (g : Group) (part : Value × Option FieldType) (subs : List Expr) : Prop where
  sound : ∀ sub ∈ subs, ∃ other isFrozen, g.LiteralPart part other ∧
    g.literalExpr other.1 other.2 isFrozen = .ok sub
  complete : ∀ other, g.LiteralPart part other → ∃ sub ∈ subs, ∃ isFrozen,
    g.literalExpr other.1 other.2 isFrozen = .ok sub

theorem partExprs_nil {part : Value × Option FieldType} (isLeaf : part.1.IsLeaf) :
    g.PartExprs part [] := by
  refine ⟨List.forall_mem_nil _, fun other isPart => ?_⟩
  cases isPart with
  | field | key | value => exact absurd rfl (isLeaf.entries _)
  | item written => cases isLeaf.items.symm.trans written

theorem partExprs_items {items : List Value} {exprs : List Expr}
    (written : v.collection? = some items) (resolves : g.resolveType? type = .ok resolved)
    (made : g.literalItems (itemType? resolved) isFrozen items = .ok exprs) :
    g.PartExprs (v, type) exprs := by
  rw [literalItems_eq_mapM] at made
  constructor
  · intro sub member
    obtain ⟨item, known, literal⟩ := mem_of_mapM made member
    exact ⟨_, isFrozen, .item written resolves known, literal⟩
  · intro other isPart
    cases isPart with
    | @item _ item others _ resolved' written' resolves' member =>
      cases Option.some.inj (written.symm.trans written')
      cases Except.ok.inj (resolves.symm.trans resolves')
      obtain ⟨sub, known, literal⟩ := exists_of_mapM made member
      exact ⟨sub, known, isFrozen, literal⟩
    | _ => cases written

theorem partExprs_fields (resolves : g.resolveType? type = .ok (some (.record r)))
    (made : g.literalFields r.fields entries = .ok kwargs) :
    g.PartExprs (.dict entries, type) (kwargs.map (·.2)) ∧
      kwargs.map (·.1) = entries.map fun entry => Name.attributeName entry.1 := by
  rw [literalFields_eq_mapM] at made
  refine ⟨⟨fun sub member => ?_, fun other isPart => ?_⟩, ?_⟩
  · obtain ⟨arg, known, rfl⟩ := List.mem_map.mp member
    obtain ⟨entry, inEntries, written⟩ := mem_of_mapM made known
    obtain ⟨literal, literalMade, written⟩ := bind_eq_ok.mp written
    cases written
    exact ⟨_, false, .field resolves inEntries, literalMade⟩
  · cases isPart with
    | field resolves' member =>
      cases Except.ok.inj (resolves.symm.trans resolves')
      obtain ⟨arg, known, written⟩ := exists_of_mapM made member
      obtain ⟨literal, literalMade, written⟩ := bind_eq_ok.mp written
      cases written
      exact ⟨literal, List.mem_map.mpr ⟨_, known, rfl⟩, false, literalMade⟩
    | key resolves' plain | value resolves' plain =>
      exact absurd (Except.ok.inj (resolves'.symm.trans resolves)) (plain r)
    | item written => cases written
  · exact names_of_mapM made

theorem partExprs_entries {entries : List (Value × Value)} {type : Option FieldType}
    {resolved : Option Resolved} {hashes isFrozen : Bool} {pairs : List (Expr × Expr)}
    (resolves : g.resolveType? type = .ok resolved) (plain : ∀ r, resolved ≠ some (.record r))
    (made : g.literalEntries (entryTypes? resolved).1 (entryTypes? resolved).2 hashes isFrozen
      entries = .ok pairs) :
    g.PartExprs (.dict entries, type) (pairs.map (·.1) ++ pairs.map (·.2)) := by
  rw [literalEntries_eq_mapM] at made
  have both {entry : Value × Value} {pair : Expr × Expr} (written : (do
      return (← g.literalExpr entry.1 (entryTypes? resolved).1 hashes,
        ← g.literalExpr entry.2 (entryTypes? resolved).2 isFrozen)) = Except.ok pair) :
      g.literalExpr entry.1 (entryTypes? resolved).1 hashes = .ok pair.1 ∧
        g.literalExpr entry.2 (entryTypes? resolved).2 isFrozen = .ok pair.2 := by
    obtain ⟨key, keyMade, written⟩ := bind_eq_ok.mp written
    obtain ⟨value, valueMade, written⟩ := bind_eq_ok.mp written
    cases written
    exact ⟨keyMade, valueMade⟩
  constructor
  · intro sub member
    rw [List.mem_append, List.mem_map, List.mem_map] at member
    rcases member with ⟨pair, known, rfl⟩ | ⟨pair, known, rfl⟩
    · obtain ⟨entry, inEntries, written⟩ := mem_of_mapM made known
      exact ⟨_, hashes, .key resolves plain inEntries, (both written).1⟩
    · obtain ⟨entry, inEntries, written⟩ := mem_of_mapM made known
      exact ⟨_, isFrozen, .value resolves plain inEntries, (both written).2⟩
  · intro other isPart
    cases isPart with
    | @field _ _ _ r resolves' member =>
      exact absurd (Except.ok.inj (resolves.symm.trans resolves')) (plain r)
    | key resolves' _ member =>
      cases Except.ok.inj (resolves.symm.trans resolves')
      obtain ⟨pair, known, written⟩ := exists_of_mapM made member
      exact ⟨pair.1, List.mem_append_left _ (List.mem_map_of_mem known), hashes, (both written).1⟩
    | value resolves' _ member =>
      cases Except.ok.inj (resolves.symm.trans resolves')
      obtain ⟨pair, known, written⟩ := exists_of_mapM made member
      exact ⟨pair.2, List.mem_append_right _ (List.mem_map_of_mem known), isFrozen,
        (both written).2⟩
    | item written => cases written

/-! ### What literals are written with -/

structure ClassesAllowed (g : Group) (Q : Ref → Prop) (N : String → Prop) : Prop where
  record : ∀ r ∈ g.records, ∀ cls, g.classRef r.name = .ok cls → Q cls
  enum : ∀ e ∈ g.enums, ∀ cls, g.classRef e.name = .ok cls → Q cls
  freezes : N "frozenset"

def ValuesAllowed (g : Group) (Q : Ref → Prop) (v : Value) : Prop :=
  ∀ name, (Value.ref name).Within v → ∀ r, g.referentRef name = .ok r → Q r

structure CitesAllowed (g : Group) (Q : Ref → Prop) (K : String → Prop)
    (part : Value × Option FieldType) : Prop where
  referent : ∀ name, part.1 = .ref name → ∀ r, g.referentRef name = .ok r → Q r
  keys : ∀ entries r, part.1 = .dict entries → g.resolveType? part.2 = .ok (some (.record r)) →
    ∀ entry ∈ entries, K (Name.attributeName entry.1)

variable {Q : Ref → Prop} {N K : String → Prop}

theorem ValuesAllowed.part {w : Value} (values : g.ValuesAllowed Q v) (member : w ∈ v.parts) :
    g.ValuesAllowed Q w := fun name within => values name (.part member within)

theorem declared_of_resolveType? {resolved : Resolved}
    (resolves : g.resolveType? type = .ok (some resolved)) : g.Declared resolved := by
  cases type with
  | none => cases resolves
  | some type =>
    obtain ⟨found, resolves, same⟩ := map_eq_ok.mp resolves
    cases same
    exact declared_of_resolveType resolves

theorem writtenWith_frozen (freezes : N "frozenset") :
    (frozen e).WrittenWith Q N K ↔ e.WrittenWith Q N K := by
  simp [frozen, freezes]

theorem writtenWith_shape (freezes : N "frozenset") {shape : Shape} {items : List Expr} :
    (shape.expr isFrozen items).WrittenWith Q N K ↔ ∀ e ∈ items, e.WrittenWith Q N K := by
  unfold Shape.expr
  split
  · split
    · exact writtenWith_tuple
    · exact writtenWith_list
  · split
    · exact writtenWith_list
    · split
      · exact (writtenWith_frozen freezes).trans writtenWith_list
      · exact writtenWith_set

theorem writtenWith_entriesExpr (freezes : N "frozenset") :
    (entriesExpr isFrozen hashes pairs).WrittenWith Q N K ↔
      ∀ pair ∈ pairs, pair.1.WrittenWith Q N K ∧ pair.2.WrittenWith Q N K := by
  have tuples : (pairList pairs).WrittenWith Q N K ↔
      ∀ pair ∈ pairs, pair.1.WrittenWith Q N K ∧ pair.2.WrittenWith Q N K := by
    rw [pairList, writtenWith_list, List.forall_mem_map]
    simp
  unfold entriesExpr
  split
  · exact (writtenWith_frozen freezes).trans tuples
  · split
    · exact writtenWith_dict
    · exact tuples

/-- What is said once about each literal: it is written with what it cites itself and with the
    expressions of its parts. -/
theorem writtenWith_iff_parts (classes : g.ClassesAllowed Q N)
    (made : g.literalExpr v type isFrozen = .ok e) :
    ∃ subs, g.PartExprs (v, type) subs ∧ (e.WrittenWith Q N K ↔
      g.CitesAllowed Q K (v, type) ∧ ∀ sub ∈ subs, sub.WrittenWith Q N K) := by
  have leaf {v : Value} {e : Expr} (isLeaf : v.IsLeaf) (plain : ∀ name, v ≠ .ref name)
      (written : e.WrittenWith Q N K) :
      ∃ subs, g.PartExprs (v, type) subs ∧ (e.WrittenWith Q N K ↔
        g.CitesAllowed Q K (v, type) ∧ ∀ sub ∈ subs, sub.WrittenWith Q N K) := by
    exact ⟨[], partExprs_nil isLeaf, iff_of_true written
      ⟨⟨fun name same => absurd same (plain name),
        fun entries _ same => absurd same (isLeaf.entries entries)⟩, List.forall_mem_nil _⟩⟩
  cases literalForm made with
  | @ref name r known =>
    refine ⟨[], partExprs_nil ⟨rfl, by simp⟩, writtenWith_ref.trans
      ⟨fun allowed => ?_, fun cites => ?_⟩⟩
    · refine ⟨⟨fun other same r' found => ?_, fun _ _ same => by cases same⟩, List.forall_mem_nil _⟩
      cases same
      cases Except.ok.inj (known.symm.trans found)
      exact allowed
    · exact cites.1.referent name rfl r known
  | @record entries r kwargs cls resolves written named =>
    obtain ⟨parts, names⟩ := partExprs_fields resolves written
    have class_ : Q cls := classes.record r (declared_of_resolveType? resolves) cls named
    have keys : (∀ arg ∈ kwargs, K arg.1) ↔ ∀ entry ∈ entries, K (Name.attributeName entry.1) := by
      rw [← List.forall_mem_map (P := K), names, List.forall_mem_map]
    refine ⟨_, parts, ?_⟩
    rw [writtenWith_call, forall₂_and, keys, List.forall_mem_map]
    constructor
    · rintro ⟨-, -, keys, values⟩
      refine ⟨⟨(fun _ same => by cases same), fun others r' same resolves' => ?_⟩, values⟩
      cases same
      exact keys
    · rintro ⟨cites, values⟩
      exact ⟨writtenWith_ref.mpr class_, List.forall_mem_nil _, cites.keys entries r rfl resolves,
        values⟩
  | @entries entries resolved hashes pairs resolves plain written =>
    have quiet : g.CitesAllowed Q K (.dict entries, type) := by
      refine ⟨(fun _ same => by cases same), fun _ r _ resolves' => ?_⟩
      exact absurd (Except.ok.inj (resolves.symm.trans resolves')) (plain r)
    refine ⟨_, partExprs_entries resolves plain written, ?_⟩
    rw [writtenWith_entriesExpr classes.freezes, and_iff_right quiet, List.forall_mem_append,
      List.forall_mem_map, List.forall_mem_map]
    exact forall₂_and
  | @items _ items _ _ exprs order held resolves written arranged =>
    have quiet : g.CitesAllowed Q K (v, type) := by
      constructor
      · rintro name rfl
        cases held
      · rintro entries r rfl
        cases held
    refine ⟨exprs, partExprs_items held resolves written, ?_⟩
    rw [writtenWith_shape classes.freezes, and_iff_right quiet]
    exact forall_congr' fun e => imp_congr_left arranged.mem_iff.symm
  | enum resolves named =>
    exact leaf ⟨rfl, by simp⟩ (by simp)
      (by simpa using classes.enum _ (declared_of_resolveType? resolves) _ named)
  | scalar isLeaf plain => exact leaf isLeaf plain writtenWith_literal

def AnyName (_ : String) : Prop := True

@[simp]
theorem anyName (id : String) : AnyName id := trivial

/-- A literal refers to classes of the group and to what its value references stand for, and
    names nothing but what freezes. -/
theorem writtenWith_literalExpr (classes : g.ClassesAllowed Q N) (values : g.ValuesAllowed Q v)
    (made : g.literalExpr v type isFrozen = .ok e) : e.WrittenWith Q N AnyName := by
  induction size : sizeOf v using Nat.strongRecOn generalizing v type isFrozen e with
  | _ n ih =>
    obtain ⟨subs, parts, here⟩ := writtenWith_iff_parts classes made
    refine here.mpr ⟨⟨fun name same r known => ?_, fun _ _ _ _ _ _ => trivial⟩, fun sub known => ?_⟩
    · cases same
      exact values name (.self _) r known
    · obtain ⟨other, form, isPart, written⟩ := parts.sound sub known
      exact ih _ (size ▸ isPart.sizeOf_lt) (values.part isPart.mem_parts) written rfl

section
variable (g : Group) (module : Value)

theorem resolveType?_seenFrom (type : Option FieldType) :
    (g.seenFrom module).resolveType? type = g.resolveType? type := by
  cases type with
  | none => rfl
  | some type => simp only [resolveType?, resolveType_seenFrom]

theorem shapeOf_seenFrom (written : Bool) (resolved : Option Resolved) :
    (g.seenFrom module).shapeOf written resolved = g.shapeOf written resolved := by
  simp only [shapeOf, isHashable_seenFrom]

theorem entryTypes_seenFrom (resolved : Option Resolved) :
    (g.seenFrom module).entryTypes resolved = g.entryTypes resolved := by
  simp only [entryTypes, isHashable_seenFrom]

mutual

theorem literalExpr_seenFrom (v : Value) (type : Option FieldType) (frozen : Bool) :
    (g.seenFrom module).literalExpr v type frozen = g.literalExpr v type frozen := by
  cases v with
  | ref name => rw [literalExpr, literalExpr]; rfl
  | dict entries =>
    rw [literalExpr, literalExpr, resolveType?_seenFrom]
    simp only [entryTypes_seenFrom, literalFields_seenFrom, literalEntries_seenFrom]
    rfl
  | list items | tuple items | set items | frozenset items =>
    rw [literalExpr, literalExpr, resolveType?_seenFrom]
    simp only [shapeOf_seenFrom, literalItems_seenFrom]
  | int n =>
    rw [literalExpr, literalExpr, resolveType?_seenFrom]
    rfl
  | _ => simp only [literalExpr, resolveType?_seenFrom]

theorem literalItems_seenFrom (type : Option FieldType) (frozen : Bool) (items : List Value) :
    (g.seenFrom module).literalItems type frozen items = g.literalItems type frozen items := by
  cases items with
  | nil => rw [literalItems, literalItems]
  | cons v rest =>
    rw [literalItems, literalItems, literalExpr_seenFrom v, literalItems_seenFrom type frozen rest]

theorem literalEntries_seenFrom (keyType valueType : Option FieldType) (hashes frozen : Bool)
    (entries : List (Value × Value)) :
    (g.seenFrom module).literalEntries keyType valueType hashes frozen entries =
      g.literalEntries keyType valueType hashes frozen entries := by
  match entries with
  | [] => rw [literalEntries, literalEntries]
  | (k, v) :: rest =>
    rw [literalEntries, literalEntries, literalExpr_seenFrom k, literalExpr_seenFrom v,
      literalEntries_seenFrom keyType valueType hashes frozen rest]

theorem literalFields_seenFrom (fields : List Field) (entries : List (Value × Value)) :
    (g.seenFrom module).literalFields fields entries = g.literalFields fields entries := by
  match entries with
  | [] => rw [literalFields, literalFields]
  | (k, v) :: rest =>
    rw [literalFields, literalFields, literalExpr_seenFrom v, literalFields_seenFrom fields rest]

end

end

structure DrawsAllowed (g : Group) (Q : Ref → Prop) (N K : String → Prop) : Prop
    extends ClassesAllowed g Q N where
  strategy : ∀ attr, Name.Unreserved attr → Q (Ref.strategy attr)
  support : ∀ attr, Name.Unreserved attr → Q (Ref.support attr)
  replace : Q Ref.replace
  companion : ∀ r ∈ g.records, ∀ ref, g.companionRef r.name "get_generator" = .ok ref → Q ref
  names : ∀ id, Name.isReserved id = false → N id ∧ K id

section
variable (draws : g.DrawsAllowed Q N K)
include draws

theorem writtenWith_context : Expr.context.WrittenWith Q N K :=
  writtenWith_name.mpr (draws.names _ (by decide)).1

theorem writtenWith_support {attr : String} (function : Name.Unreserved attr) :
    (Expr.support attr args).WrittenWith Q N K ↔ ∀ e ∈ args, e.WrittenWith Q N K := by
  simp [Expr.support, Expr.apply, draws.support attr function]

theorem writtenWith_primitive {p : Primitive} (made : p.draw = .ok e) : e.WrittenWith Q N K := by
  have strategy {attr : String} {kwargs : List (String × Expr)} (function : Name.Unreserved attr)
      (names : ∀ arg ∈ kwargs, Name.isReserved arg.1 = false)
      (each : ∀ arg ∈ kwargs, arg.2.WrittenWith Q N K) :
      (Expr.strategy attr kwargs).WrittenWith Q N K := by
    refine writtenWith_call.mpr ⟨writtenWith_ref.mpr (draws.strategy attr function),
      List.forall_mem_nil _, fun arg known => ⟨(draws.names _ (names arg known)).2, each arg known⟩⟩
  have size : contextSize.WrittenWith Q N K :=
    writtenWith_attr.mpr ⟨(draws.names _ (by decide)).2, writtenWith_context draws⟩
  unfold Primitive.draw at made
  split at made
  · cases made
    exact strategy (by decide) (by simp; decide) (by simp)
  · split at made
    all_goals cases made
    all_goals exact strategy (by decide) (by simp <;> decide) (by simp [size])

theorem writtenWith_drawWithin {fuel : Nat} {type : FieldType}
    (made : g.drawWithin fuel type isFrozen = .ok e) : e.WrittenWith Q N K := by
  induction fuel generalizing type isFrozen e with
  | zero => cases made
  | succ fuel ih =>
    rw [drawWithin_succ] at made
    obtain ⟨resolved, resolves, made⟩ := bind_eq_ok.mp made
    have declared := declared_of_resolveType resolves
    have context := writtenWith_context draws
    cases resolved with
    | primitive p => exact writtenWith_primitive draws made
    | list element =>
      obtain ⟨inner, drawn, made⟩ := bind_eq_ok.mp made
      cases made
      rw [writtenWith_support draws (by cases isFrozen <;> decide)]
      simpa using ⟨ih drawn, context⟩
    | set element =>
      obtain ⟨hashes, -, made⟩ := bind_eq_ok.mp made
      obtain ⟨inner, drawn, made⟩ := bind_eq_ok.mp made
      cases made
      rw [writtenWith_support draws (by cases hashes <;> cases isFrozen <;> decide)]
      simpa using ⟨ih drawn, context⟩
    | map key value =>
      obtain ⟨hashes, -, made⟩ := bind_eq_ok.mp made
      obtain ⟨keys, keysDrawn, made⟩ := bind_eq_ok.mp made
      obtain ⟨values, valuesDrawn, made⟩ := bind_eq_ok.mp made
      cases made
      rw [writtenWith_support draws (by cases hashes <;> cases isFrozen <;> decide)]
      simpa using ⟨ih keysDrawn, ih valuesDrawn, context⟩
    | enum enum =>
      obtain ⟨cls, named, made⟩ := bind_eq_ok.mp made
      cases made
      have sampled := draws.strategy "sampled_from" (by decide)
      simpa [Expr.apply, sampled] using draws.enum enum declared cls named
    | record r =>
      obtain ⟨ref, named, made⟩ := bind_eq_ok.mp made
      cases made
      rw [writtenWith_support draws (by decide)]
      simpa using ⟨draws.companion r declared ref named, context⟩
    | constant c => cases made
    | service s => cases made

theorem writtenWith_draw {type : FieldType} (made : g.draw type isFrozen = .ok e) :
    e.WrittenWith Q N K :=
  writtenWith_drawWithin draws made

end

end Group

namespace Companion

open Expr Group

variable {g : Group} {Q : Ref → Prop} {N K : String → Prop} {f : Field}

theorem field_eq_ok {exprs : FieldExprs} (made : field g f = .ok exprs) :
    exprs.name = Name.attributeName f.name ∧ draw g f = .ok exprs.draw ∧
      default g f = .ok exprs.default := by
  obtain ⟨drawn, drawMade, made⟩ := bind_eq_ok.mp made
  obtain ⟨defaulted, defaultMade, made⟩ := bind_eq_ok.mp made
  cases made
  exact ⟨rfl, drawMade, defaultMade⟩

section
variable (draws : g.DrawsAllowed Q N K)
include draws

theorem writtenWith_fieldDraw (made : draw g f = .ok e) :
    e.WrittenWith Q N K := by
  obtain ⟨strategy, drawn, made⟩ := bind_eq_ok.mp made
  have inner := writtenWith_draw draws drawn
  cases made
  split
  · exact inner
  · rw [writtenWith_support draws (by decide)]
    simpa using ⟨inner, writtenWith_context draws⟩

theorem writtenWith_generator {kind : String} (builds : constructor.WrittenWith Q N K)
    {fields : List Field} (named : ∀ f ∈ fields, K (Name.attributeName f.name))
    (made : generator g kind constructor fields = .ok e) : e.WrittenWith Q N K := by
  have builder := draws.strategy "builds" (by decide)
  unfold generator at made
  split at made
  · cases made
    exact writtenWith_letAll.mpr ⟨builder, builds, List.forall_mem_nil _⟩
  · split at made
    · obtain ⟨members, drawn, made⟩ := bind_eq_ok.mp made
      cases made
      refine writtenWith_call.mpr ⟨writtenWith_ref.mpr (draws.strategy _ (by decide)),
        fun e member => ?_, List.forall_mem_nil _⟩
      obtain ⟨f, known, made⟩ := mem_of_mapM drawn member
      obtain ⟨strategy, memberDrawn, made⟩ := bind_eq_ok.mp made
      cases made
      exact writtenWith_letAll.mpr ⟨builder, builds,
        List.forall_mem_singleton.mpr ⟨named f known, writtenWith_draw draws memberDrawn⟩⟩
    · obtain ⟨exprs, drawn, made⟩ := bind_eq_ok.mp made
      cases made
      refine writtenWith_letAll.mpr ⟨builder, builds, List.forall_mem_map.mpr fun e member => ?_⟩
      obtain ⟨f, known, made⟩ := mem_of_mapM drawn member
      obtain ⟨name, drawMade, -⟩ := field_eq_ok made
      exact ⟨name ▸ named f known, writtenWith_fieldDraw draws drawMade⟩

theorem writtenWith_defaulted (written : e.WrittenWith Q N K) :
    (defaulted e).WrittenWith Q N K :=
  (writtenWith_support draws (by decide)).mpr (by simpa using ⟨written, writtenWith_context draws⟩)

theorem writtenWith_param :
    (Expr.name recordParam).WrittenWith Q N K :=
  writtenWith_name.mpr (draws.names _ (by decide)).1

theorem writtenWith_defaultedField (named : K (Name.attributeName f.name)) :
    (defaultedField f).WrittenWith Q N K :=
  writtenWith_defaulted draws (writtenWith_attr.mpr ⟨named, writtenWith_param draws⟩)

theorem writtenWith_default (named : K (Name.attributeName f.name)) {P : Prop}
    (literal : ∀ e, declaredDefault g f = .ok e → (e.WrittenWith Q N K ↔ P))
    (made : default g f = .ok e) : e.WrittenWith Q N K ↔ (f.default.isNull = false → P) := by
  have inside := writtenWith_defaultedField draws named
  unfold default at made
  cases absent : f.default.isNull with
  | true =>
    rw [absent] at made
    cases made
    simpa using inside
  | false =>
    rw [absent] at made
    obtain ⟨declared, written, made⟩ := bind_eq_ok.mp made
    cases made
    rw [writtenWith_support draws (by decide)]
    simp [inside, literal declared written]

theorem writtenWith_applyDefaults (named : ∀ f ∈ r.fields, K (Name.attributeName f.name))
    {P : Field → Prop} (literal : ∀ f e, declaredDefault g f = .ok e → (e.WrittenWith Q N K ↔ P f))
    (made : applyDefaults g r = .ok e) :
    e.WrittenWith Q N K ↔ ∀ f ∈ r.fields, f.default.isNull = false → P f := by
  have param := writtenWith_param draws
  unfold applyDefaults at made
  split at made
  · rename_i none
    cases made
    refine iff_of_true param fun f known => ?_
    rw [List.isEmpty_iff.mp none] at known
    cases known
  · split at made
    · obtain ⟨exprs, written, made⟩ := bind_eq_ok.mp made
      cases made
      rw [writtenWith_rebuild, and_iff_right draws.replace, and_iff_right param,
        List.forall_mem_map]
      constructor
      · intro all f known
        obtain ⟨e, member, made⟩ := exists_of_mapM written known
        exact (writtenWith_default draws (named f known) (literal f) (field_eq_ok made).2.2).mp
          (all e member).2
      · intro all e member
        obtain ⟨f, known, made⟩ := mem_of_mapM written member
        obtain ⟨name, -, defaultMade⟩ := field_eq_ok made
        exact ⟨name ▸ named f known,
          (writtenWith_default draws (named f known) (literal f) defaultMade).mpr (all f known)⟩
    · obtain ⟨defaults, written, made⟩ := bind_eq_ok.mp made
      have rebuilt : (rebuild (name recordParam) (r.fields.map fun f =>
          (Name.attributeName f.name, defaultedField f))).WrittenWith Q N K :=
        writtenWith_rebuild.mpr ⟨draws.replace, param, List.forall_mem_map.mpr fun f known =>
          ⟨named f known, writtenWith_defaultedField draws (named f known)⟩⟩
      have literals : (∀ arg ∈ defaults, K arg.1 ∧ arg.2.WrittenWith Q N K) ↔
          ∀ f ∈ r.fields, f.default.isNull = false → P f := by
        constructor
        · intro all f known given
          have inFilter : f ∈ r.fields.filter fun f => !f.default.isNull :=
            List.mem_filter.mpr ⟨known, by simp [given]⟩
          obtain ⟨arg, member, made⟩ := exists_of_mapM written inFilter
          obtain ⟨declared, declaredMade, made⟩ := bind_eq_ok.mp made
          cases made
          exact (literal f declared declaredMade).mp (all _ member).2
        · intro all arg member
          obtain ⟨f, inFilter, made⟩ := mem_of_mapM written member
          obtain ⟨known, given⟩ := List.mem_filter.mp inFilter
          obtain ⟨declared, declaredMade, made⟩ := bind_eq_ok.mp made
          cases made
          exact ⟨named f known,
            (literal f declared declaredMade).mpr (all f known (by simpa using given))⟩
      split at made
      · rename_i empty
        cases made
        rw [List.isEmpty_iff.mp empty] at literals
        exact iff_of_true rebuilt (literals.mp (List.forall_mem_nil _))
      · cases made
        rw [writtenWith_call, and_iff_right (writtenWith_ref.mpr (draws.support _ (by decide))),
          and_iff_right (List.forall_mem_singleton.mpr rebuilt), literals]

end

theorem writtenWith_defaults (draws : g.DrawsAllowed Q N AnyName)
    (values : ∀ v, g.ValuesAllowed Q v) (made : applyDefaults g r = .ok e) :
    e.WrittenWith Q N AnyName :=
  (writtenWith_applyDefaults draws (fun _ _ => trivial) (fun _ _ written => iff_true_intro
    (writtenWith_literalExpr draws.toClassesAllowed (values _) written)) made).mpr
    fun _ _ _ => trivial

end Companion
end IdlGen
