import IdlGen.Proofs.Meanings
import IdlGen.Run.Program

/-!
What strategies draw in a linked program: its outputs, with values for its constants. A reference
finds what its module has bound last under a name, so a constant can stand in the place of a
class.
-/
namespace IdlGen

open Run Outcome

/-! ### What outputs bind -/

/-- What a name of a module is bound to: an object, or a constant, whose value the module
    computes. -/
inductive Binding where
  | object (o : Object)
  | constant

/-- What an attribute of a record class is where nothing is given for it: null, unless every class
    has an attribute of its name. -/
def unsetValue (className : String) (isException : Bool) (name : String) : Value :=
  ((classAttributes className isException).lookup name).getD .null

theorem unsetValue_leaf {className name : String} {isException : Bool} {v : Value}
    (unset : unsetValue className isException name = v) :
    v = .null ∨ (∃ n, v = .int n) ∨ (∃ t, v = .text t) ∨ ∃ name, v = .object name := by
  subst unset
  unfold unsetValue
  cases found : (classAttributes className isException).lookup name with
  | none => exact .inl rfl
  | some v =>
    obtain ⟨before, after, split, -⟩ := List.lookup_eq_some_iff.mp found
    have member : (name, v) ∈ classAttributes className isException := by simp [split]
    simp only [classAttributes, List.mem_cons, Prod.mk.injEq, List.not_mem_nil, or_false] at member
    grind

/-- The attributes of an instance of a record to which nothing is given. -/
def Record.unset (r : Record) (className : String) : List (String × Value) :=
  r.fields.map fun f => (Name.attributeName f.name,
    unsetValue className (decide (r.kind = .exception)) (Name.attributeName f.name))

namespace Declaration

/-- The class that a declaration makes, with its fields or members. Instances of a record class
    are hashable unless they are exceptions, whatever names their fields have. -/
def class? : Declaration → Option (String × Object)
  | record output kind _ attributes =>
    some (Name.className output, .record {
      cls := { name := output, hashable := kind != "exception" }
      fields := attributes.map fun a =>
        (a.name, unsetValue (Name.className output) (kind == "exception") a.name) })
  | enumeration output _ members =>
    some (Name.className output, .enum {
      name := Name.className output
      members := members.map fun m => (Name.sanitize m.1, m.2) })
  | _ => none

def constantNames : Declaration → List String
  | constants entries => entries.map (·.name)
  | _ => []

def strategy? : Declaration → Option Expr
  | generator _ _ strategy => some strategy
  | _ => none

end Declaration

def Code.Statement.routine? (id : Nat) : Code.Statement → Option (String × Object)
  | .function name _ params body =>
    some (name, .routine { home := id, params := params.map (·.name), body })
  | _ => none

/-- The classes, constants and functions that a declaration binds in the module `home` with a
    number. What services bind is left out, since no strategy refers to it. -/
def Declaration.bindings (home : String) (id : Nat) (d : Declaration) : List (String × Binding) :=
  d.class?.toList.map (fun made => (made.1, .object made.2)) ++
  d.constantNames.map (fun name => (name, .constant)) ++
  ((d.statements home).filterMap (Code.Statement.routine? id)).map fun made =>
    (made.1, .object made.2)

namespace Output

def classes (o : Output) : List (String × Object) := o.body.filterMap Declaration.class?

def constantNames (o : Output) : List String := o.body.flatMap Declaration.constantNames

def bindings (o : Output) (id : Nat) : List (String × Binding) :=
  o.body.flatMap (Declaration.bindings o.home id)

def strategy? (o : Output) : Option Expr := o.body.findSome? Declaration.strategy?

variable {o : Output} {name : String} {found : Object}

theorem class_cases (member : (name, found) ∈ o.classes) :
    (∃ t, found = .record t) ∨ ∃ t, found = .enum t := by
  obtain ⟨d, -, made⟩ := List.mem_filterMap.mp member
  cases d with
  | record output kind declared attributes =>
    cases made
    exact .inl ⟨_, rfl⟩
  | enumeration output declared members =>
    cases made
    exact .inr ⟨_, rfl⟩
  | _ => cases made

theorem mem_bindings {id : Nat} (member : (name, .object found) ∈ o.bindings id) :
    (name, found) ∈ o.classes ∨
      ∃ routine : Routine, found = .routine routine ∧ routine.home = id := by
  obtain ⟨d, inBody, member⟩ := List.mem_flatMap.mp member
  rcases List.mem_append.mp member with member | inRoutines
  · rcases List.mem_append.mp member with inClass | inConstants
    · obtain ⟨made, isClass, same⟩ := List.mem_map.mp inClass
      cases same
      exact .inl (List.mem_filterMap.mpr ⟨d, inBody, Option.mem_toList.mp isClass⟩)
    · obtain ⟨_, -, same⟩ := List.mem_map.mp inConstants
      cases same
  · obtain ⟨made, isRoutine, same⟩ := List.mem_map.mp inRoutines
    cases same
    obtain ⟨statement, -, makes⟩ := List.mem_filterMap.mp isRoutine
    cases statement with
    | function name decorators params body =>
      cases makes
      exact .inr ⟨_, rfl, rfl⟩
    | _ => cases makes

theorem mem_constantNames {id : Nat} (member : (name, .constant) ∈ o.bindings id) :
    name ∈ o.constantNames := by
  obtain ⟨d, inBody, member⟩ := List.mem_flatMap.mp member
  refine List.mem_flatMap.mpr ⟨d, inBody, ?_⟩
  rcases List.mem_append.mp member with member | inRoutines
  · rcases List.mem_append.mp member with inClass | inConstants
    · obtain ⟨_, -, same⟩ := List.mem_map.mp inClass
      cases same
    · obtain ⟨_, known, same⟩ := List.mem_map.mp inConstants
      cases same
      exact known
  · obtain ⟨_, -, same⟩ := List.mem_map.mp inRoutines
    cases same

end Output

/-- The output at a path with its number. Of several, the last one written is there. -/
def Run.Program.located? (p : Program) (path : String) : Option (Output × Nat) :=
  p.outputs.zipIdx.reverse.find? fun entry => entry.1.home == path

namespace Run.Program

variable {p : Program} {path : String} {o : Output} {id : Nat}

theorem output?_eq_located? (p : Program) (path : String) :
    p.output? path = (p.located? path).map (·.1) := by
  have outputs : p.outputs.reverse = p.outputs.zipIdx.reverse.map (·.1) := by
    rw [List.map_reverse, List.zipIdx_map_fst]
  rw [output?, located?, outputs, List.find?_map]
  rfl

theorem located?_eq_some (located : p.located? path = some (o, id)) :
    p.outputs[id]? = some o ∧ o.home = path := by
  have member := List.mem_reverse.mp (List.mem_of_find?_eq_some located)
  exact ⟨List.mem_zipIdx_iff_getElem?.mp member, by simpa using List.find?_some located⟩

end Run.Program

/-- A program, and what its constants are bound to. -/
structure Linking where
  program : Program
  constants : Ref → Except Fault Value

namespace Linking

/-- What a reference finds: a function of a library, or what its module has bound last. -/
def object (l : Linking) (r : Ref) : Except Fault Object :=
  if r = Ref.strategy r.attr then .ok (.draw r.attr)
  else if r = Ref.support r.attr then .ok (.support r.attr)
  else match l.program.located? r.module with
    | none => .error (.missingModule r.module)
    | some (o, id) =>
      match (o.bindings id).reverse.lookup r.attr with
      | some (.object found) => .ok found
      | some .constant => Object.value <$> l.constants r
      | none => .error (.missingAttribute r.attr)

def surroundings (l : Linking) (c : Context) : Surroundings :=
  { ref := l.object, names := [("context", .context c)] }

/-- The strategy that a generator gives in a context. -/
def generate (l : Linking) (source : Source) (c : Context) : Except Fault Strategy :=
  match source with
  | .routine r =>
    match l.program.outputs[r.home]?.bind Output.strategy? with
    | some e => Object.toStrategy <$> e.meaning (l.surroundings c)
    | none => .error (.notCallable "nested")
  | .plain name => .ok (.plain name)
  | .other => .error (.notCallable "nested")

/-- The class of a program with this identity. -/
def recordType? (l : Linking) (cls : RecordClass) : Option RecordType :=
  (l.program.outputs.flatMap Output.classes).findSome? fun
    | (_, .record t) => if t.cls = cls then some t else none
    | _ => none

end Linking

def Value.items? : Value → Option (List Value)
  | .list items => some items
  | .tuple items => some items
  | .text t => some (t.toList.map fun c => .text (String.singleton c))
  | .bytes data => some (data.map fun b => .int b.toNat)
  | _ => none

namespace Linking

/-- The values that a strategy can draw. -/
inductive Draws (l : Linking) : Strategy → Value → Prop where
  | none : Draws l (.plain "none") .null
  | boolean (b : Bool) : Draws l (.plain "booleans") (.bool b)
  | integer {low high n : Int} (above : low ≤ n) (below : n ≤ high) :
      Draws l (.integers low high) (.int n)
  | float {nan infinity : Bool} {x : Binary64} (defined : x = .nan → nan)
      (bounded : ∀ negative, x = .infinity negative → infinity) :
      Draws l (.floats nan infinity) (.float x)
  | text {maxSize : Int} {t : String} (size : t.length ≤ maxSize) :
      Draws l (.text maxSize) (.text t)
  | binary {maxSize : Int} {data : List UInt8} (size : data.length ≤ maxSize) :
      Draws l (.binary maxSize) (.bytes data)
  | list {element : Strategy} {maxSize : Int} {items : List Value} (size : items.length ≤ maxSize)
      (each : ∀ v ∈ items, Draws l element v) : Draws l (.lists element maxSize) (.list items)
  | distinctList {element : Strategy} {maxSize : Int} {distinction : Distinction}
      {items : List Value} (size : items.length ≤ maxSize) (each : ∀ v ∈ items, Draws l element v)
      (apart : (items.map distinction.key).Nodup) :
      Draws l (.distinctLists element maxSize distinction) (.list items)
  | set {element : Strategy} {maxSize : Int} {items : List Value} (size : items.length ≤ maxSize)
      (each : ∀ v ∈ items, Draws l element v) (apart : items.Pairwise fun v w => !v.equal w) :
      Draws l (.sets element maxSize) (.set items)
  | frozenset {element : Strategy} {maxSize : Int} {items : List Value}
      (size : items.length ≤ maxSize) (each : ∀ v ∈ items, Draws l element v)
      (apart : items.Pairwise fun v w => !v.equal w) :
      Draws l (.frozensets element maxSize) (.frozenset items)
  | dict {key value : Strategy} {maxSize : Int} {entries : List (Value × Value)}
      (size : entries.length ≤ maxSize) (keys : ∀ entry ∈ entries, Draws l key entry.1)
      (values : ∀ entry ∈ entries, Draws l value entry.2)
      (apart : (entries.map (·.1)).Pairwise fun v w => !v.equal w) :
      Draws l (.dictionaries key value maxSize) (.dict entries)
  | pair {first second : Strategy} {v w : Value} (left : Draws l first v)
      (right : Draws l second w) : Draws l (.tuples first second) (.tuple [v, w])
  | option {options : List Strategy} {chosen : Strategy} {v : Value} (member : chosen ∈ options)
      (drawn : Draws l chosen v) : Draws l (.oneOf options) v
  | just (v : Value) : Draws l (.just v) v
  | member {owner : String} {members : List (String × Int)} {m : String × Int}
      (known : m ∈ members) : Draws l (.sampledFrom owner members) (.member owner m.1 m.2)
  | item {sequence item : Value} {items : List Value} (known : sequence.items? = some items)
      (member : item ∈ items) : Draws l (.other "sampled_from" [.held (.value sequence)] []) item
  | record {cls : RecordClass} {t : RecordType} {fields : List (String × Strategy)}
      {values : List Value} {v : Value} (type : l.recordType? cls = some t)
      (size : values.length = fields.length)
      (each : ∀ pair ∈ fields.zip values, Draws l pair.1.2 pair.2)
      (made : t.make [] ((fields.map (·.1)).zip values) = .ok v) : Draws l (.builds cls fields) v
  | converted {source : Strategy} {how : Conversion} {v : Value} (drawn : Draws l source v) :
      Draws l (.converted source how) (how.apply v)
  | deferred {source : Source} {c : Context} {next : Strategy} {v : Value}
      (generated : l.generate source c = .ok next) (drawn : Draws l next v) :
      Draws l (.deferred source c) v

end Linking

/-! ### Expressions of strategies -/

namespace Linking

/-- What the strategy that an expression evaluates to can draw. -/
def DrawsFrom (l : Linking) (c : Context) (e : Expr) (v : Value) : Prop :=
  ∃ o, e.meaning (l.surroundings c) = .ok o ∧ l.Draws o.toStrategy v

variable {l : Linking} {c : Context} {e : Expr} {o : Object} {v : Value}

theorem object_strategy (l : Linking) (attr : String) :
    l.object (Ref.strategy attr) = .ok (.draw attr) := by
  simp [object, Ref.strategy]

theorem object_support (l : Linking) (attr : String) :
    l.object (Ref.support attr) = .ok (.support attr) := by
  simp [object, Ref.strategy, Ref.support]

variable {name : String} {r : Ref} {items : List Value} {given : List (String × Value)}
  {t : RecordType} {bindings : List (String × Expr)}

theorem mem_of_lookup_reverse {bindings : List (String × Binding)} {binding : Binding}
    (bound : bindings.reverse.lookup name = some binding) : (name, binding) ∈ bindings := by
  obtain ⟨before, after, split, -⟩ := List.lookup_eq_some_iff.mp bound
  exact List.mem_reverse.mp (by simp [split])

theorem object_cases (found : l.object r = .ok o) :
    (∃ name, o = .draw name) ∨ (∃ name, o = .support name) ∨
      ∃ output id, l.program.located? r.module = some (output, id) ∧
        ((∃ v, o = .value v ∧ r.attr ∈ output.constantNames) ∨
          (r.attr, .object o) ∈ output.bindings id) := by
  unfold object at found
  split at found
  · cases found
    exact .inl ⟨_, rfl⟩
  · split at found
    · cases found
      exact .inr (.inl ⟨_, rfl⟩)
    · split at found
      · cases found
      · rename_i output id located
        refine .inr (.inr ⟨output, id, located, ?_⟩)
        split at found
        · rename_i bound
          cases found
          exact .inr (mem_of_lookup_reverse bound)
        · rename_i bound
          obtain ⟨v, -, rfl⟩ := map_eq_ok.mp found
          exact .inl ⟨v, rfl, Output.mem_constantNames (mem_of_lookup_reverse bound)⟩
        · cases found

theorem object_eq_class (found : l.object r = .ok o)
    (isClass : (∃ t, o = .record t) ∨ ∃ t, o = .enum t) :
    ∃ output id, l.program.located? r.module = some (output, id) ∧
      (r.attr, o) ∈ output.classes := by
  rcases object_cases found with
    ⟨_, rfl⟩ | ⟨_, rfl⟩ | ⟨output, id, located, ⟨_, rfl, -⟩ | bound⟩
  · simp at isClass
  · simp at isClass
  · simp at isClass
  · rcases Output.mem_bindings bound with inClasses | ⟨_, rfl, -⟩
    · exact ⟨output, id, located, inClasses⟩
    · simp at isClass

theorem object_eq_value (found : l.object r = .ok (.value v)) :
    ∃ output id, l.program.located? r.module = some (output, id) ∧
      r.attr ∈ output.constantNames := by
  rcases object_cases found with
    ⟨_, no⟩ | ⟨_, no⟩ | ⟨output, id, located, ⟨_, -, constant⟩ | bound⟩
  · cases no
  · cases no
  · exact ⟨output, id, located, constant⟩
  · rcases Output.mem_bindings bound with inClasses | ⟨_, no, -⟩
    · rcases Output.class_cases inClasses with ⟨_, no⟩ | ⟨_, no⟩
      · cases no
      · cases no
    · cases no

theorem object_ne_strategy {strategy : Strategy} : l.object r ≠ .ok (.strategy strategy) := by
  intro found
  rcases object_cases found with ⟨_, no⟩ | ⟨_, no⟩ | ⟨output, id, -, ⟨_, no, -⟩ | member⟩
  · cases no
  · cases no
  · cases no
  · rcases Output.mem_bindings member with inClasses | ⟨_, no, -⟩
    · rcases Output.class_cases inClasses with ⟨_, no⟩ | ⟨_, no⟩
      · cases no
      · cases no
    · cases no

theorem meaning_context (l : Linking) (c : Context) :
    Expr.context.meaning (l.surroundings c) = .ok (.context c) := rfl

theorem meaning_ref (l : Linking) (c : Context) (r : Ref) :
    (Expr.ref r).meaning (l.surroundings c) = l.object r := by
  rw [Expr.meaning]
  rfl

theorem meaning_call_ref {func : Object} (names : l.object r = .ok func) (args : List Expr)
    (kwargs : List (String × Expr)) :
    (Expr.call (.ref r) args kwargs).meaning (l.surroundings c) = (do
      let os ← Expr.meanings (l.surroundings c) args
      func.apply os (← Expr.keywordMeanings (l.surroundings c) kwargs)) := by
  rw [Expr.meaning, meaning_ref, names]
  rfl

theorem meaning_unary {name : String} (make : Strategy → Context → Strategy)
    (known : ∀ part, callSupport name [part, .context c] [] =
      .ok (.strategy (make part.toStrategy c))) :
    (Expr.support name [e, .context]).meaning (l.surroundings c) = .ok o ↔
      ∃ part, e.meaning (l.surroundings c) = .ok part ∧ .strategy (make part.toStrategy c) = o := by
  rw [Expr.support, Expr.apply, meaning_call_ref (object_support l name)]
  simp only [Expr.meanings, Expr.keywordMeanings, meaning_context]
  cases e.meaning (l.surroundings c) with
  | error fault => simp [bind, Except.bind]
  | ok part => simp [bind, Except.bind, pure, Except.pure, Object.apply, known]

theorem meaning_binary {name : String} (make : Strategy → Strategy → Context → Strategy)
    (known : ∀ first second, callSupport name [first, second, .context c] [] =
      .ok (.strategy (make first.toStrategy second.toStrategy c))) {key value : Expr} :
    (Expr.support name [key, value, .context]).meaning (l.surroundings c) = .ok o ↔
      ∃ k w, key.meaning (l.surroundings c) = .ok k ∧ value.meaning (l.surroundings c) = .ok w ∧
        .strategy (make k.toStrategy w.toStrategy c) = o := by
  rw [Expr.support, Expr.apply, meaning_call_ref (object_support l name)]
  simp only [Expr.meanings, Expr.keywordMeanings, meaning_context]
  cases key.meaning (l.surroundings c) with
  | error fault => simp [bind, Except.bind]
  | ok k =>
    cases value.meaning (l.surroundings c) with
    | error fault => simp [bind, Except.bind]
    | ok w => simp [bind, Except.bind, pure, Except.pure, Object.apply, known]

def collection? (name : String) : Option (List Value → Value) :=
  match name with
  | "list_of" => some .list
  | "tuple_of" => some .tuple
  | "set_of" => some .set
  | "frozenset_of" => some .frozenset
  | "unique_list_of" => some .list
  | _ => none

def entries? (name : String) : Option (List (Value × Value) → Value) :=
  match name with
  | "dict_of" => some .dict
  | "frozen_items_of" =>
    some fun entries => .frozenset (entries.map fun entry => .tuple [entry.1, entry.2])
  | "pairs_of" => some fun entries => .list (entries.map fun entry => .tuple [entry.1, entry.2])
  | _ => none

theorem draws_collection {make : List Value → Value} (known : collection? name = some make)
    (drawn : DrawsFrom l c (.support name [e, .context]) v) :
    ∃ items : List Value, v = make items ∧ items.length ≤ c.size ∧
      ∀ w ∈ items, DrawsFrom l c e w := by
  obtain ⟨o, means, drawn⟩ := drawn
  unfold collection? at known
  split at known
  · cases known
    obtain ⟨part, partMeans, rfl⟩ := (meaning_unary listOf fun _ => rfl).mp means
    cases drawn with
    | list size each => exact ⟨_, rfl, size, fun w member => ⟨part, partMeans, each w member⟩⟩
  · cases known
    obtain ⟨part, partMeans, rfl⟩ := (meaning_unary tupleOf fun _ => rfl).mp means
    cases drawn with
    | converted drawn =>
      cases drawn with
      | list size each => exact ⟨_, rfl, size, fun w member => ⟨part, partMeans, each w member⟩⟩
  · cases known
    obtain ⟨part, partMeans, rfl⟩ := (meaning_unary setOf fun _ => rfl).mp means
    cases drawn with
    | set size each => exact ⟨_, rfl, size, fun w member => ⟨part, partMeans, each w member⟩⟩
  · cases known
    obtain ⟨part, partMeans, rfl⟩ := (meaning_unary frozensetOf fun _ => rfl).mp means
    cases drawn with
    | frozenset size each => exact ⟨_, rfl, size, fun w member => ⟨part, partMeans, each w member⟩⟩
  · cases known
    obtain ⟨part, partMeans, rfl⟩ := (meaning_unary distinctListOf fun _ => rfl).mp means
    cases drawn with
    | distinctList size each =>
      exact ⟨_, rfl, size, fun w member => ⟨part, partMeans, each w member⟩⟩
  · cases known

theorem draws_pairs {key value : Strategy} (each : ∀ w ∈ items, l.Draws (.tuples key value) w) :
    ∃ entries : List (Value × Value), items = entries.map (fun entry => .tuple [entry.1, entry.2]) ∧
      (∀ entry ∈ entries, l.Draws key entry.1) ∧ ∀ entry ∈ entries, l.Draws value entry.2 := by
  induction items with
  | nil => exact ⟨[], rfl, by simp, by simp⟩
  | cons item rest ih =>
    obtain ⟨entries, rfl, keys, values⟩ := ih fun w member => each w (List.mem_cons_of_mem _ member)
    cases each item (List.mem_cons_self ..) with
    | @pair _ _ k w left right =>
      exact ⟨(k, w) :: entries, rfl, by simpa using ⟨left, by simpa using keys⟩,
        by simpa using ⟨right, by simpa using values⟩⟩

theorem draws_entries {make : List (Value × Value) → Value} {key value : Expr}
    (known : entries? name = some make)
    (drawn : DrawsFrom l c (.support name [key, value, .context]) v) :
    ∃ entries : List (Value × Value), v = make entries ∧ entries.length ≤ c.size ∧
      ∀ entry ∈ entries, DrawsFrom l c key entry.1 ∧ DrawsFrom l c value entry.2 := by
  obtain ⟨o, means, drawn⟩ := drawn
  unfold entries? at known
  split at known
  · cases known
    obtain ⟨k, w, keyMeans, valueMeans, rfl⟩ := (meaning_binary dictOf fun _ _ => rfl).mp means
    cases drawn with
    | dict size keys values =>
      exact ⟨_, rfl, size, fun entry member =>
        ⟨⟨k, keyMeans, keys entry member⟩, ⟨w, valueMeans, values entry member⟩⟩⟩
  · cases known
    obtain ⟨k, w, keyMeans, valueMeans, rfl⟩ :=
      (meaning_binary frozenItemsOf fun _ _ => rfl).mp means
    cases drawn with
    | converted drawn =>
      cases drawn with
      | dict size keys values =>
        exact ⟨_, rfl, size, fun entry member =>
          ⟨⟨k, keyMeans, keys entry member⟩, ⟨w, valueMeans, values entry member⟩⟩⟩
  · cases known
    obtain ⟨k, w, keyMeans, valueMeans, rfl⟩ := (meaning_binary pairsOf fun _ _ => rfl).mp means
    cases drawn with
    | distinctList size each =>
      obtain ⟨entries, rfl, keys, values⟩ := draws_pairs each
      rw [List.length_map] at size
      exact ⟨entries, rfl, size, fun entry member =>
        ⟨⟨k, keyMeans, keys entry member⟩, ⟨w, valueMeans, values entry member⟩⟩⟩
  · cases known

theorem draws_none (drawn : l.Draws (.plain "none") v) : v = .null := by
  generalize shape : Strategy.plain "none" = strategy at drawn
  cases drawn with
  | none => rfl
  | boolean b => simp at shape
  | _ => cases shape

theorem draws_optional (drawn : DrawsFrom l c (.support "optional" [e, .context]) v) :
    v = .null ∨ (¬ c.exhausted ∧ DrawsFrom l c e v) := by
  obtain ⟨o, means, drawn⟩ := drawn
  obtain ⟨part, partMeans, rfl⟩ := (meaning_unary Run.optional fun _ => rfl).mp means
  have drawn : l.Draws (Run.optional part.toStrategy c) v := drawn
  rw [Run.optional] at drawn
  split at drawn
  · exact .inl (draws_none drawn)
  · rename_i further
    cases drawn with
    | option member drawn =>
      rcases List.mem_pair.mp member with rfl | rfl
      · exact .inr ⟨further, part, partMeans, drawn⟩
      · exact .inl (draws_none drawn)

theorem draws_oneOf {options : List Expr}
    (drawn : DrawsFrom l c (.apply (Ref.strategy "one_of") options) v) :
    ∃ e ∈ options, DrawsFrom l c e v := by
  obtain ⟨o, means, drawn⟩ := drawn
  rw [Expr.apply, meaning_call_ref (object_strategy l "one_of")] at means
  obtain ⟨os, optionsMean, means⟩ := bind_eq_ok.mp means
  cases means
  cases drawn with
  | option member drawn =>
    obtain ⟨chosen, chosenMember, rfl⟩ := List.mem_map.mp member
    rw [Expr.meanings_eq_mapM] at optionsMean
    obtain ⟨e, eMember, eMeans⟩ := mem_of_mapM optionsMean chosenMember
    exact ⟨e, eMember, chosen, eMeans, drawn⟩

theorem draws_other {args : List Strategy} {kwargs : List (String × Strategy)}
    (drawn : l.Draws (.other name args kwargs) v) :
    name = "sampled_from" ∧ ∃ sequence items, args = [.held (.value sequence)] ∧
      sequence.items? = some items ∧ v ∈ items := by
  cases drawn with
  | item known member => exact ⟨rfl, _, _, rfl, known, member⟩

theorem value_of_toStrategy {sequence : Value} (held : o.toStrategy = .held (.value sequence))
    (known : sequence.items? = some items) :
    o = .value sequence ∨ ∃ strategy, o = .strategy strategy := by
  cases o with
  | value v =>
    cases held
    exact .inl rfl
  | strategy strategy => exact .inr ⟨strategy, rfl⟩
  | record t =>
    rw [Object.toStrategy] at held
    split at held
    · cases held
      cases known
    · cases held
  | native n => cases n <;> cases held <;> cases known
  | _ =>
    cases held <;> cases known

theorem draws_sampledFrom
    (drawn : DrawsFrom l c (.apply (Ref.strategy "sampled_from") [.ref r]) v) :
    (∃ t, l.object r = .ok (.enum t) ∧ ∃ m ∈ t.distinctMembers, v = .member t.name m.1 m.2) ∨
      ∃ sequence items, l.object r = .ok (.value sequence) ∧ sequence.items? = some items ∧
        v ∈ items := by
  obtain ⟨o, means, drawn⟩ := drawn
  rw [Expr.apply, meaning_call_ref (object_strategy l "sampled_from"), Expr.meanings,
    meaning_ref] at means
  obtain ⟨os, argsMean, means⟩ := bind_eq_ok.mp means
  obtain ⟨owner, names, argsMean⟩ := bind_eq_ok.mp argsMean
  cases argsMean
  cases means
  have sampled : (∃ t, owner = .enum t) ∨
      callStrategy "sampled_from" [owner] [] = .other "sampled_from" [owner.toStrategy] [] := by
    cases owner with
    | enum t => exact .inl ⟨t, rfl⟩
    | _ => exact .inr rfl
  rcases sampled with ⟨t, rfl⟩ | other
  · cases drawn with
    | member known => exact .inl ⟨t, names, _, known, rfl⟩
  · have drawn : l.Draws (callStrategy "sampled_from" [owner] []) v := drawn
    rw [other] at drawn
    obtain ⟨-, sequence, items, same, known, member⟩ := draws_other drawn
    rcases value_of_toStrategy (List.singleton_inj.mp same) known with rfl | ⟨strategy, rfl⟩
    · exact .inr ⟨sequence, items, names, known, member⟩
    · exact absurd names object_ne_strategy

theorem mem_of_replaceFields {fields result : List (String × Value)}
    (replaced : replaceFields fields given = .ok result) {field : String × Value}
    (member : field ∈ result) : field ∈ fields ∨ field ∈ given := by
  induction given generalizing fields with
  | nil =>
    cases replaced
    exact .inl member
  | cons first rest ih =>
    rw [replaceFields] at replaced
    split at replaced
    · rcases ih replaced with before | later
      · obtain ⟨old, oldMember, rfl⟩ := List.mem_map.mp before
        split
        · exact .inr (List.mem_cons_self ..)
        · exact .inl oldMember
      · exact .inr (List.mem_cons_of_mem _ later)
    · cases replaced

theorem make_eq_ok (made : t.make [] given = .ok v) :
    ∃ fields, v = .record t.cls fields ∧ replaceFields t.fields given = .ok fields := by
  unfold RecordType.make at made
  simp only [List.zip_nil_right, List.nil_append, List.length_nil, Nat.not_lt_zero, ↓reduceIte,
    List.lookup_nil, Option.isSome_none] at made
  split at made
  · cases made
  · split at made
    · cases made
    · split at made
      · cases made
      · obtain ⟨fields, replaced, done⟩ := bind_eq_ok.mp made
        cases done
        exact ⟨fields, rfl, replaced⟩

theorem draws_callStrategy_builds {fields : List (String × Object)}
    (drawn : l.Draws (callStrategy "builds" [o] fields) v) :
    ∃ t, o = .record t ∧
      l.Draws (.builds t.cls (fields.map fun field => (field.1, field.2.toStrategy))) v := by
  have unsampled {args : List Strategy} {kwargs : List (String × Strategy)} :
      ¬ l.Draws (.other "builds" args kwargs) v :=
    fun drawn => absurd (draws_other drawn).1 (by decide)
  cases o with
  | record t =>
    refine ⟨t, rfl, ?_⟩
    have built : callStrategy "builds" [.record t] fields =
        if t.cls.label = .plain then
          .other "builds" [(Object.record t).toStrategy]
            (fields.map fun field => (field.1, field.2.toStrategy))
        else .builds t.cls (fields.map fun field => (field.1, field.2.toStrategy)) := rfl
    rw [built] at drawn
    split at drawn
    · exact absurd drawn unsampled
    · exact drawn
  | _ => exact absurd drawn unsampled

theorem draws_bindings {bindings : List (String × Expr)} {os : List (String × Object)}
    {values : List Value}
    (means : Expr.keywordMeanings (l.surroundings c) bindings = .ok os)
    (size : (os.map fun field => (field.1, field.2.toStrategy)).length = values.length)
    (each : ∀ pair ∈ (os.map fun field => (field.1, field.2.toStrategy)).zip values,
      l.Draws pair.1.2 pair.2) :
    List.Forall₂ (fun binding entry => binding.1 = entry.1 ∧ DrawsFrom l c binding.2 entry.2)
      bindings ((os.map (·.1)).zip values) := by
  rw [Expr.keywordMeanings_eq_mapM] at means
  have meant := mapM_eq_ok.mp means
  clear means
  induction meant generalizing values with
  | nil => exact .nil
  | cons first rest ih =>
    obtain ⟨part, partMeans, done⟩ := bind_eq_ok.mp first
    cases done
    obtain ⟨value, others, rfl⟩ := List.exists_cons_of_length_eq_add_one size.symm
    have drawn := each _ (List.mem_cons_self ..)
    refine .cons ⟨rfl, part, partMeans, drawn⟩ (ih ?_ fun pair member => ?_)
    · simpa using size
    · exact each pair (List.mem_cons_of_mem _ member)

theorem draws_builds (drawn : DrawsFrom l c (.letAll (.ref r) bindings) v) :
    ∃ t type given fields, l.object r = .ok (.record t) ∧ l.recordType? t.cls = some type ∧
      v = .record type.cls fields ∧ replaceFields type.fields given = .ok fields ∧
      List.Forall₂ (fun binding entry => binding.1 = entry.1 ∧ DrawsFrom l c binding.2 entry.2)
        bindings given := by
  obtain ⟨o, means, drawn⟩ := drawn
  rw [Expr.meaning, meaning_ref, show (l.surroundings c).ref = l.object from rfl,
    object_strategy] at means
  obtain ⟨func, draw, means⟩ := bind_eq_ok.mp means
  cases draw
  obtain ⟨cls, names, means⟩ := bind_eq_ok.mp means
  obtain ⟨os, bindingsMean, means⟩ := bind_eq_ok.mp means
  cases means
  obtain ⟨t, rfl, built⟩ := draws_callStrategy_builds drawn
  cases built with
  | @record _ type _ values _ known size each made =>
    obtain ⟨fields, rfl, replaced⟩ := make_eq_ok made
    refine ⟨t, type, _, fields, names, known, rfl, replaced, ?_⟩
    rw [List.map_map]
    exact draws_bindings bindingsMean size.symm each

theorem draws_builds_one {type : RecordType} {w : Value} (found : l.object r = .ok (.record t))
    (labelled : t.cls.label ≠ .plain) (known : l.recordType? t.cls = some type)
    (drawn : DrawsFrom l c e w) (made : type.make [] [(name, w)] = .ok v) :
    DrawsFrom l c (.letAll (.ref r) [(name, e)]) v := by
  obtain ⟨part, means, drawn⟩ := drawn
  have built : callStrategy "builds" [.record t] [(name, part)] =
      .builds t.cls [(name, part.toStrategy)] := if_neg labelled
  have size : [w].length = [(name, part.toStrategy)].length := rfl
  refine ⟨.strategy (.builds t.cls [(name, part.toStrategy)]), ?_, .record known size ?_ made⟩
  · rw [Expr.meaning, meaning_ref, show (l.surroundings c).ref = l.object from rfl,
      object_strategy, found, Expr.keywordMeanings, means, ← built]
    rfl
  · simpa using drawn

theorem recordType?_eq_some {cls : RecordClass} (found : l.recordType? cls = some t) :
    t.cls = cls ∧ ∃ attr, ∃ o ∈ l.program.outputs, (attr, .record t) ∈ o.classes := by
  obtain ⟨⟨attr, o⟩, inClasses, known⟩ := List.exists_of_findSome?_eq_some found
  obtain ⟨output, inProgram, inClasses⟩ := List.mem_flatMap.mp inClasses
  rcases Output.class_cases inClasses with ⟨own, rfl⟩ | ⟨own, rfl⟩
  · obtain ⟨same, chosen⟩ := Option.ite_none_right_eq_some.mp known
    cases chosen
    exact ⟨same, attr, output, inProgram, inClasses⟩
  · cases known

theorem draws_nested (drawn : DrawsFrom l c (.support "nested" [.ref r, .context]) v) :
    ∃ o next, l.object r = .ok o ∧ l.generate o.source c.descend = .ok next ∧ l.Draws next v := by
  obtain ⟨o, means, drawn⟩ := drawn
  rw [Expr.support, Expr.apply, meaning_call_ref (object_support l "nested")] at means
  simp only [Expr.meanings, Expr.keywordMeanings, meaning_context, meaning_ref] at means
  obtain ⟨os, argsMean, means⟩ := bind_eq_ok.mp means
  obtain ⟨source, names, argsMean⟩ := bind_eq_ok.mp argsMean
  cases argsMean
  cases means
  cases drawn with
  | deferred generated drawn => exact ⟨source, _, names, generated, drawn⟩

end Linking
end IdlGen
