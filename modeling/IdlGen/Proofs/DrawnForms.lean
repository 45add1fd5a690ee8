import IdlGen.Proofs.Programs
import IdlGen.Proofs.References

/-!
The form of drawn values, by what their type resolves to. `Drawn.form` says what a single level of
a drawn value can be; properties of whole values follow by induction on the value.
-/
namespace IdlGen

open Run Outcome

variable {v w : Value} {items : List Value}

/-! ### What is drawn -/

/-- The values of a primitive type that fit into a context. -/
def Primitive.Holds (c : Context) (p : Primitive) (v : Value) : Prop :=
  match p.range? with
  | some (low, high) => ∃ n, v = .int n ∧ low ≤ n ∧ n ≤ high
  | none =>
    match p with
    | .bool => ∃ b, v = .bool b
    | .double => ∃ x, v = .float x ∧ x ≠ .nan ∧ ∀ negative, x ≠ .infinity negative
    | .string => ∃ t : String, v = .text t ∧ t.length ≤ c.size
    | .binary => ∃ data : List UInt8, v = .bytes data ∧ data.length ≤ c.size
    | _ => False

theorem Primitive.Holds.scalar {c : Context} {p : Primitive} (holds : p.Holds c v) :
    (∃ n, v = .int n) ∨ (∃ b, v = .bool b) ∨ (∃ x, v = .float x) ∨ (∃ t, v = .text t) ∨
      ∃ data, v = .bytes data := by
  unfold Holds at holds
  split at holds
  · obtain ⟨n, rfl, -⟩ := holds
    exact .inl ⟨n, rfl⟩
  · split at holds
    · exact .inr (.inl holds)
    · obtain ⟨x, rfl, -⟩ := holds
      exact .inr (.inr (.inl ⟨x, rfl⟩))
    · obtain ⟨t, rfl, -⟩ := holds
      exact .inr (.inr (.inr (.inl ⟨t, rfl⟩)))
    · obtain ⟨data, rfl, -⟩ := holds
      exact .inr (.inr (.inr (.inr ⟨data, rfl⟩)))
    · cases holds

def Streams.linked (s : Streams) (constants : Ref → Except Fault Value) : Linking :=
  { program := Program.ofStreams s, constants }

/-- No constant has the name of a class in its module. -/
def Streams.ClassesApart (s : Streams) : Prop :=
  ∀ named ∈ s.main, ∀ made ∈ named.2.classes, made.1 ∉ named.2.constantNames

instance (s : Streams) : Decidable s.ClassesApart :=
  inferInstanceAs (Decidable (∀ named ∈ s.main, ∀ made ∈ named.2.classes,
    made.1 ∉ named.2.constantNames))

/-- A field that a drawn instance has whenever the field is chosen: one that is required, or a
    member of a union. -/
def Record.Forces (r : Record) (f : Field) : Prop := f.required ∨ r.kind = .union

instance (r : Record) (f : Field) : Decidable (r.Forces f) :=
  inferInstanceAs (Decidable (f.required ∨ r.kind = .union))

def Record.Chosen (r : Record) (chosen : List Field) : Prop :=
  if r.kind = .union ∧ r.fields ≠ [] then ∃ f ∈ r.fields, chosen = [f] else chosen = r.fields

theorem Record.Chosen.subset {r : Record} {chosen : List Field} (isChosen : r.Chosen chosen) :
    ∀ f ∈ chosen, f ∈ r.fields := by
  intro f member
  unfold Chosen at isChosen
  split at isChosen
  · obtain ⟨only, declared, rfl⟩ := isChosen
    rwa [List.mem_singleton.mp member]
  · rwa [isChosen] at member

/-- A value of an attribute for which nothing is drawn. -/
def Record.Lacks (r : Record) (v : Value) : Prop :=
  v = .null ∨ ∃ className, ∃ field ∈ r.unset className, field.2 = v

theorem Record.Lacks.leaf {r : Record} {v : Value} (lacks : r.Lacks v) :
    v = .null ∨ (∃ n, v = .int n) ∨ (∃ t, v = .text t) ∨ ∃ name, v = .object name := by
  rcases lacks with rfl | ⟨className, field, member, rfl⟩
  · exact .inl rfl
  · obtain ⟨f, -, rfl⟩ := List.mem_map.mp member
    exact unsetValue_leaf rfl

theorem RecordKind.word_eq_union {kind : RecordKind} : kind.word = "union" ↔ kind = .union := by
  cases kind <;> simp [RecordKind.word]

namespace Linking

def Drawn (l : Linking) (g : Group) (c : Context) (type : FieldType) (frozen : Bool) (v : Value) :
    Prop :=
  ∃ fuel e, g.drawWithin fuel type frozen = .ok e ∧ l.DrawsFrom c e v

def Instance (l : Linking) (g : Group) (c : Context) (r : Record) (v : Value) : Prop :=
  ∃ cls fields, v = .record cls fields ∧ cls.hashable = decide (r.kind ≠ .exception) ∧
    ∀ field ∈ fields, r.Lacks field.2 ∨ ∃ f ∈ r.fields, l.Drawn g c f.type false field.2

def DrawnField (l : Linking) (g : Group) (c : Context) (r : Record) (f : Field) (v : Value) :
    Prop :=
  (v = .null ∧ ¬ r.Forces f) ∨ ((r.Forces f ∨ ¬ c.exhausted) ∧ l.Drawn g c f.type false v)

def Populated (l : Linking) (g : Group) (c : Context) (r : Record) (v : Value) : Prop :=
  ∃ cls fields chosen className given, v = .record cls fields ∧
    cls.hashable = decide (r.kind ≠ .exception) ∧ r.Chosen chosen ∧
    replaceFields (r.unset className) given = .ok fields ∧
    List.Forall₂ (fun f entry => Name.attributeName f.name = entry.1 ∧
      l.DrawnField g c r f entry.2) chosen given

def Sampled (l : Linking) (cls : Ref) (v : Value) : Prop :=
  (∃ t, l.object cls = .ok (.enum t) ∧ ∃ m ∈ t.distinctMembers, v = .member t.name m.1 m.2) ∨
    ∃ sequence items, l.object cls = .ok (.value sequence) ∧ sequence.items? = some items ∧
      v ∈ items

def Form (l : Linking) (g : Group) (c : Context) (frozen : Bool) (v : Value) :
    Group.Resolved → Prop
  | .primitive p => p.Holds c v
  | .list element => ∃ items : List Value,
      v = (if frozen then .tuple items else .list items) ∧ items.length ≤ c.size ∧
      ∀ w ∈ items, l.Drawn g c element frozen w
  | .set element => ∃ (hashes : Bool) (items : List Value),
      g.isHashable element true = .ok hashes ∧
      v = (if hashes then if frozen then .frozenset items else .set items else .list items) ∧
      items.length ≤ c.size ∧ ∀ w ∈ items, l.Drawn g c element hashes w
  | .map key value => ∃ (hashes : Bool) (entries : List (Value × Value)),
      (if frozen then hashes = true else g.isHashable key true = .ok hashes) ∧
      v = (if frozen then .frozenset (Value.pairs entries)
        else if hashes then .dict entries else .list (Value.pairs entries)) ∧
      entries.length ≤ c.size ∧
      ∀ entry ∈ entries, l.Drawn g c key hashes entry.1 ∧ l.Drawn g c value frozen entry.2
  | .enum e => ∃ cls, g.classRef e.name = .ok cls ∧ l.Sampled cls v
  | .record r => ∀ other ∈ g.records, other.name = r.name → l.Instance g c.descend other v
  | .constant _ => False
  | .service _ => False

variable {l : Linking} {g : Group} {c : Context} {e : Expr} {frozen : Bool}

variable {type : FieldType}

theorem draws_strategy {attr : String} {kwargs : List (String × Expr)}
    {os : List (String × Object)}
    (known : Expr.keywordMeanings (l.surroundings c) kwargs = .ok os)
    (drawn : l.DrawsFrom c (.strategy attr kwargs) v) : l.Draws (callStrategy attr [] os) v := by
  obtain ⟨o, means, drawn⟩ := drawn
  rw [Expr.strategy, meaning_call_ref (object_strategy l attr), Expr.meanings, known] at means
  cases means
  exact drawn

theorem draws_booleans (drawn : l.Draws (.plain "booleans") v) : ∃ b, v = .bool b := by
  generalize shape : Strategy.plain "booleans" = strategy at drawn
  cases drawn with
  | boolean b => exact ⟨b, rfl⟩
  | none => simp at shape
  | _ => cases shape

theorem draws_integers {low high : Int} (drawn : l.DrawsFrom c (.strategy "integers"
    [("min_value", .literal (.int low)), ("max_value", .literal (.int high))]) v) :
    ∃ n, v = .int n ∧ low ≤ n ∧ n ≤ high := by
  have drawn := draws_strategy rfl drawn
  cases drawn with
  | integer above below => exact ⟨_, rfl, above, below⟩

theorem holds_of_draw {p : Primitive} (made : p.draw = .ok e) (drawn : l.DrawsFrom c e v) :
    p.Holds c v := by
  unfold Primitive.draw at made
  unfold Primitive.Holds
  cases range : p.range? with
  | some bounds =>
    obtain ⟨low, high⟩ := bounds
    rw [range] at made
    cases made
    exact draws_integers drawn
  | none =>
    rw [range] at made
    dsimp only at made
    split at made
    · cases made
      exact draws_booleans (draws_strategy rfl drawn)
    · cases made
      have drawn := draws_strategy rfl drawn
      cases drawn with
      | float defined bounded =>
        refine ⟨_, rfl, fun undefined => ?_, fun negative infinite => ?_⟩
        · exact absurd (defined undefined) (by decide)
        · exact absurd (bounded negative infinite) (by decide)
    · cases made
      have drawn := draws_strategy rfl drawn
      cases drawn with
      | text size => exact ⟨_, rfl, size⟩
    · cases made
      have drawn := draws_strategy rfl drawn
      cases drawn with
      | binary size => exact ⟨_, rfl, size⟩
    · cases made

variable {r : Record} {cls : Ref} {raw streams : Streams}

theorem draws_generator {seen : Group}
    (made : Companion.generator seen r.kind.word (.ref cls) r.fields = .ok e)
    (drawn : l.DrawsFrom c e v) :
    ∃ chosen bindings, r.Chosen chosen ∧ l.DrawsFrom c (.letAll (.ref cls) bindings) v ∧
      List.Forall₂ (fun f binding => Name.attributeName f.name = binding.1 ∧
        ∃ strategy, seen.draw f.type false = .ok strategy ∧
          binding.2 = if r.Forces f then strategy else .support "optional" [strategy, .context])
        chosen bindings := by
  unfold Companion.generator at made
  split at made
  · rename_i empty
    cases made
    have none : r.fields = [] := List.isEmpty_iff.mp empty
    exact ⟨[], [], by simp [Record.Chosen, none], drawn, .nil⟩
  · rename_i some
    have present : r.fields ≠ [] := mt List.isEmpty_iff.mpr some
    split at made
    · rename_i word
      have union : r.kind = .union := RecordKind.word_eq_union.mp word
      obtain ⟨options, each, made⟩ := bind_eq_ok.mp made
      cases made
      obtain ⟨option, member, drawn⟩ := draws_oneOf drawn
      obtain ⟨f, declared, built⟩ := mem_of_mapM each member
      obtain ⟨strategy, known, built⟩ := bind_eq_ok.mp built
      cases built
      refine ⟨[f], _, ?_, drawn, .cons ⟨rfl, strategy, known, ?_⟩ .nil⟩
      · rw [Record.Chosen, if_pos ⟨union, present⟩]
        exact ⟨f, declared, rfl⟩
      · rw [if_pos (.inr union)]
    · rename_i word
      have plain : r.kind ≠ .union := mt RecordKind.word_eq_union.mpr word
      obtain ⟨exprs, each, made⟩ := bind_eq_ok.mp made
      cases made
      refine ⟨r.fields, _, ?_, drawn, ?_⟩
      · rw [Record.Chosen, if_neg fun both => plain both.1]
      · refine (List.forall₂_map_right_iff ..).mpr ((mapM_eq_ok.mp each).imp ?_)
        intro f exprs made
        obtain ⟨name, drawMade, -⟩ := Companion.field_eq_ok made
        obtain ⟨strategy, known, drawMade⟩ := bind_eq_ok.mp drawMade
        refine ⟨name.symm, strategy, known, ?_⟩
        simp only [← Except.ok.inj drawMade, Record.Forces, plain, or_false]

theorem drawnField_of_binding {r : Record} {f : Field} {strategy : Expr} {w : Value}
    (known : g.draw f.type false = .ok strategy)
    (drawn : l.DrawsFrom c
      (if r.Forces f then strategy else .support "optional" [strategy, .context]) w) :
    l.DrawnField g c r f w := by
  split at drawn
  · rename_i forced
    exact .inr ⟨.inl forced, _, strategy, known, drawn⟩
  · rename_i free
    rcases draws_optional drawn with absent | ⟨further, drawn⟩
    · exact .inl ⟨absent, free⟩
    · exact .inr ⟨.inr further, _, strategy, known, drawn⟩

theorem Populated.field {cls : RecordClass} {fields : List (String × Value)}
    (populated : l.Populated g c r (.record cls fields)) {field : String × Value}
    (member : field ∈ fields) : r.Lacks field.2 ∨ ∃ f ∈ r.fields,
      (r.Forces f ∨ ¬ c.exhausted) ∧ l.Drawn g c f.type false field.2 := by
  obtain ⟨_, _, chosen, className, given, same, -, isChosen, replaced, each⟩ := populated
  cases same
  rcases mem_of_replaceFields replaced member with unset | bound
  · exact .inl (.inr ⟨className, field, unset, rfl⟩)
  · obtain ⟨f, inChosen, -, drawn⟩ := mem_of_forall₂ each bound
    exact drawn.imp (fun absent => .inl absent.1) fun drawn => ⟨f, isChosen.subset f inChosen, drawn⟩

theorem Populated.toInstance (populated : l.Populated g c r v) : l.Instance g c r v := by
  obtain ⟨cls, fields, -, -, -, rfl, hashable, -⟩ := id populated
  refine ⟨cls, fields, rfl, hashable, fun field member => ?_⟩
  rcases populated.field member with absent | ⟨f, inFields, -, drawn⟩
  · exact .inl absent
  · exact .inr ⟨f, inFields, drawn⟩

section
variable (program : IsProgram g raw streams) (linked : l.program = Program.ofStreams streams)
include program linked

theorem populated_of_generator (declared : r ∈ g.records) {module : Value}
    (names : g.classRef r.name = .ok cls)
    (made : Companion.generator (g.seenFrom module) r.kind.word (.ref cls) r.fields = .ok e)
    (drawn : l.DrawsFrom c e v) : l.Populated g c r v := by
  obtain ⟨chosen, bindings, isChosen, drawn, each⟩ := draws_generator made drawn
  obtain ⟨t, type, given, fields, found, recordType, rfl, replaced, values⟩ := draws_builds drawn
  have same := program.recordType_of_object linked declared names found recordType
  subst same
  obtain ⟨hashable, attributes, -⟩ := program.record_of_object linked declared names found
  rw [attributes] at replaced
  refine ⟨type.cls, fields, chosen, cls.attr, given, rfl, hashable, isChosen, replaced, ?_⟩
  clear isChosen drawn replaced
  induction each generalizing given with
  | nil =>
    cases values
    exact .nil
  | cons first rest ih =>
    cases values with
    | cons value others =>
      obtain ⟨name, strategy, known, bound⟩ := first
      obtain ⟨sameName, drawn⟩ := value
      rw [Group.draw_seenFrom] at known
      rw [bound] at drawn
      exact .cons ⟨name.trans sameName, drawnField_of_binding known drawn⟩ (ih _ others)

theorem populated_of_nested (declared : r ∈ g.records) {ref : Ref}
    (names : g.companionRef r.name "get_generator" = .ok ref)
    (drawn : l.DrawsFrom c (.support "nested" [.ref ref, .context]) v) :
    l.Populated g c.descend r v := by
  obtain ⟨o, next, found, generated, drawn⟩ := draws_nested drawn
  obtain ⟨module, cls, e, part, clsName, generator, means, rfl⟩ :=
    program.generator_of_object linked declared names found generated
  exact populated_of_generator program linked declared clsName generator ⟨part, means, drawn⟩

theorem Drawn.form (drawn : l.Drawn g c type frozen v) :
    ∃ resolved, g.resolveType type = .ok resolved ∧ l.Form g c frozen v resolved := by
  obtain ⟨fuel, e, made, drawn⟩ := drawn
  cases fuel with
  | zero => cases made
  | succ fuel =>
    rw [Group.drawWithin] at made
    obtain ⟨resolved, resolves, made⟩ := bind_eq_ok.mp made
    refine ⟨resolved, resolves, ?_⟩
    cases resolved with
    | primitive p => exact holds_of_draw made drawn
    | list element =>
      obtain ⟨inner, innerMade, made⟩ := bind_eq_ok.mp made
      cases made
      have known : collection? (if frozen then "tuple_of" else "list_of") =
          some (fun items => if frozen then .tuple items else .list items) := by
        cases frozen <;> rfl
      obtain ⟨items, same, size, each⟩ := draws_collection known drawn
      exact ⟨items, same, size, fun w member => ⟨fuel, inner, innerMade, each w member⟩⟩
    | set element =>
      obtain ⟨hashes, answered, made⟩ := bind_eq_ok.mp made
      cases hashes with
      | true =>
        obtain ⟨inner, innerMade, made⟩ := bind_eq_ok.mp made
        cases made
        have known : collection? (if frozen then "frozenset_of" else "set_of") =
            some (fun items => if frozen then .frozenset items else .set items) := by
          cases frozen <;> rfl
        obtain ⟨items, same, size, each⟩ := draws_collection known drawn
        exact ⟨true, items, answered, same, size,
          fun w member => ⟨fuel, inner, innerMade, each w member⟩⟩
      | false =>
        obtain ⟨inner, innerMade, made⟩ := bind_eq_ok.mp made
        cases made
        obtain ⟨items, same, size, each⟩ := @draws_collection l c _ v "unique_list_of" _ rfl drawn
        exact ⟨false, items, answered, same, size,
          fun w member => ⟨fuel, inner, innerMade, each w member⟩⟩
    | map key value =>
      have steps : ((if frozen then pure true else g.isHashable key true) >>= fun hashes =>
          g.drawWithin fuel key hashes >>= fun key =>
            g.drawWithin fuel value frozen >>= fun value =>
            pure (.support (if frozen then "frozen_items_of" else
              if hashes then "dict_of" else "pairs_of") [key, value, .context])) = .ok e := by
        cases frozen <;> exact made
      obtain ⟨hashes, answered, made⟩ := bind_eq_ok.mp steps
      obtain ⟨keyInner, keyMade, made⟩ := bind_eq_ok.mp made
      obtain ⟨valueInner, valueMade, made⟩ := bind_eq_ok.mp made
      cases made
      have known : entries? (if frozen then "frozen_items_of" else
          if hashes then "dict_of" else "pairs_of") = some (fun entries =>
            if frozen then .frozenset (Value.pairs entries)
            else if hashes then .dict entries else .list (Value.pairs entries)) := by
        cases frozen <;> cases hashes <;> rfl
      obtain ⟨entries, same, size, each⟩ := draws_entries known drawn
      refine ⟨hashes, entries, ?_, same, size, fun entry member => ?_⟩
      · cases frozen with
        | true =>
          cases answered
          rfl
        | false => exact answered
      · obtain ⟨keyDrawn, valueDrawn⟩ := each entry member
        exact ⟨⟨fuel, keyInner, keyMade, keyDrawn⟩, ⟨fuel, valueInner, valueMade, valueDrawn⟩⟩
    | enum e =>
      obtain ⟨cls, names, made⟩ := bind_eq_ok.mp made
      cases made
      exact ⟨cls, names, draws_sampledFrom drawn⟩
    | record r =>
      obtain ⟨ref, names, made⟩ := bind_eq_ok.mp made
      cases made
      intro other declared sameName
      rw [← sameName] at names
      exact (populated_of_nested program linked declared names drawn).toInstance
    | constant _ => cases made
    | service _ => cases made

theorem Drawn.populated (drawn : l.Drawn g c type frozen v)
    (resolves : g.resolveType type = .ok (.record r)) : l.Populated g c.descend r v := by
  obtain ⟨fuel, e, made, drawn⟩ := drawn
  cases fuel with
  | zero => cases made
  | succ fuel =>
    rw [Group.drawWithin, resolves] at made
    obtain ⟨_, same, made⟩ := bind_eq_ok.mp made
    cases same
    obtain ⟨ref, names, made⟩ := bind_eq_ok.mp made
    cases made
    have declared := Group.declared_of_resolveType resolves
    exact populated_of_nested program linked declared names drawn

/-- What the companion of an output can draw in a context. -/
def Generates (l : Linking) (output : String) (c : Context) (v : Value) : Prop :=
  ∃ o id e, l.program.located? (Program.companionPath output) = some (o, id) ∧ o.strategy? = some e ∧
    l.DrawsFrom c e v

theorem populated_of_generates (declared : r ∈ g.records) {output : String}
    (named : g.outputName r.name = .ok output) (generated : l.Generates output c v) :
    l.Populated g c r v := by
  obtain ⟨o, id, e, located, strategy, drawn⟩ := generated
  obtain ⟨unit, member, home, module, cls, made, type, subject, result, clsName, generator, -,
    body⟩ := program.companion_of_output declared named
  obtain ⟨number, found⟩ := program.located_companion member
  rw [linked, Program.companionPath, ← home, found] at located
  cases located
  rw [Output.strategy?, body] at strategy
  cases strategy
  exact populated_of_generator program linked declared clsName generator drawn

/-- What holds of all that is sampled for an enum where a constant stands in the place of its
    class. -/
def Samples (l : Linking) (g : Group) (P : Enum → Value → Prop) : Prop :=
  ∀ type e cls, g.resolveType type = .ok (.enum e) → g.classRef e.name = .ok cls →
    ∀ sequence items, l.object cls = .ok (.value sequence) → sequence.items? = some items →
      ∀ item ∈ items, P e item

theorem samples_of_classesApart (apart : streams.ClassesApart) {P : Enum → Value → Prop} :
    l.Samples g P := by
  intro type e cls resolves names sequence items found
  obtain ⟨named, member, constant, t, inClasses⟩ := program.constant_of_object linked
    (Group.declared_of_resolveType resolves) names found
  exact absurd constant (apart named member _ inClasses)

end

theorem drawWithin_enum {enum : Enum} {fuel : Nat}
    (resolves : g.resolveType type = .ok (.enum enum)) (names : g.classRef enum.name = .ok cls) :
    g.drawWithin (fuel + 1) type frozen =
      .ok (.apply (Ref.strategy "sampled_from") [.ref cls]) := by
  rw [Group.drawWithin, resolves]
  simp [bind, Except.bind, names, pure, Except.pure]

theorem draws_item {sequence item : Value} (found : l.object cls = .ok (.value sequence))
    (known : sequence.items? = some items) (member : item ∈ items) :
    l.DrawsFrom c (.apply (Ref.strategy "sampled_from") [.ref cls]) item := by
  refine ⟨.strategy (.other "sampled_from" [.held (.value sequence)] []), ?_, .item known member⟩
  rw [Expr.apply, meaning_call_ref (object_strategy l "sampled_from"), Expr.meanings, meaning_ref,
    found]
  rfl

def resolvedEnum : Group.Resolved → Option Enum
  | .enum e => some e
  | _ => none

theorem eq_of_resolvedEnum {resolved : Group.Resolved} {e : Enum}
    (found : resolvedEnum resolved = some e) : resolved = .enum e := by
  unfold resolvedEnum at found
  split at found <;> cases found
  rfl

end Linking
end IdlGen
