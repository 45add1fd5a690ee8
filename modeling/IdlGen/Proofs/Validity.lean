import IdlGen.Proofs.Levels
import IdlGen.Proofs.Literals

/-!
Drawn values are what schemas allow (`Valid`, `ValidInstance`): all that is drawn is valid exactly
if no constant with other items stands in the place of an enum class (`drawn_valid_iff`).
-/
namespace IdlGen

open Run Outcome

variable {type : FieldType} {e : Enum} {f : Field}

/-- A value is a member that the enum declares. -/
def Group.IsMember (g : Group) (e : Enum) (v : Value) : Prop :=
  ∃ cls m, g.classRef e.name = .ok cls ∧ m ∈ e.values ∧
    v = .member cls.attr (Name.sanitize m.1) m.2

mutual

/-- A value that is allowed for a type in a context, in the representation that the type has where
    it is frozen or not. -/
inductive Valid (g : Group) : Context → FieldType → Bool → Value → Prop where
  | primitive {c : Context} {type : FieldType} {frozen : Bool} {p : Primitive} {v : Value}
      (resolves : g.resolveType type = .ok (.primitive p)) (holds : p.Holds c v) :
      Valid g c type frozen v
  | member {c : Context} {type : FieldType} {frozen : Bool} {e : Enum} {v : Value}
      (resolves : g.resolveType type = .ok (.enum e)) (declared : g.IsMember e v) :
      Valid g c type frozen v
  | list {c : Context} {type element : FieldType} {frozen : Bool} {items : List Value} {v : Value}
      (resolves : g.resolveType type = .ok (.list element))
      (same : v = if frozen then .tuple items else .list items) (size : items.length ≤ c.size)
      (each : ∀ w ∈ items, Valid g c element frozen w) : Valid g c type frozen v
  | set {c : Context} {type element : FieldType} {frozen hashes : Bool} {items : List Value}
      {v : Value} (resolves : g.resolveType type = .ok (.set element))
      (answered : g.isHashable element true = .ok hashes)
      (same : v = if hashes then if frozen then .frozenset items else .set items else .list items)
      (size : items.length ≤ c.size) (each : ∀ w ∈ items, Valid g c element hashes w) :
      Valid g c type frozen v
  | map {c : Context} {type key value : FieldType} {frozen hashes : Bool}
      {entries : List (Value × Value)} {v : Value}
      (resolves : g.resolveType type = .ok (.map key value))
      (answered : if frozen then hashes = true else g.isHashable key true = .ok hashes)
      (same : v = if frozen then .frozenset (Value.pairs entries)
        else if hashes then .dict entries else .list (Value.pairs entries))
      (size : entries.length ≤ c.size)
      (keys : ∀ entry ∈ entries, Valid g c key hashes entry.1)
      (values : ∀ entry ∈ entries, Valid g c value frozen entry.2) : Valid g c type frozen v
  | record {c : Context} {type : FieldType} {frozen : Bool} {r : Record} {v : Value}
      (resolves : g.resolveType type = .ok (.record r))
      (deeper : ValidInstance g c.descend r v) : Valid g c type frozen v

/-- An instance that the declaration of its record allows. -/
inductive ValidInstance (g : Group) : Context → Record → Value → Prop where
  | mk {c : Context} {r : Record} {cls : RecordClass} {fields : List (String × Value)}
      (attributes : fields.map (·.1) = r.fields.map fun f => Name.attributeName f.name)
      (required : r.kind ≠ .union → ∀ pair ∈ r.fields.zip fields, pair.1.required →
        pair.2.2 ≠ .null)
      (single : r.kind = .union → r.fields ≠ [] → fields.countP (fun field => !field.2.isNull) = 1)
      (each : ∀ pair ∈ r.fields.zip fields, pair.2.2 ≠ .null →
        Valid g c pair.1.type false pair.2.2) : ValidInstance g c r (.record cls fields)

end

section
variable {g : Group} {c : Context} {frozen : Bool} {v : Value}

theorem Valid.ne_null (valid : Valid g c type frozen v) : v ≠ .null := by
  cases valid with
  | primitive _ holds =>
    rcases holds.scalar with ⟨_, rfl⟩ | ⟨_, rfl⟩ | ⟨_, rfl⟩ | ⟨_, rfl⟩ | ⟨_, rfl⟩
    all_goals exact Value.noConfusion
  | member _ declared =>
    obtain ⟨cls, m, -, -, rfl⟩ := declared
    exact Value.noConfusion
  | list _ same =>
    rw [same]
    cases frozen <;> exact Value.noConfusion
  | @set _ _ _ _ hashes _ _ _ _ same | @map _ _ _ _ _ hashes _ _ _ _ same =>
    rw [same]
    cases frozen <;> cases hashes <;> exact Value.noConfusion
  | record _ deeper =>
    cases deeper
    exact Value.noConfusion

theorem Valid.isMember (valid : Valid g c type frozen v)
    (resolves : g.resolveType type = .ok (.enum e)) : g.IsMember e v := by
  cases valid with
  | member known declared =>
    cases resolves.symm.trans known
    exact declared
  | primitive known | list known | set known | map known | record known =>
    cases resolves.symm.trans known

end

namespace Record

/-- No two fields have one attribute, and none has an attribute of every class. -/
def AttributesPlain (r : Record) : Prop :=
  (r.fields.map fun f => Name.attributeName f.name).Nodup ∧
    ∀ f ∈ r.fields, Name.attributeName f.name ∉ (classAttributes "" false).map (·.1)

instance (r : Record) : Decidable r.AttributesPlain := inferInstanceAs (Decidable (_ ∧ _))

def withMember (r : Record) (f : Field) (w : Value) : List (String × Value) :=
  r.fields.map fun other => (Name.attributeName other.name,
    if Name.attributeName other.name = Name.attributeName f.name then w else .null)

variable {r : Record} {w : Value}

theorem mem_withMember (declared : f ∈ r.fields) :
    (Name.attributeName f.name, w) ∈ r.withMember f w :=
  List.mem_map.mpr ⟨f, declared, by simp⟩

theorem AttributesPlain.unset (plain : r.AttributesPlain) (className : String) :
    r.unset className = r.fields.map fun f => (Name.attributeName f.name, .null) := by
  refine List.map_congr_left fun f declared => ?_
  have apart : Name.attributeName f.name ∉
      (classAttributes className (decide (r.kind = .exception))).map (·.1) := plain.2 f declared
  rw [unsetValue, List.lookup_eq_none_iff.mpr]
  · rfl
  · intro entry member
    rw [bne_iff_ne]
    rintro same
    exact apart (same ▸ List.mem_map_of_mem member)

theorem replaceFields_withMember (declared : f ∈ r.fields) :
    replaceFields (r.fields.map fun f => (Name.attributeName f.name, .null))
      [(Name.attributeName f.name, w)] = .ok (r.withMember f w) := by
  rw [replaceFields_eq (by simpa using ⟨f, declared, rfl⟩), List.map_map, withMember]
  congr 1
  refine List.map_congr_left fun other _ => ?_
  by_cases same : Name.attributeName other.name = Name.attributeName f.name
  · simp [same]
  · have differ : (Name.attributeName other.name == Name.attributeName f.name) = false := by
      simpa using same
    simp [same, differ, List.lookup_cons]

theorem countP_withMember (apart : (r.fields.map fun f => Name.attributeName f.name).Nodup)
    (declared : f ∈ r.fields) (set : w ≠ .null) :
    (r.withMember f w).countP (fun field => !field.2.isNull) = 1 := by
  have isSet : w.isNull = false := by
    cases w with
    | null => exact absurd rfl set
    | _ => rfl
  calc (r.withMember f w).countP (fun field => !field.2.isNull)
      = (r.fields.map fun other => Name.attributeName other.name).count
          (Name.attributeName f.name) := by
        rw [withMember, List.count, List.countP_map, List.countP_map]
        refine List.countP_congr fun other _ => ?_
        by_cases same : Name.attributeName other.name = Name.attributeName f.name
        · simp [same, isSet]
        · simp [same, Value.isNull]
    _ = 1 := List.count_eq_one_of_mem apart (List.mem_map_of_mem declared)

theorem mem_zip_withMember {pair : Field × String × Value}
    (inZip : pair ∈ r.fields.zip (r.withMember f w)) :
    pair.1 ∈ r.fields ∧ pair.2.2 =
      if Name.attributeName pair.1.name = Name.attributeName f.name then w else .null := by
  have zipped := @List.zip_map' _ _ _ id (fun other => (Name.attributeName other.name,
    if Name.attributeName other.name = Name.attributeName f.name then w else .null)) r.fields
  rw [List.map_id] at zipped
  rw [withMember, zipped] at inZip
  obtain ⟨other, known, rfl⟩ := List.mem_map.mp inZip
  exact ⟨known, rfl⟩

end Record

def Group.AttributesPlain (g : Group) : Prop := ∀ r ∈ g.records, r.AttributesPlain

instance (g : Group) : Decidable g.AttributesPlain :=
  inferInstanceAs (Decidable (∀ r ∈ g.records, r.AttributesPlain))

namespace Linking

variable {l : Linking} {g : Group} {c : Context} {r : Record} {v : Value}

def AlwaysValid (l : Linking) (g : Group) (v : Value) : Prop :=
  ∀ c type frozen, l.Drawn g c type frozen v → Valid g c type frozen v

theorem DrawnField.valid (drawn : l.DrawnField g c r f v) (valid : l.AlwaysValid g v) :
    (r.Forces f → v ≠ .null) ∧ (v ≠ .null → Valid g c f.type false v) := by
  rcases drawn with ⟨rfl, free⟩ | ⟨-, drawn⟩
  · exact ⟨fun forced => absurd forced free, fun present => absurd rfl present⟩
  · have allowed := valid c f.type false drawn
    exact ⟨fun _ => allowed.ne_null, fun _ => allowed⟩

theorem validInstance_of_all {cls : RecordClass} {fields given : List (String × Value)}
    (apart : (r.fields.map fun f => Name.attributeName f.name).Nodup)
    (several : r.kind = .union → r.fields = [])
    (replaced : replaceFields (r.fields.map fun f => (Name.attributeName f.name, .null)) given =
      .ok fields)
    (each : List.Forall₂ (fun f entry => Name.attributeName f.name = entry.1 ∧
      l.DrawnField g c r f entry.2) r.fields given)
    (parts : ∀ field ∈ fields, l.AlwaysValid g field.2) :
    ValidInstance g c r (.record cls fields) := by
  have names : List.Forall₂ (· = ·) (r.fields.map fun f => Name.attributeName f.name)
      (given.map (·.1)) := by
    rw [List.forall₂_map_left_iff, List.forall₂_map_right_iff]
    exact each.imp fun _ _ both => both.1
  rw [List.forall₂_eq_eq_eq] at names
  have unset : (r.fields.map fun f => (Name.attributeName f.name, Value.null)).map (·.1) =
      r.fields.map fun f => Name.attributeName f.name := List.map_map
  rw [replaceFields_all (names.symm.trans unset.symm) (unset ▸ apart)] at replaced
  cases replaced
  have drawn (pair : Field × String × Value) (inZip : pair ∈ r.fields.zip fields) :
      (r.Forces pair.1 → pair.2.2 ≠ .null) ∧
        (pair.2.2 ≠ .null → Valid g c pair.1.type false pair.2.2) := by
    have field := (List.forall₂_iff_zip.mp each).2 inZip
    exact field.2.valid (parts pair.2 (List.of_mem_zip inZip).2)
  refine .mk names.symm (fun _ pair inZip required => (drawn pair inZip).1 (.inl required)) ?_ ?_
  · exact fun union present => absurd (several union) present
  · exact fun pair inZip => (drawn pair inZip).2

theorem validInstance_of_member {cls : RecordClass} {w : Value}
    (apart : (r.fields.map fun f => Name.attributeName f.name).Nodup) (union : r.kind = .union)
    (declared : f ∈ r.fields) (drawn : l.DrawnField g c r f w) (valid : l.AlwaysValid g w) :
    ValidInstance g c r (.record cls (r.withMember f w)) := by
  obtain ⟨present, allowed⟩ := drawn.valid valid
  have set : w ≠ .null := present (.inr union)
  refine .mk List.map_map (fun plain => absurd union plain) (fun _ _ => ?_) fun pair inZip => ?_
  · exact Record.countP_withMember apart declared set
  · obtain ⟨known, same⟩ := Record.mem_zip_withMember inZip
    rw [same]
    split
    · rename_i sameName
      rw [List.inj_on_of_nodup_map apart known declared sameName]
      exact allowed
    · exact fun present => absurd rfl present

theorem validInstance_of_populated (plain : r.AttributesPlain) (populated : l.Populated g c r v)
    (parts : ∀ w ∈ v.parts, l.AlwaysValid g w) : ValidInstance g c r v := by
  obtain ⟨cls, fields, chosen, className, given, rfl, -, isChosen, replaced, each⟩ := populated
  rw [plain.unset] at replaced
  have inner : ∀ field ∈ fields, l.AlwaysValid g field.2 := fun field member =>
    parts field.2 (List.mem_map_of_mem member)
  unfold Record.Chosen at isChosen
  split at isChosen
  · rename_i isUnion
    obtain ⟨f, declared, rfl⟩ := isChosen
    obtain ⟨⟨name, w⟩, rest, first, none, rfl⟩ := List.forall₂_cons_left_iff.mp each
    cases none
    obtain ⟨rfl, drawn⟩ := first
    rw [Record.replaceFields_withMember declared] at replaced
    cases replaced
    have valid := inner _ (Record.mem_withMember declared)
    exact validInstance_of_member plain.1 isUnion.1 declared drawn valid
  · rename_i several
    subst isChosen
    refine validInstance_of_all plain.1 (fun union => ?_) replaced each inner
    by_contra present
    exact several ⟨union, present⟩

theorem mem_of_mem_distinctMembers {t : EnumType} {m : String × Int}
    (member : m ∈ t.distinctMembers) : m ∈ t.members := by
  have all : ∀ m ∈ t.distinctMembers, m ∈ t.members := by
    refine List.foldlRecOn (motive := fun kept => ∀ m ∈ kept, m ∈ t.members) t.members _ ?_ ?_
    · simp
    · intro kept known next inMembers m member
      split at member
      · exact known m member
      · rcases List.mem_append.mp member with before | last
        · exact known m before
        · rwa [List.mem_singleton.mp last]
  exact all m member

/-- Where a constant stands in the place of an enum class, its items are members of the enum. -/
def SamplesDeclared (l : Linking) (g : Group) : Prop := l.Samples g g.IsMember

variable {raw streams : Streams}

/-- What is sampled for an enum is a declared member, if that is so where a constant stands for its
    class. -/
theorem isMember_of_sampled (program : IsProgram g raw streams)
    (linked : l.program = Program.ofStreams streams) (samples : l.SamplesDeclared g) {cls : Ref}
    (resolves : g.resolveType type = .ok (.enum e)) (names : g.classRef e.name = .ok cls)
    (sampled : l.Sampled cls v) : g.IsMember e v := by
  rcases sampled with ⟨t, found, m, distinct, rfl⟩ | ⟨sequence, items, found, known, member⟩
  · have declared := Group.declared_of_resolveType resolves
    obtain ⟨sameName, members⟩ := program.enum_of_object linked declared names found
    have inMembers := mem_of_mem_distinctMembers distinct
    rw [members] at inMembers
    obtain ⟨own, inValues, rfl⟩ := List.mem_map.mp inMembers
    exact ⟨cls, own, names, inValues, by rw [sameName]⟩
  · exact samples type e cls resolves names sequence items found known v member

theorem valid_drawn (program : IsProgram g raw streams)
    (linked : l.program = Program.ofStreams streams) (attributes : g.AttributesPlain)
    (samples : l.SamplesDeclared g) (v : Value) : l.AlwaysValid g v := by
  induction v using Value.induction_on_size with
  | step v ih =>
    intro c type frozen drawn
    obtain ⟨resolved, resolves, form⟩ := drawn.form program linked
    cases resolved with
    | primitive p => exact .primitive resolves form
    | enum e =>
      obtain ⟨cls, names, sampled⟩ := form
      exact .member resolves (isMember_of_sampled program linked samples resolves names sampled)
    | list element =>
      obtain ⟨items, same, size, each⟩ := form
      refine .list resolves same size fun w member => ?_
      exact ih w ((Value.collects_list same).sizeOf_lt member) c element frozen (each w member)
    | set element =>
      obtain ⟨hashes, items, answered, same, size, each⟩ := form
      refine .set resolves answered same size fun w member => ?_
      exact ih w ((Value.collects_set same).sizeOf_lt member) c element hashes (each w member)
    | map key value =>
      obtain ⟨hashes, entries, answered, same, size, each⟩ := form
      have maps := Value.maps_map same
      refine .map resolves answered same size (fun entry known => ?_) fun entry known => ?_
      · exact ih entry.1 (maps.sizeOf_lt known).1 c key hashes (each entry known).1
      · exact ih entry.2 (maps.sizeOf_lt known).2 c value frozen (each entry known).2
    | record r =>
      have plain := attributes r (Group.declared_of_resolveType resolves)
      refine .record resolves ?_
      exact validInstance_of_populated plain (drawn.populated program linked resolves)
        fun w member => ih w (Value.sizeOf_part member)
    | constant _ => cases form
    | service _ => cases form

/-- If all drawn values are valid, so is what is drawn where a constant stands for an enum. -/
theorem samplesDeclared_of_valid
    (all : ∀ type e, g.draw type false = .ok e → ∀ c v, l.DrawsFrom c e v → Valid g c type false v) :
    l.SamplesDeclared g := by
  intro type e cls resolves names sequence items found known item member
  have made : g.draw type false = .ok (.apply (Ref.strategy "sampled_from") [.ref cls]) :=
    drawWithin_enum resolves names
  exact (all type _ made {} item (draws_item found known member)).isMember resolves

theorem validInstance_of_generates (program : IsProgram g raw streams)
    (linked : l.program = Program.ofStreams streams) (attributes : g.AttributesPlain)
    (samples : l.SamplesDeclared g) (declared : r ∈ g.records) {output : String}
    (named : g.outputName r.name = .ok output) (generated : l.Generates output c v) :
    ValidInstance g c r v := by
  have populated := populated_of_generates program linked declared named generated
  exact validInstance_of_populated (attributes r declared) populated fun w _ =>
    valid_drawn program linked attributes samples w

end Linking

/-- In the program of an accepted group with plain attributes, all values that the strategies of
    types draw are valid exactly if no constant with other items stands in the place of an enum
    class. Then all instances that companions draw are valid. -/
theorem drawn_valid_iff {g : Group} {directories : List String} {format : Bool} {world : World}
    {written : List String}
    (returned : ((Session.generate g directories format).run world).1 = .ok written)
    (attributes : g.AttributesPlain) :
    ∃ streams, Stream.resolved g = .ok streams ∧ ∀ constants,
      ((∀ type e, g.draw type false = .ok e →
          ∀ c v, (streams.linked constants).DrawsFrom c e v → Valid g c type false v) ↔
        (streams.linked constants).SamplesDeclared g) ∧
      ((streams.linked constants).SamplesDeclared g →
        ∀ r ∈ g.records, ∀ output, g.outputName r.name = .ok output →
          ∀ c v, (streams.linked constants).Generates output c v → ValidInstance g c r v) ∧
      (streams.ClassesApart → (streams.linked constants).SamplesDeclared g) := by
  obtain ⟨streams, raw, accepted, program⟩ := isProgram_of_generate returned
  refine ⟨streams, accepted.resolved, fun constants => ?_⟩
  have linked : (streams.linked constants).program = Program.ofStreams streams := rfl
  refine ⟨⟨Linking.samplesDeclared_of_valid, ?_⟩, ?_, ?_⟩
  · intro samples type e made c v drawn
    exact Linking.valid_drawn program linked attributes samples v c type false ⟨_, e, made, drawn⟩
  · intro samples r declared output named c v generated
    exact Linking.validInstance_of_generates program linked attributes samples declared named
      generated
  · intro apart
    exact Linking.samples_of_classesApart program linked apart

theorem trip_drawn_valid :
    ∃ streams, Stream.resolved tripGroup = .ok streams ∧
      ∀ constants r c v, r ∈ tripGroup.records → r.name = "m.Stop" →
        (streams.linked constants).Generates "Stop" c v → ValidInstance tripGroup c r v := by
  have attributes : tripGroup.AttributesPlain := by decide +kernel
  have named : (tripGroup.outputName "m.Stop").toOption = some "Stop" := by decide +kernel
  obtain ⟨written, returned⟩ := tripGroup_accepted
  obtain ⟨streams, resolved, drawn⟩ := drawn_valid_iff returned attributes
  refine ⟨streams, resolved, fun constants r c v declared isStop generated => ?_⟩
  obtain ⟨-, valid, declares⟩ := drawn constants
  have samples := declares (tripGroup_classesApart resolved)
  rw [toOption_eq_some, ← isStop] at named
  exact valid samples r declared "Stop" named c v generated

theorem potRecord_resolves : ∃ r ∈ potGroup.records, ∃ f e, r.fields = [f] ∧
    potGroup.outputName r.name = .ok "Pot" ∧ potGroup.resolveType f.type = .ok (.enum e) := by
  have known : ∃ r ∈ potGroup.records, (potGroup.outputName r.name).toOption = some "Pot" ∧
      r.fields.length = 1 ∧ ∀ f ∈ r.fields,
        ((potGroup.resolveType f.type).toOption.bind Linking.resolvedEnum).isSome := by
    decide +kernel
  obtain ⟨r, declared, named, size, resolves⟩ := known
  obtain ⟨f, only⟩ := List.length_eq_one_iff.mp size
  obtain ⟨e, found⟩ := Option.isSome_iff_exists.mp (resolves f (by simp [only]))
  obtain ⟨resolved, resolves, isEnum⟩ := Option.bind_eq_some_iff.mp found
  rw [toOption_eq_some, Linking.eq_of_resolvedEnum isEnum] at resolves
  exact ⟨r, declared, f, e, only, toOption_eq_some.mp named, resolves⟩

/-- The group is accepted and its attributes are plain, but a pot in a pot can be drawn, where the
    color of a pot should be a member. -/
theorem pot_not_valid :
    ((Session.generate potGroup ["", ""] false).run { working := "/" }).1.toOption.isSome ∧
    potGroup.AttributesPlain ∧
    ∃ streams, Stream.resolved potGroup = .ok streams ∧
      ∃ colors, (((Program.ofStreams streams).classOf "Color").run {}).1 = .ok (.value colors) ∧
      ∃ r ∈ potGroup.records, potGroup.outputName r.name = .ok "Pot" ∧
      ∃ v, (streams.linked fun _ => .ok colors).Generates "Pot" {} v ∧
        ¬ ValidInstance potGroup {} r v := by
  obtain ⟨streams, resolved, colors, draws⟩ := pot_generates
  obtain ⟨r, declared, f, e, only, named, resolves⟩ := potRecord_resolves
  refine ⟨potGroup_checked.1, by decide +kernel, streams, resolved, _, colors, r, declared, named,
    _, draws _, fun valid => ?_⟩
  cases valid with
  | mk attributes required single each =>
    have set := each (f, "of", potOf .null) (by simp [only])
    obtain ⟨cls, m, -, -, no⟩ := (set Value.noConfusion).isMember resolves
    cases no

end IdlGen
