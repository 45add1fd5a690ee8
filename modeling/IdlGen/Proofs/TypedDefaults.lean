import IdlGen.Proofs.DefaultRuns
import IdlGen.Proofs.DefaultedParts

/-!
Declared defaults that are of the types of their fields. A value of a type can be given its
defaults and is then a value of the type again (`Presents.declares_defaulted`).
-/
namespace IdlGen

open Run Outcome

variable {default : Field → Value} {r : Record} {fields : List (String × Value)} {f : Field}
  {output word : String} {entries : List (Value × Value)} {hashes : Bool}

namespace Record

variable {field : String × Value}

theorem attribute_of_zip
    (names : fields.map (·.1) = r.fields.map fun f => Name.attributeName f.name)
    (paired : (f, field) ∈ r.fields.zip fields) : Name.attributeName f.name = field.1 := by
  have aligned : List.Forall₂ (· = ·) (r.fields.map fun f => Name.attributeName f.name)
      (fields.map (·.1)) := by
    rw [names]
    exact List.forall₂_refl _
  rw [List.forall₂_map_left_iff, List.forall₂_map_right_iff] at aligned
  exact (List.forall₂_iff_zip.mp aligned).2 paired

theorem mem_filled_cases
    (names : fields.map (·.1) = r.fields.map fun f => Name.attributeName f.name)
    (member : field ∈ r.filled default fields) :
    field ∈ fields ∨ ∃ f ∈ r.fillable, field = (Name.attributeName f.name, default f) := by
  rcases mem_filled member with known | ⟨f, fills, value, named | ⟨old, paired, named⟩⟩
  · exact .inl known
  · exact .inr ⟨f, fills, Prod.ext named value⟩
  · exact .inr ⟨f, fills, Prod.ext (named.trans (attribute_of_zip names paired).symm) value⟩

end Record

namespace Surroundings

/-- The declared default of a field is of its type: a literal of the type, or one that refers to
    other values and evaluates to a value of the type. -/
def Suits (s : Surroundings) (g : Group) (f : Field) : Prop :=
  WellTyped g f.type f.default ∨
    ∃ e v, Companion.declaredDefault g f = .ok e ∧ e.meaning s = .ok (.value v) ∧
      s.Declares g f.type false v

/-- All declared defaults of a group suit the types of their fields. -/
def DefaultsSuit (s : Surroundings) (g : Group) : Prop :=
  ∀ r ∈ g.records, ∀ f ∈ r.fields, f.declares → s.Suits g f

/-- All declared defaults of a group are written and evaluate to values that can be built. -/
def DefaultsEvaluate (s : Surroundings) (g : Group) : Prop :=
  ∀ r ∈ g.records, ∀ f ∈ r.fields, f.declares →
    ∃ e v, Companion.declaredDefault g f = .ok e ∧ e.meaning s = .ok (.value v) ∧
      v.Built fun _ _ => True

end Surroundings

section
variable {g : Group} {s : Surroundings} {m : Machine} {raw streams : Streams} {v : Value}
variable {type : FieldType} {frozen : Bool} {hint : TypeHint}

theorem evaluatedDefault_of_meaning {e : Expr} (written : Companion.declaredDefault g f = .ok e)
    (means : e.meaning s = .ok (.value v)) : g.evaluatedDefault s f = v := by
  simp only [Group.evaluatedDefault, written, bind, Except.bind, means]
  rfl

theorem Surroundings.Declares.represents (declares : s.Declares g type frozen v)
    (hinted : (g.hint type frozen).outcome = .ok hint) : Represents g s hint v := by
  obtain ⟨-, fuel, other, known, represents⟩ := declares
  cases hinted.symm.trans (Group.hint_of_within known)
  exact represents

theorem Surroundings.Declares.isNull (declares : s.Declares g type frozen v) :
    v.isNull = false := by
  obtain ⟨-, fuel, hint, -, represents⟩ := declares
  cases represents with
  | @builtin word v kind =>
    cases v with
    | null => cases kind
    | _ => rfl
  | _ => rfl

theorem Surroundings.Suits.evaluates (suits : s.Suits g f) (finds : s.FindsClasses g)
    (attributes : g.AttributesApart) (data : g.ReachesData f.type) :
    ∃ e v, Companion.declaredDefault g f = .ok e ∧ e.meaning s = .ok (.value v) ∧
      s.Declares g f.type false v := by
  rcases suits with typed | evaluates
  · obtain ⟨hint, hinted⟩ := finds.hint_exists data false
    obtain ⟨e, v, written, means, represents, -⟩ :=
      typed.evaluates finds attributes data (fun impossible => by cases impossible) hinted
    exact ⟨e, v, written, means, data, _, hint, hinted, represents⟩
  · exact evaluates

namespace Surroundings.DefaultsSuit

theorem declares (suit : s.DefaultsSuit g) (program : IsProgram g raw streams)
    (attributes : g.AttributesApart) (finds : s.FindsClasses g) :
    ∀ r ∈ g.records, ∀ f ∈ r.fields, f.declares →
      s.Declares g f.type false (g.evaluatedDefault s f) := by
  intro r declared f member declares
  obtain ⟨e, v, written, means, typed⟩ := (suit r declared f member declares).evaluates finds
    attributes (program.reachesData r declared f member)
  rw [evaluatedDefault_of_meaning written means]
  exact typed

theorem defaultsEvaluate (suit : s.DefaultsSuit g) (program : IsProgram g raw streams)
    (attributes : g.AttributesApart) (finds : s.FindsClasses g) : s.DefaultsEvaluate g := by
  intro r declared f member declares
  obtain ⟨e, v, written, means, -, fuel, hint, -, represents⟩ :=
    (suit r declared f member declares).evaluates finds attributes
      (program.reachesData r declared f member)
  exact ⟨e, v, written, means,
    represents.built finds program.reachesData fun _ _ _ _ _ _ => trivial⟩

end Surroundings.DefaultsSuit

namespace Surroundings.DefaultsEvaluate

theorem exists_default (evaluate : s.DefaultsEvaluate g) :
    ∀ r ∈ g.records, ∀ f ∈ r.fields, f.declares →
      Companion.DefaultMeans g s f (g.evaluatedDefault s f) := by
  intro r declared f member declares
  obtain ⟨e, v, written, means, -⟩ := evaluate r declared f member declares
  rw [evaluatedDefault_of_meaning written means]
  exact ⟨e, written, means⟩

theorem built_default (evaluate : s.DefaultsEvaluate g) :
    ∀ output r, g.recordOf? output = some r → ∀ f ∈ r.fillable,
      (g.evaluatedDefault s f).Built fun _ _ => True := by
  intro output r known f fills
  obtain ⟨declared, -⟩ := Group.recordOf?_eq_some known
  obtain ⟨member, declares⟩ := Record.mem_fillable fills
  obtain ⟨e, v, written, means, built⟩ := evaluate r declared f member declares
  rw [evaluatedDefault_of_meaning written means]
  exact built

end Surroundings.DefaultsEvaluate

/-- Companions are offered, and the instances of each class carry the output name of the record that
    the class is for. -/
structure Run.Program.Presents (p : Program) (g : Group) (s : Surroundings) (m : Machine) : Prop
    extends p.Offers g s m where
  own : ∀ r ∈ g.records, ∀ cls t, g.classRef r.name = .ok cls → s.ref cls = .ok (.record t) →
    g.outputName r.name = .ok t.cls.name

theorem Group.classRef_of_outputName {name other : String}
    (same : g.outputName name = g.outputName other) : g.classRef name = g.classRef other := by
  rw [classRef, classRef, same]

variable {p : Program}

theorem Surroundings.FindsClasses.recordOf?_eq (finds : s.FindsClasses g)
    (declared : r ∈ g.records) (named : g.outputName r.name = .ok output) :
    g.recordOf? output = some r := by
  have some : (g.recordOf? output).isSome := by
    rw [Group.recordOf?, List.find?_isSome]
    exact ⟨r, declared, by simp [named, Except.toOption]⟩
  obtain ⟨other, known⟩ := Option.isSome_iff_exists.mp some
  obtain ⟨otherDeclared, otherNamed⟩ := Group.recordOf?_eq_some known
  rw [known, finds.apart other otherDeclared r declared
    (Group.classRef_of_outputName (otherNamed.trans named.symm))]

/-! ### Values of types -/

section
variable {element key value : TypeHint} {items : List Value}

def DefaultsTo (g : Group) (s : Surroundings) (default : Field → Value) (hint : TypeHint)
    (v : Value) : Prop :=
  ∃ w, g.defaulted default v = .ok w ∧ Represents g s hint w

theorem defaultsTo_builtin (kind : v.builtin? = some word) :
    DefaultsTo g s default (.builtin word) v := by
  refine ⟨v, ?_, .builtin kind⟩
  cases v with
  | bool _ | int _ | float _ | text _ | bytes _ => rfl
  | _ => cases kind

section
variable (each : ∀ u ∈ items, DefaultsTo g s default element u)
include each

theorem images_of_defaultsTo :
    (∀ u ∈ items, g.defaulted default u = .ok (g.image default u)) ∧
      ∀ w ∈ items.map (g.image default), Represents g s element w :=
  ⟨fun u member => (Group.defaulted_image (each u member)).1,
    List.forall_mem_map.mpr fun u member => (Group.defaulted_image (each u member)).2⟩

theorem defaultsTo_list :
    DefaultsTo g s default (.list element) (.list items) := by
  obtain ⟨done, represented⟩ := images_of_defaultsTo each
  exact ⟨_, Group.defaulted_of_parts (v := .list items) done, .list represented⟩

theorem defaultsTo_tuple :
    DefaultsTo g s default (.tuple element) (.tuple items) := by
  obtain ⟨done, represented⟩ := images_of_defaultsTo each
  exact ⟨_, Group.defaulted_of_parts (v := .tuple items) done, .tuple represented⟩

theorem setItems_images (hashable : ∀ w, Represents g s element w → w.hashable) :
    ∃ kept, setItems (items.map (g.image default)) = .ok kept ∧
      ∀ w ∈ kept, Represents g s element w := by
  obtain ⟨-, represented⟩ := images_of_defaultsTo each
  exact ⟨_, setItems_eq_ok fun w member => hashable w (represented w member),
    fun w member => represented w (Value.mem_of_mem_distinct member)⟩

theorem defaultsTo_set (hashable : ∀ w, Represents g s element w → w.hashable) :
    DefaultsTo g s default (.set element) (.set items) := by
  obtain ⟨done, -⟩ := images_of_defaultsTo each
  obtain ⟨kept, collected, represented⟩ := setItems_images each hashable
  have made := Group.defaulted_of_parts (v := .set items) done
  exact ⟨.set kept, made.trans (map_eq_ok.mpr ⟨kept, collected, rfl⟩), .set represented⟩

theorem defaultsTo_frozenset (hashable : ∀ w, Represents g s element w → w.hashable) :
    DefaultsTo g s default (.frozenset element) (.frozenset items) := by
  obtain ⟨done, -⟩ := images_of_defaultsTo each
  obtain ⟨kept, collected, represented⟩ := setItems_images each hashable
  have made := Group.defaulted_of_parts (v := .frozenset items) done
  exact ⟨.frozenset kept, made.trans (map_eq_ok.mpr ⟨kept, collected, rfl⟩), .frozenset represented⟩

theorem defaultsTo_sequence :
    DefaultsTo g s default (if frozen then .tuple element else .list element)
      (if frozen then .tuple items else .list items) := by
  cases frozen with
  | false => exact defaultsTo_list each
  | true => exact defaultsTo_tuple each

theorem defaultsTo_collection
    (hashable : hashes = true → ∀ w, Represents g s element w → w.hashable) :
    DefaultsTo g s default
      (if hashes then if frozen then .frozenset element else .set element else .list element)
      (if hashes then if frozen then .frozenset items else .set items else .list items) := by
  cases hashes with
  | false => exact defaultsTo_list each
  | true =>
    cases frozen with
    | false => exact defaultsTo_set each (hashable rfl)
    | true => exact defaultsTo_frozenset each (hashable rfl)

end

theorem defaultsTo_pair {k u : Value} (first : DefaultsTo g s default key k)
    (second : DefaultsTo g s default value u) :
    DefaultsTo g s default (.pair key value) (.tuple [k, u]) := by
  obtain ⟨k', keyDone, keyRepresents⟩ := first
  obtain ⟨u', valueDone, valueRepresents⟩ := second
  refine ⟨.tuple [k', u'], ?_, .pair keyRepresents valueRepresents⟩
  simp [Group.defaulted, Group.defaultedAll, keyDone, valueDone, bind, Except.bind, pure,
    Except.pure]

section
variable (each : ∀ entry ∈ entries,
  DefaultsTo g s default key entry.1 ∧ DefaultsTo g s default value entry.2)
include each

theorem defaultsTo_dict (hashable : ∀ w, Represents g s key w → w.hashable) :
    DefaultsTo g s default (.dict key value) (.dict entries) := by
  have keys (entry : Value × Value) (member : entry ∈ entries) :=
    Group.defaulted_image (each entry member).1
  have values (entry : Value × Value) (member : entry ∈ entries) :=
    Group.defaulted_image (each entry member).2
  have done : ∀ u ∈ (Value.dict entries).parts,
      g.defaulted default u = .ok (g.image default u) := by
    intro u member
    rcases List.mem_append.mp member with inKeys | inValues
    · obtain ⟨entry, known, rfl⟩ := List.mem_map.mp inKeys
      exact (keys entry known).1
    · obtain ⟨entry, known, rfl⟩ := List.mem_map.mp inValues
      exact (values entry known).1
  have kept : dictEntries
        (entries.map fun entry => (g.image default entry.1, g.image default entry.2)) =
      .ok (Value.distinctEntries
        (entries.map fun entry => (g.image default entry.1, g.image default entry.2))) :=
    dictEntries_eq_ok (List.forall_mem_map.mpr fun entry known => hashable _ (keys entry known).2)
  refine ⟨_, (Group.defaulted_of_parts done).trans (map_eq_ok.mpr ⟨_, kept, rfl⟩),
    .dict (fun entry member => ?_) (fun entry member => ?_)⟩
  · obtain ⟨new, inNew, same⟩ := List.mem_map.mp (Value.mem_of_mem_distinctEntries member).1
    obtain ⟨old, known, rfl⟩ := List.mem_map.mp inNew
    exact same ▸ (keys old known).2
  · obtain ⟨new, inNew, same⟩ := List.mem_map.mp (Value.mem_of_mem_distinctEntries member).2
    obtain ⟨old, known, rfl⟩ := List.mem_map.mp inNew
    exact same ▸ (values old known).2

theorem defaultsTo_pairs :
    ∀ pair ∈ Value.pairs entries, DefaultsTo g s default (.pair key value) pair :=
  List.forall_mem_map.mpr fun entry member =>
    defaultsTo_pair (each entry member).1 (each entry member).2

theorem defaultsTo_entries {hashes : Bool}
    (keysHash : hashes = true → ∀ w, Represents g s key w → w.hashable)
    (allHash : frozen = true → hashes = true ∧ ∀ w, Represents g s value w → w.hashable) :
    DefaultsTo g s default (if frozen then .frozenset (.pair key value)
        else if hashes then .dict key value else .list (.pair key value))
      (if frozen then .frozenset (Value.pairs entries)
        else if hashes then .dict entries else .list (Value.pairs entries)) := by
  cases frozen with
  | true =>
    obtain ⟨keysToo, valuesHash⟩ := allHash rfl
    refine defaultsTo_frozenset (defaultsTo_pairs each) fun w represents => ?_
    cases represents with
    | pair first second =>
      rw [Value.hashable, Value.hashableList_iff]
      simp [keysHash keysToo _ first, valuesHash _ second]
  | false =>
    cases hashes with
    | true => exact defaultsTo_dict each (keysHash rfl)
    | false => exact defaultsTo_list (defaultsTo_pairs each)

end

theorem defaultsTo_record {cls : Ref} {t : RecordType} {r : Record} {fields : List (String × Value)}
    (declared : r ∈ g.records) (apart : (r.fields.map fun f => Name.attributeName f.name).Nodup)
    (named : g.classRef r.name = .ok cls) (found : s.ref cls = .ok (.record t)) (isFor : t.IsFor r)
    (known : g.recordOf? t.cls.name = some r) (names : fields.map (·.1) = t.fields.map (·.1))
    (hints : ∀ f ∈ r.fields, ∃ hint, (g.hint f.type false).outcome = .ok hint)
    (suit : ∀ f ∈ r.fields, f.declares → ∀ hint, (g.hint f.type false).outcome = .ok hint →
      Represents g s hint (default f))
    (each : ∀ field ∈ fields, field.2 ≠ .null → ∀ f ∈ r.fields,
      Name.attributeName f.name = field.1 → ∀ hint, (g.hint f.type false).outcome = .ok hint →
        DefaultsTo g s default hint field.2) :
    DefaultsTo g s default (.cls cls) (.record t.cls fields) := by
  have done : ∀ u ∈ (Value.record t.cls fields).parts,
      g.defaulted default u = .ok (g.image default u) := by
    intro u member
    obtain ⟨field, inFields, rfl⟩ := List.mem_map.mp member
    by_cases null : field.2 = .null
    · rw [null]
      rfl
    · obtain ⟨f, inRecord, same⟩ :=
        isFor.field_of_name (names ▸ List.mem_map_of_mem inFields : field.1 ∈ _)
      obtain ⟨hint, hinted⟩ := hints f inRecord
      exact (Group.defaulted_image (each field inFields null f inRecord same hint hinted)).1
  have attributes : (fields.map fun field => (field.1, g.image default field.2)).map (·.1) =
      r.fields.map fun f => Name.attributeName f.name := by
    simpa [isFor.fields, Function.comp_def] using names
  have size : r.fields.length =
      (fields.map fun field => (field.1, g.image default field.2)).length := by
    simpa using (congrArg List.length attributes).symm
  refine ⟨_, (Group.defaulted_of_parts done).trans (by rw [Group.rebuilt, known]),
    .record declared named found ?_ ?_⟩
  · rw [Option.elim, Record.names_filled size, attributes, isFor.fields, List.map_map]
    rfl
  · intro field member present f inRecord same hint hinted
    rcases Record.mem_filled_cases attributes member with before | ⟨other, fills, rfl⟩
    · obtain ⟨old, inFields, rfl⟩ := List.mem_map.mp before
      have oldPresent : old.2 ≠ .null := by
        intro null
        rw [null] at present
        exact present rfl
      exact (Group.defaulted_image (each old inFields oldPresent f inRecord same hint hinted)).2
    · obtain ⟨otherIn, declares⟩ := Record.mem_fillable fills
      cases field_of_attribute apart inRecord otherIn same
      exact suit f inRecord declares hint hinted

/-- A value of a type can be given its defaults, and is of the type again. Frozen values are
    of hashable types. -/
theorem Represents.defaultsTo (finds : s.FindsClasses g) (attributes : g.AttributesApart)
    (own : ∀ r ∈ g.records, ∀ cls t, g.classRef r.name = .ok cls → s.ref cls = .ok (.record t) →
      g.outputName r.name = .ok t.cls.name)
    (suit : ∀ r ∈ g.records, ∀ f ∈ r.fields, f.declares → s.Declares g f.type false (default f))
    (data : g.ReachesData type) (hashes : frozen = true → g.Hashes [] true type) {fuel : Nat}
    (hinted : (g.hintWithin fuel type frozen).outcome = .ok hint)
    (represents : Represents g s hint v) : DefaultsTo g s default hint v := by
  have laid := finds.laidOut
  induction v using Value.induction_on_size generalizing type frozen fuel hint with
  | step v ih =>
    cases data.dataType with
    | primitive resolves known =>
      obtain ⟨below, hinted⟩ := Group.exists_step_of_hintWithin resolves hinted
      obtain ⟨word, rfl⟩ := Primitive.hint_eq_ok hinted
      cases represents with
      | builtin kind => exact defaultsTo_builtin kind
    | enum resolves =>
      obtain ⟨below, hinted⟩ := Group.exists_step_of_hintWithin resolves hinted
      obtain ⟨cls, named, rfl⟩ := map_eq_ok.mp hinted
      obtain ⟨cls', t, named', found, -⟩ := finds.enum _ (Group.declared_of_resolveType resolves)
      cases named.symm.trans named'
      cases represents with
      | member found' known => exact ⟨_, rfl, .member found' known⟩
      | record declared named found' names each => cases found.symm.trans found'
    | list resolves _ =>
      obtain ⟨below, hinted⟩ := Group.exists_step_of_hintWithin resolves hinted
      obtain ⟨inner, known, made⟩ := bind_eq_ok.mp hinted
      cases made
      obtain ⟨items, rfl, each⟩ := represents_sequence_iff.mp represents
      have element := data.held resolves (List.mem_singleton_self _)
      refine defaultsTo_sequence fun u member => ?_
      refine ih u ((Value.collects_list rfl).sizeOf_lt member) element (fun isFrozen => ?_) known
        (each u member)
      subst isFrozen
      exact ((hashes rfl).reason resolves).2
    | set resolves _ =>
      obtain ⟨below, hinted⟩ := Group.exists_step_of_hintWithin resolves hinted
      obtain ⟨elementHashes, answered, hinted⟩ := bind_eq_ok.mp hinted
      obtain ⟨inner, known, made⟩ := bind_eq_ok.mp hinted
      cases made
      obtain ⟨items, rfl, each⟩ := represents_collection_iff.mp represents
      have element := data.held resolves (List.mem_singleton_self _)
      refine defaultsTo_collection (fun u member => ?_) fun yes w held => ?_
      · refine ih u ((Value.collects_set rfl).sizeOf_lt member) element (fun yes => ?_) known
          (each u member)
        subst yes
        exact .of_isHashable answered
      · subst yes
        exact (laid.hashed_of_isHashable answered ⟨element, below, inner, known, held⟩).hashable
    | @map _ key value resolves _ _ =>
      obtain ⟨below, hinted⟩ := Group.exists_step_of_hintWithin resolves hinted
      obtain ⟨valueHint, valueKnown, hinted⟩ := bind_eq_ok.mp hinted
      obtain ⟨keysHash, answered, hinted⟩ := bind_eq_ok.mp hinted
      obtain ⟨keyHint, keyKnown, made⟩ := bind_eq_ok.mp hinted
      cases made
      obtain ⟨entries, rfl, each⟩ := represents_entries_iff.mp represents
      obtain ⟨dataKey, dataValue⟩ := data.entries resolves
      have reason (isFrozen : frozen = true) : g.Hashes [] true key ∧ g.Hashes [] true value :=
        ((hashes isFrozen).reason resolves).2
      have keyHashes (yes : keysHash = true) : g.Hashes [] true key := by
        cases isFrozen : frozen with
        | true => exact (reason isFrozen).1
        | false =>
          subst isFrozen yes
          exact .of_isHashable answered
      refine defaultsTo_entries (fun entry member => ⟨?_, ?_⟩) (fun yes w held => ?_)
        (fun isFrozen => ⟨?_, fun w held => ?_⟩)
      · exact ih entry.1 ((Value.maps_map rfl).sizeOf_lt member).1 dataKey keyHashes keyKnown
          (each entry member).1
      · exact ih entry.2 ((Value.maps_map rfl).sizeOf_lt member).2 dataValue
          (fun isFrozen => (reason isFrozen).2) valueKnown (each entry member).2
      · subst yes
        exact (laid.hashed_of_isHashable (keyHashes rfl).isHashable
          ⟨dataKey, below, keyHint, keyKnown, held⟩).hashable
      · subst isFrozen
        cases answered
        rfl
      · subst isFrozen
        exact (laid.hashed_of_isHashable (reason rfl).2.isHashable
          ⟨dataValue, below, valueHint, valueKnown, held⟩).hashable
    | @record _ r resolves =>
      obtain ⟨below, hinted⟩ := Group.exists_step_of_hintWithin resolves hinted
      have declared : r ∈ g.records := Group.declared_of_resolveType resolves
      obtain ⟨cls, named, rfl⟩ := map_eq_ok.mp hinted
      obtain ⟨cls', t, named', found, isFor⟩ := finds.record r declared
      cases named.symm.trans named'
      cases represents with
      | member found' known => cases found.symm.trans found'
      | @record _ t' r' fields declared' named' found' names each =>
        cases found.symm.trans found'
        cases finds.apart r' declared' r declared (named'.trans named.symm)
        refine defaultsTo_record declared (attributes r declared) named found isFor
          (finds.recordOf?_eq declared (own r declared cls t named found)) names
          (fun f inRecord => finds.hint_exists (data.field resolves inRecord) false)
          (fun f inRecord declares hint hinted =>
            (suit r declared f inRecord declares).represents hinted)
          fun field member present f inRecord same hint hinted => ?_
        exact ih field.2 (Value.sizeOf_part (List.mem_map_of_mem member))
          (data.field resolves inRecord) (fun impossible => by cases impossible) hinted
          (each field member present f inRecord same hint hinted)

end

theorem Run.Program.Offers.built (offers : p.Offers g s m) (program : IsProgram g raw streams)
    (declares : s.Declares g type frozen v) : v.Built g.Instance := by
  obtain ⟨-, fuel, hint, -, represents⟩ := declares
  exact represents.built offers.classes program.reachesData offers.labels

/-- Where declared defaults are of their types, a value of a type can be given its defaults, and is
    of the type again. -/
theorem Run.Program.Presents.declares_defaulted (presents : p.Presents g s m)
    (program : IsProgram g raw streams) (attributes : g.AttributesApart) (suit : s.DefaultsSuit g)
    (declares : s.Declares g type false v) :
    ∃ w, g.defaulted (g.evaluatedDefault s) v = .ok w ∧ s.Declares g type false w := by
  obtain ⟨data, fuel, hint, hinted, represents⟩ := declares
  have typed := suit.declares program attributes presents.classes
  obtain ⟨w, done, still⟩ := represents.defaultsTo presents.classes attributes presents.own typed
    data (fun impossible => by cases impossible) hinted
  exact ⟨w, done, data, fuel, hint, hinted, still⟩

theorem Surroundings.declares_scalar {p : Primitive} (data : g.ReachesData type)
    (resolves : g.resolveType type = .ok (.primitive p)) (hinted : p.hint = .ok (.builtin word))
    (kind : v.builtin? = some word) : s.Declares g type frozen v :=
  ⟨data, 1, .builtin word, Group.hintWithin_of_step resolves hinted, .builtin kind⟩

theorem Surroundings.declares_dict {key value : FieldType} (data : g.ReachesData type)
    (resolves : g.resolveType type = .ok (.map key value)) (finds : s.FindsClasses g)
    (answered : g.isHashable key true = .ok true)
    (each : ∀ entry ∈ entries, s.Declares g key true entry.1 ∧ s.Declares g value false entry.2) :
    s.Declares g type false (.dict entries) := by
  obtain ⟨hint, hinted⟩ := finds.hint_exists data false
  obtain ⟨below, made⟩ := Group.exists_step_of_hintWithin resolves hinted
  obtain ⟨valueHint, valueKnown, made⟩ := bind_eq_ok.mp made
  obtain ⟨hashes, asked, made⟩ := bind_eq_ok.mp made
  cases answered.symm.trans asked
  obtain ⟨keyHint, keyKnown, made⟩ := bind_eq_ok.mp made
  cases made
  refine ⟨data, _, _, hinted, .dict (fun entry member => ?_) (fun entry member => ?_)⟩
  · exact (each entry member).1.represents (Group.hint_of_within keyKnown)
  · exact (each entry member).2.represents (Group.hint_of_within valueKnown)

theorem Run.Program.Presents.cls_eq (presents : p.Presents g s m) (declared : r ∈ g.records)
    (named : g.outputName r.name = .ok output) :
    ∃ cls t, g.classRef r.name = .ok cls ∧ s.ref cls = .ok (.record t) ∧ t.IsFor r ∧
      t.cls = { name := output, hashable := decide (r.kind ≠ .exception) } := by
  obtain ⟨cls, t, known, found, isFor⟩ := presents.classes.record r declared
  have own := presents.own r declared cls t known found
  obtain ⟨label, -⟩ := presents.labels r declared cls t known found
  cases named.symm.trans own
  refine ⟨cls, t, known, found, isFor, ?_⟩
  rw [← isFor.hashable, ← label]

theorem Run.Program.Presents.declares_record {p : Program} (presents : p.Presents g s m)
    (data : g.ReachesData type) {r : Record} {output : String} {fields : List (String × Value)}
    (resolves : g.resolveType type = .ok (.record r)) (named : g.outputName r.name = .ok output)
    (names : fields.map (·.1) = r.fields.map fun f => Name.attributeName f.name)
    (each : ∀ field ∈ fields, field.2 ≠ .null → ∀ f ∈ r.fields,
      Name.attributeName f.name = field.1 → s.Declares g f.type false field.2) :
    s.Declares g type frozen
      (.record { name := output, hashable := decide (r.kind ≠ .exception) } fields) := by
  have declared : r ∈ g.records := Group.declared_of_resolveType resolves
  obtain ⟨cls, t, known, found, isFor, same⟩ := presents.cls_eq declared named
  have attributes : fields.map (·.1) = t.fields.map (·.1) := by
    rw [names, isFor.fields, List.map_map]
    rfl
  rw [← same]
  refine ⟨data, 1, .cls cls, Group.hintWithin_of_step resolves (map_eq_ok.mpr ⟨cls, known, rfl⟩),
    .record declared known found attributes ?_⟩
  intro field member present f inRecord isNamed hint hinted
  exact (each field member present f inRecord isNamed).represents hinted

end

namespace Run.Program

variable {p : Program} {g : Group} {m : Machine}

def presentsLoaded (p : Program) (g : Group) (m : Machine) : Bool :=
  p.offersLoaded g m && g.records.all fun r =>
    (g.classRef r.name).toOption.any fun cls =>
      match m.linked.ref cls with
      | .ok (.record t) => (g.outputName r.name).toOption == some t.cls.name
      | _ => false

theorem presents_of_loaded (presents : p.presentsLoaded g m) : p.Presents g m.linked m := by
  simp only [presentsLoaded, Bool.and_eq_true, List.all_eq_true] at presents
  obtain ⟨offers, records⟩ := presents
  refine ⟨offers_of_loaded offers, fun r declared cls t named found => ?_⟩
  have own := records r declared
  rw [named] at own
  simp only [Except.toOption, Option.any_some, found] at own
  exact toOption_eq_some.mp (eq_of_beq own)

end Run.Program

end IdlGen
