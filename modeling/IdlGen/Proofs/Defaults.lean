import IdlGen.Proofs.Containers
import IdlGen.Proofs.Layouts

/-!
Declared defaults, applied to values by the schema alone (`defaulted`). A second pass changes
nothing if it changes none of the defaults that can be set (`defaulted_defaulted`), and only then
(`fixed_of_blank`).
-/
namespace IdlGen

open Run Outcome

def Field.declares (f : Field) : Bool := !f.default.isNull

/-- The value of a field, or the default if one is declared and the value is absent. -/
def Field.filled (default : Field → Value) (f : Field) (v : Value) : Value :=
  if f.declares && v.isAbsent then default f else v

/-- The first field that declares a default. -/
def Record.firstDeclared? (r : Record) : Option Field := r.fields.find? Field.declares

def setField (name : String) (value : Value) (fields : List (String × Value)) :
    List (String × Value) :=
  fields.map fun field => if field.1 = name then (name, value) else field

/-- The fields of an instance after declared defaults are set: each field of a struct or an
    exception that is absent, and the first declared default of a union without a member. -/
def Record.filled (default : Field → Value) (r : Record) (fields : List (String × Value)) :
    List (String × Value) :=
  if r.kind = .union then
    match r.firstDeclared? with
    | some f =>
      if fields.all fun field => field.2.isNull then
        setField (Name.attributeName f.name) (default f) fields
      else fields
    | none => fields
  else (r.fields.zip fields).map fun pair => (pair.2.1, pair.1.filled default pair.2.2)

namespace Group

/-- The record that an output has the class of. -/
def recordOf? (g : Group) (output : String) : Option Record :=
  g.records.find? fun r => (g.outputName r.name).toOption == some output

theorem recordOf?_eq_some {g : Group} {output : String} {r : Record}
    (known : g.recordOf? output = some r) : r ∈ g.records ∧ g.outputName r.name = .ok output := by
  refine ⟨List.mem_of_find?_eq_some known, ?_⟩
  have same := List.find?_some known
  exact toOption_eq_some.mp (eq_of_beq same)

mutual

/-- A value with the declared defaults of the records of a group applied, where `default` gives
    the values of declared defaults. -/
def defaulted (g : Group) (default : Field → Value) : Value → Except Fault Value
  | .list items => do return .list (← g.defaultedAll default items)
  | .tuple items => do return .tuple (← g.defaultedAll default items)
  | .set items => do return .set (← setItems (← g.defaultedAll default items))
  | .frozenset items => do return .frozenset (← setItems (← g.defaultedAll default items))
  | .dict entries => do return .dict (← dictEntries (← g.defaultedEntries default entries))
  | .record cls fields => do
    let inner ← g.defaultedFields default fields
    match g.recordOf? cls.name with
    | some r => return .record cls (r.filled default inner)
    | none => return .record cls inner
  | v => .ok v

def defaultedAll (g : Group) (default : Field → Value) : List Value → Except Fault (List Value)
  | [] => .ok []
  | v :: rest => do
    let v ← g.defaulted default v
    let rest ← g.defaultedAll default rest
    return v :: rest

def defaultedEntries (g : Group) (default : Field → Value) :
    List (Value × Value) → Except Fault (List (Value × Value))
  | [] => .ok []
  | (k, v) :: rest => do
    let k ← g.defaulted default k
    let v ← g.defaulted default v
    let rest ← g.defaultedEntries default rest
    return (k, v) :: rest

def defaultedFields (g : Group) (default : Field → Value) :
    List (String × Value) → Except Fault (List (String × Value))
  | [] => .ok []
  | (name, v) :: rest => do
    let v ← g.defaulted default v
    let rest ← g.defaultedFields default rest
    return (name, v) :: rest

end

section
variable (g : Group) (default : Field → Value)

theorem defaultedAll_eq_mapM (items : List Value) :
    g.defaultedAll default items = items.mapM (g.defaulted default) := by
  induction items with
  | nil => rw [defaultedAll]; rfl
  | cons v rest ih => rw [defaultedAll, List.mapM_cons, ih]

theorem defaultedEntries_eq_mapM (entries : List (Value × Value)) :
    g.defaultedEntries default entries = entries.mapM fun entry => do
      return (← g.defaulted default entry.1, ← g.defaulted default entry.2) := by
  induction entries with
  | nil => rw [defaultedEntries]; rfl
  | cons entry rest ih =>
    rw [defaultedEntries, List.mapM_cons, ih]
    simp

theorem defaultedFields_eq_mapM (fields : List (String × Value)) :
    g.defaultedFields default fields = fields.mapM fun field => do
      return (field.1, ← g.defaulted default field.2) := by
  induction fields with
  | nil => rw [defaultedFields]; rfl
  | cons field rest ih =>
    rw [defaultedFields, List.mapM_cons, ih]
    simp

end

end Group

/-- Whether a value may stand where records of some classes with some fields may. Classes and other
    objects of a program are no values. -/
def Value.HasForm (allows : RecordClass → List String → Prop) : Value → Prop
  | .record cls fields => allows cls (fields.map (·.1))
  | .object _ => False
  | .ref _ => False
  | _ => True

/-- A value that is built from scalars, enum members, containers and records of some classes. -/
inductive Value.Built (allows : RecordClass → List String → Prop) : Value → Prop where
  | mk {v : Value} (form : v.HasForm allows) (each : ∀ part ∈ v.parts, Built allows part) :
      Built allows v

/-- An instance of a record of the group, which carries the output name of its class and has its
    fields. -/
def Group.Instance (g : Group) (cls : RecordClass) (names : List String) : Prop :=
  cls.label = .output ∧ ∃ r, g.recordOf? cls.name = some r ∧
    names = r.fields.map fun f => Name.attributeName f.name

namespace Value

variable {allows : RecordClass → List String → Prop} {v : Value}

theorem Built.form (built : Built allows v) : v.HasForm allows := by
  cases built with | mk form each => exact form

theorem Built.part {part : Value} (built : Built allows v) (member : part ∈ v.parts) :
    Built allows part := by
  cases built with | mk form each => exact each part member

theorem Built.mono {other : RecordClass → List String → Prop} (built : Built allows v)
    (weaker : ∀ cls names, allows cls names → other cls names) : Built other v := by
  induction built with
  | @mk v form each ih =>
    refine .mk ?_ ih
    cases v with
    | record cls fields => exact weaker _ _ form
    | _ => exact form

theorem isDataList_iff (items : List Value) : isDataList items ↔ ∀ v ∈ items, v.isData := by
  induction items with
  | nil => simp [isDataList]
  | cons v rest ih => simp [isDataList, ih]

theorem isDataEntries_iff (entries : List (Value × Value)) :
    isDataEntries entries ↔ ∀ v ∈ entries.map (·.1) ++ entries.map (·.2), v.isData := by
  induction entries with
  | nil => simp [isDataEntries]
  | cons entry rest ih =>
    simp only [isDataEntries, Bool.and_eq_true, ih, List.map_cons, List.mem_append, List.mem_cons]
    grind

theorem isDataFields_iff (fields : List (String × Value)) :
    isDataFields fields ↔ ∀ v ∈ fields.map (·.2), v.isData := by
  induction fields with
  | nil => simp [isDataFields]
  | cons field rest ih => simp [isDataFields, ih]

theorem Built.isData (built : Built allows v) : v.isData := by
  induction built with
  | @mk v form each ih =>
    cases v with
    | list items | tuple items | set items | frozenset items =>
      rw [Value.isData]
      exact (isDataList_iff items).mpr ih
    | dict entries =>
      rw [Value.isData]
      exact (isDataEntries_iff entries).mpr ih
    | record cls fields =>
      rw [Value.isData]
      exact (isDataFields_iff fields).mpr ih
    | object _ => cases form
    | _ => rfl

end Value

namespace Record

variable {default : Field → Value} {r : Record} {fields : List (String × Value)}

def fillable (r : Record) : List Field :=
  if r.kind = .union then r.firstDeclared?.toList else r.fields.filter Field.declares

theorem names_setField (name : String) (value : Value) (fields : List (String × Value)) :
    (setField name value fields).map (·.1) = fields.map (·.1) := by
  rw [setField, List.map_map]
  refine List.map_congr_left fun field _ => ?_
  simp only [Function.comp]
  split
  · rename_i same
    exact same.symm
  · rfl

theorem names_filled (size : r.fields.length = fields.length) :
    (r.filled default fields).map (·.1) = fields.map (·.1) := by
  unfold filled
  split
  · split
    · split
      · exact names_setField ..
      · rfl
    · rfl
  · calc ((r.fields.zip fields).map fun pair => (pair.2.1, pair.1.filled default pair.2.2)).map (·.1)
        = ((r.fields.zip fields).map (·.2)).map (·.1) := by simp
      _ = fields.map (·.1) := by rw [List.map_snd_zip (Nat.le_of_eq size.symm)]

theorem mem_filled {field : String × Value} (member : field ∈ r.filled default fields) :
    field ∈ fields ∨ ∃ f ∈ r.fillable, field.2 = default f ∧
      (field.1 = Name.attributeName f.name ∨
        ∃ old, (f, old) ∈ r.fields.zip fields ∧ field.1 = old.1) := by
  unfold filled at member
  split at member
  · rename_i isUnion
    split at member
    · rename_i f first
      have canFill : f ∈ r.fillable := by simp [fillable, isUnion, first]
      split at member
      · obtain ⟨old, known, rfl⟩ := List.mem_map.mp member
        split
        · exact .inr ⟨f, canFill, rfl, .inl rfl⟩
        · exact .inl known
      · exact .inl member
    · exact .inl member
  · rename_i notUnion
    obtain ⟨⟨f, old⟩, paired, rfl⟩ := List.mem_map.mp member
    obtain ⟨inFields, known⟩ := List.of_mem_zip paired
    by_cases fills : f.declares && old.2.isAbsent
    · have canFill : f ∈ r.fillable := by
        simp only [Bool.and_eq_true] at fills
        simp [fillable, notUnion, inFields, fills.1]
      exact .inr ⟨f, canFill, by simp [Field.filled, fills], .inr ⟨old, paired, rfl⟩⟩
    · exact .inl (by simpa [Field.filled, fills] using known)

end Record

/-! ### Passes -/

namespace Group

variable {g : Group} {default : Field → Value} {v w : Value} {items : List Value}
  {entries : List (Value × Value)} {fields results inner : List (String × Value)} {r : Record}
  {allows : RecordClass → List String → Prop} {output : String} {f : Field}

theorem defaulted_list (done : g.defaulted default (.list items) = .ok w) :
    ∃ results, items.mapM (g.defaulted default) = .ok results ∧ w = .list results := by
  obtain ⟨results, mapped, made⟩ := bind_eq_ok.mp done
  cases made
  exact ⟨results, defaultedAll_eq_mapM g default items ▸ mapped, rfl⟩

theorem defaulted_tuple (done : g.defaulted default (.tuple items) = .ok w) :
    ∃ results, items.mapM (g.defaulted default) = .ok results ∧ w = .tuple results := by
  obtain ⟨results, mapped, made⟩ := bind_eq_ok.mp done
  cases made
  exact ⟨results, defaultedAll_eq_mapM g default items ▸ mapped, rfl⟩

theorem defaulted_set (done : g.defaulted default (.set items) = .ok w) :
    ∃ results, items.mapM (g.defaulted default) = .ok results ∧
      (∀ u ∈ results, u.hashable) ∧ w = .set (Value.distinct results) := by
  obtain ⟨results, mapped, done⟩ := bind_eq_ok.mp done
  obtain ⟨kept, collected, made⟩ := bind_eq_ok.mp done
  cases made
  obtain ⟨rfl, hashable⟩ := of_setItems collected
  exact ⟨results, defaultedAll_eq_mapM g default items ▸ mapped, hashable, rfl⟩

theorem defaulted_frozenset (done : g.defaulted default (.frozenset items) = .ok w) :
    ∃ results, items.mapM (g.defaulted default) = .ok results ∧
      (∀ u ∈ results, u.hashable) ∧ w = .frozenset (Value.distinct results) := by
  obtain ⟨results, mapped, done⟩ := bind_eq_ok.mp done
  obtain ⟨kept, collected, made⟩ := bind_eq_ok.mp done
  cases made
  obtain ⟨rfl, hashable⟩ := of_setItems collected
  exact ⟨results, defaultedAll_eq_mapM g default items ▸ mapped, hashable, rfl⟩

theorem defaulted_dict (done : g.defaulted default (.dict entries) = .ok w) :
    ∃ results, g.defaultedEntries default entries = .ok results ∧
      (∀ entry ∈ results, entry.1.hashable) ∧ w = .dict (Value.distinctEntries results) := by
  obtain ⟨results, mapped, done⟩ := bind_eq_ok.mp done
  obtain ⟨kept, collected, made⟩ := bind_eq_ok.mp done
  cases made
  obtain ⟨rfl, hashable⟩ := of_dictEntries collected
  exact ⟨results, mapped, hashable, rfl⟩

theorem defaulted_record {cls : RecordClass} (known : g.recordOf? cls.name = some r) :
    g.defaulted default (.record cls fields) = do
      return .record cls (r.filled default (← g.defaultedFields default fields)) := by
  rw [defaulted, known]

theorem mem_defaultedEntries {results : List (Value × Value)} {entry : Value × Value}
    (done : g.defaultedEntries default entries = .ok results) (member : entry ∈ results) :
    ∃ old ∈ entries, g.defaulted default old.1 = .ok entry.1 ∧
      g.defaulted default old.2 = .ok entry.2 := by
  rw [defaultedEntries_eq_mapM] at done
  obtain ⟨old, known, made⟩ := mem_of_mapM done member
  obtain ⟨k, key, made⟩ := bind_eq_ok.mp made
  obtain ⟨u, value, made⟩ := bind_eq_ok.mp made
  cases made
  exact ⟨old, known, key, value⟩

theorem mem_defaultedFields {field : String × Value}
    (done : g.defaultedFields default fields = .ok results) (member : field ∈ results) :
    ∃ old ∈ fields, g.defaulted default old.2 = .ok field.2 := by
  rw [defaultedFields_eq_mapM] at done
  obtain ⟨old, known, made⟩ := mem_of_mapM done member
  obtain ⟨u, value, made⟩ := bind_eq_ok.mp made
  cases made
  exact ⟨old, known, value⟩

theorem names_defaultedFields (done : g.defaultedFields default fields = .ok results) :
    results.map (·.1) = fields.map (·.1) := by
  rw [defaultedFields_eq_mapM] at done
  exact names_of_mapM done

theorem part_of_defaulted {part : Value} (done : g.defaulted default v = .ok w)
    (member : part ∈ w.parts) :
    (∃ old ∈ v.parts, g.defaulted default old = .ok part) ∨
      ∃ output r, g.recordOf? output = some r ∧ ∃ f ∈ r.fillable, part = default f := by
  cases v with
  | list items =>
    obtain ⟨results, mapped, rfl⟩ := defaulted_list done
    exact .inl (mem_of_mapM mapped member)
  | tuple items =>
    obtain ⟨results, mapped, rfl⟩ := defaulted_tuple done
    exact .inl (mem_of_mapM mapped member)
  | set items =>
    obtain ⟨results, mapped, -, rfl⟩ := defaulted_set done
    exact .inl (mem_of_mapM mapped (Value.mem_of_mem_distinct member))
  | frozenset items =>
    obtain ⟨results, mapped, -, rfl⟩ := defaulted_frozenset done
    exact .inl (mem_of_mapM mapped (Value.mem_of_mem_distinct member))
  | dict entries =>
    obtain ⟨results, mapped, -, rfl⟩ := defaulted_dict done
    refine .inl ?_
    rcases List.mem_append.mp member with inKeys | inValues
    · obtain ⟨entry, kept, rfl⟩ := List.mem_map.mp inKeys
      obtain ⟨new, known, same⟩ := List.mem_map.mp (Value.mem_of_mem_distinctEntries kept).1
      obtain ⟨old, inEntries, key, -⟩ := mem_defaultedEntries mapped known
      exact ⟨old.1, List.mem_append_left _ (List.mem_map_of_mem inEntries), same ▸ key⟩
    · obtain ⟨entry, kept, rfl⟩ := List.mem_map.mp inValues
      obtain ⟨new, known, same⟩ := List.mem_map.mp (Value.mem_of_mem_distinctEntries kept).2
      obtain ⟨old, inEntries, -, value⟩ := mem_defaultedEntries mapped known
      exact ⟨old.2, List.mem_append_right _ (List.mem_map_of_mem inEntries), same ▸ value⟩
  | record cls fields =>
    rw [defaulted] at done
    obtain ⟨inner, mapped, made⟩ := bind_eq_ok.mp done
    have fromInner {field : String × Value} (known : field ∈ inner) :
        ∃ old ∈ (Value.record cls fields).parts, g.defaulted default old = .ok field.2 := by
      obtain ⟨old, inFields, value⟩ := mem_defaultedFields mapped known
      exact ⟨old.2, List.mem_map_of_mem inFields, value⟩
    cases found : g.recordOf? cls.name with
    | none =>
      rw [found] at made
      cases made
      obtain ⟨field, known, rfl⟩ := List.mem_map.mp member
      exact .inl (fromInner known)
    | some r =>
      rw [found] at made
      cases made
      obtain ⟨field, inFilled, rfl⟩ := List.mem_map.mp member
      rcases Record.mem_filled inFilled with known | ⟨f, canFill, same, -⟩
      · exact .inl (fromInner known)
      · exact .inr ⟨_, r, found, f, canFill, same⟩
  | _ =>
    cases done
    cases member

theorem form_of_defaulted (weaker : ∀ cls names, g.Instance cls names → allows cls names)
    (form : v.HasForm g.Instance) (done : g.defaulted default v = .ok w) : w.HasForm allows := by
  cases v with
  | list items =>
    obtain ⟨_, -, rfl⟩ := defaulted_list done
    trivial
  | tuple items =>
    obtain ⟨_, -, rfl⟩ := defaulted_tuple done
    trivial
  | set items =>
    obtain ⟨_, -, -, rfl⟩ := defaulted_set done
    trivial
  | frozenset items =>
    obtain ⟨_, -, -, rfl⟩ := defaulted_frozenset done
    trivial
  | dict entries =>
    obtain ⟨_, -, -, rfl⟩ := defaulted_dict done
    trivial
  | record cls fields =>
    obtain ⟨label, r, known, names⟩ := form
    rw [defaulted_record known] at done
    obtain ⟨inner, mapped, made⟩ := bind_eq_ok.mp done
    cases made
    have sameNames := names_defaultedFields mapped
    have size : r.fields.length = inner.length := by
      simpa using (congrArg List.length (sameNames.trans names)).symm
    refine weaker _ _ ⟨label, r, known, ?_⟩
    rw [Record.names_filled size, sameNames, names]
  | object _ => cases form
  | ref _ => cases form
  | _ =>
    cases done
    trivial

theorem built_defaulted {allows : RecordClass → List String → Prop}
    (weaker : ∀ cls names, g.Instance cls names → allows cls names)
    (defaults : ∀ output r, g.recordOf? output = some r → ∀ f ∈ r.fillable,
      (default f).Built allows) (built : v.Built g.Instance)
    (done : g.defaulted default v = .ok w) : w.Built allows := by
  induction built generalizing w with
  | @mk v form each ih =>
    refine .mk (form_of_defaulted weaker form done) fun part member => ?_
    rcases part_of_defaulted done member with ⟨old, known, value⟩ | ⟨output, r, found, f, fills, rfl⟩
    · exact ih old known value
    · exact defaults output r found f fills

theorem eq_of_absent (done : g.defaulted default v = .ok w) (absent : w.isAbsent) : v = w := by
  cases v with
  | list items =>
    obtain ⟨_, -, rfl⟩ := defaulted_list done
    cases absent
  | tuple items =>
    obtain ⟨_, -, rfl⟩ := defaulted_tuple done
    cases absent
  | set items =>
    obtain ⟨_, -, -, rfl⟩ := defaulted_set done
    cases absent
  | frozenset items =>
    obtain ⟨_, -, -, rfl⟩ := defaulted_frozenset done
    cases absent
  | dict entries =>
    obtain ⟨_, -, -, rfl⟩ := defaulted_dict done
    cases absent
  | record cls fields =>
    rw [defaulted] at done
    obtain ⟨inner, -, made⟩ := bind_eq_ok.mp done
    cases known : g.recordOf? cls.name <;>
    · rw [known] at made
      cases made
      cases absent
  | _ =>
    cases done
    rfl

def blank (r : Record) (output : String) : Value :=
  .record { name := output } (r.fields.map fun f => (Name.attributeName f.name, .null))

theorem forall₂_defaultedFields (done : g.defaultedFields default fields = .ok results) :
    List.Forall₂ (fun old new => g.defaulted default old.2 = .ok new.2) fields results := by
  rw [defaultedFields_eq_mapM] at done
  refine (mapM_eq_ok.mp done).imp fun old new made => ?_
  obtain ⟨u, value, same⟩ := bind_eq_ok.mp made
  cases same
  exact value

theorem settled_of_filled_field (done : g.defaulted default v = .ok w)
    (same : f.filled default w = v) : g.defaulted default v = .ok v := by
  by_cases absent : w.isAbsent
  · have unchanged := eq_of_absent done absent
    subst unchanged
    exact done
  · have kept : f.filled default w = w := by simp [Field.filled, absent]
    rw [← same, kept] at done ⊢
    exact done

theorem settled_of_zip {fs : List Field}
    (pairs : List.Forall₂ (fun old new => g.defaulted default old.2 = .ok new.2) fields inner)
    (same : (fs.zip inner).map (fun pair => (pair.2.1, pair.1.filled default pair.2.2)) = fields) :
    ∀ field ∈ fields, g.defaulted default field.2 = .ok field.2 := by
  induction pairs generalizing fs with
  | nil => exact fun field none => by cases none
  | cons first rest ih =>
    cases fs with
    | nil => cases same
    | cons f fs =>
      obtain ⟨here, later⟩ := List.cons.inj same
      refine List.forall_mem_cons.mpr ⟨?_, ih later⟩
      exact settled_of_filled_field first (congrArg Prod.snd here)

theorem settled_of_filled (done : g.defaultedFields default fields = .ok inner)
    (same : r.filled default inner = fields) :
    ∀ field ∈ fields, g.defaulted default field.2 = .ok field.2 := by
  have pairs := forall₂_defaultedFields done
  have settled_of_eq (kept : inner = fields) :
      ∀ field ∈ fields, g.defaulted default field.2 = .ok field.2 := by
    subst kept
    exact List.forall₂_same.mp pairs
  by_cases isUnion : r.kind = .union
  · cases first : r.firstDeclared? with
    | none => exact settled_of_eq (by simpa [Record.filled, isUnion, first] using same)
    | some f =>
      by_cases empty : inner.all fun field => field.2.isNull
      · -- A pass leaves null only where it was before.
        intro field member
        rw [defaultedFields_eq_mapM] at done
        obtain ⟨new, known, made⟩ := exists_of_mapM done member
        obtain ⟨u, value, made⟩ := bind_eq_ok.mp made
        cases made
        have absent : u.isAbsent := by
          have isNull := List.all_eq_true.mp empty _ known
          simp [Value.isAbsent, isNull]
        have unchanged := eq_of_absent value absent
        rw [unchanged] at value ⊢
        exact value
      · exact settled_of_eq (by simpa [Record.filled, isUnion, first, empty] using same)
  · exact settled_of_zip pairs (by simpa [Record.filled, isUnion] using same)

end Group

end IdlGen
