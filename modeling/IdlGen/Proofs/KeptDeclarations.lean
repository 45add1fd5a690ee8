import IdlGen.Proofs.DocumentFaults
import IdlGen.Proofs.Tables

/-!
What a schema keeps of its document. An entry silently takes the place of an earlier one with its
key (`LastWins`), so all entries are kept exactly if no key is repeated (`load_keeps_all_iff`).
-/
namespace IdlGen

variable {key name : String} {entries : List (Value × Value)} {item : Value}

namespace Table

variable {α : Type}

def ofEntries (found : List (String × α)) : Table α :=
  found.foldl (fun table entry => table.put entry.1 entry.2) []

theorem ofEntries_concat (found : List (String × α)) (entry : String × α) :
    ofEntries (found ++ [entry]) = (ofEntries found).put entry.1 entry.2 := by
  rw [ofEntries, List.foldl_append, ← ofEntries]
  rfl

theorem keys_ofEntries (found : List (String × α)) :
    (ofEntries found).keys = (found.map (·.1)).eraseDups := by
  induction found using List.reverseRecOn with
  | nil => rfl
  | append_singleton found entry ih =>
    rw [ofEntries_concat, List.map_append, List.map_singleton]
    have known : entry.1 ∈ (ofEntries found).keys ↔ entry.1 ∈ found.map (·.1) := by
      rw [ih, List.mem_eraseDups]
    by_cases old : entry.1 ∈ found.map (·.1)
    · rw [keys_put_of_mem _ (known.mpr old), eraseDups_concat_of_mem old, ih]
    · rw [keys_put_of_not_mem _ (fun member => old (known.mp member)),
        eraseDups_concat_of_not_mem old, ih]

theorem get?_ofEntries (found : List (String × α)) (key : String) :
    (ofEntries found).get? key = found.reverse.lookup key := by
  induction found using List.reverseRecOn with
  | nil => rfl
  | append_singleton found entry ih =>
    rw [ofEntries_concat, get?_put, ih, List.reverse_append, List.reverse_singleton,
      List.singleton_append, List.lookup_cons]
    by_cases same : key = entry.1
    · simp [same]
    · rw [if_neg same, beq_eq_false_iff_ne.mpr same]

theorem ofEntries_eq_self {found : List (String × α)} (distinct : (found.map (·.1)).Nodup) :
    ofEntries found = found := by
  induction found using List.reverseRecOn with
  | nil => rfl
  | append_singleton found entry ih =>
    rw [List.map_append, List.map_singleton, List.nodup_append] at distinct
    obtain ⟨before, -, apart⟩ := distinct
    have fresh : entry.1 ∉ keys found := fun member =>
      apart _ member _ (List.mem_singleton_self _) rfl
    rw [ofEntries_concat, ih before, put_of_not_mem _ fresh]

end Table

theorem Text.fst_cutFirst_append (sep : Char) (before after : List Char) :
    (Text.cutFirst sep (before ++ sep :: after)).1 = (Text.cutFirst sep before).1 := by
  induction before with
  | nil => simp [Text.cutFirst]
  | cons c rest ih =>
    by_cases here : c = sep
    · simp [Text.cutFirst, here]
    · simp [Text.cutFirst, here, ih]

theorem Name.last_qualified (module name : String) :
    Name.last (module ++ "." ++ name) = Name.last name := by
  have reversed : (module ++ "." ++ name).toList.reverse =
      name.toList.reverse ++ '.' :: module.toList.reverse := by
    simp [String.toList_append]
  simp only [Name.last, Text.partitionLast, Text.cutLast, reversed, Text.fst_cutFirst_append]

namespace Schema

open Outcome

theorem last_of_qualify {home : Home} (qualified : home.qualify (.text key) = .ok name) :
    Name.last name = Name.last key := by
  rw [Home.qualify] at qualified
  dsimp only at qualified
  split at qualified
  · cases qualified
    rfl
  · cases qualified
    exact Name.last_qualified home.module.display key

/-- An item that is an object with a name, and the qualified name that this stands for. -/
structure NamedBy (home : Home) (item : Value) (entries : List (Value × Value))
    (written name : String) : Prop where
  object : item = .dict entries
  named : Value.field? entries "name" = some (.text written)
  qualified : home.qualify (.text written) = .ok name

section
variable (home : Home) (item : Value)

/-- The item is the description of a record of the kind. -/
def DescribesRecord (kind : RecordKind) (entry : String × Record) : Prop :=
  ∃ entries, NamedBy home item entries entry.1 entry.2.name ∧ entry.2.kind = kind ∧
    home.fields (optional entries "fields" (.list [])) = .ok entry.2.fields

/-- The item is the description of an enum. -/
def DescribesEnum (entry : String × Enum) : Prop :=
  ∃ entries pairs, NamedBy home item entries entry.1 entry.2.name ∧
    memberPairs (optional entries "values" (.dict [])) = .ok pairs ∧
    pairs.mapM member = .ok entry.2.values

/-- An item that describes a constant: its name, which may be that of another module's constant, its
    type and its value. -/
def DescribesConstant (entry : String × Constant) : Prop :=
  ∃ entries written type value, NamedBy home item entries written entry.2.name ∧
    entry.1 = Name.last written ∧
    Value.field? entries "type" = some type ∧ home.type type = .ok entry.2.type ∧
    Value.field? entries "value" = some value ∧ home.literal value = .ok entry.2.value

/-- An item that describes a service: its name, its functions and what it extends. -/
def DescribesService (entry : String × Service) : Prop :=
  ∃ entries items, NamedBy home item entries entry.1 entry.2.name ∧
    iterate (optional entries "functions" (.list [])) = .ok items ∧
    items.mapM home.method = .ok entry.2.methods ∧
    ∀ parent, entry.2.extends? = some parent ↔
      (optional entries "extends" .null).truthy ∧
        home.qualify (optional entries "extends" .null) = .ok parent

end

variable {raw : Value} {keyOf : Value → Option String}

theorem dict_of_entriesOf (opened : entriesOf raw = .ok entries) : raw = .dict entries := by
  cases raw with
  | dict known =>
    cases opened
    rfl
  | _ => cases opened

theorem dict_of_required {v : Value} (found : required raw key = .ok v) :
    ∃ entries, raw = .dict entries ∧ Value.field? entries key = some v := by
  cases raw with
  | dict entries =>
    refine ⟨entries, rfl, ?_⟩
    rw [required] at found
    cases known : Value.field? entries key with
    | some w =>
      rw [known] at found
      cases found
      rfl
    | none =>
      rw [known] at found
      cases found
  | _ => cases found

section
variable {home : Home}

theorem namedBy_of_read {key : Value} (object : item = .dict entries)
    (named : required item "name" = .ok key) (qualified : home.qualify key = .ok name) :
    ∃ written, key = .text written ∧ NamedBy home item entries written name := by
  obtain ⟨_, same, found⟩ := dict_of_required named
  cases object.symm.trans same
  cases key with
  | text written => exact ⟨written, rfl, object, found, qualified⟩
  | _ => cases qualified

theorem describesRecord_of_read {kind : RecordKind} {entry : String × Record}
    (read : home.record kind item = .ok entry) : DescribesRecord home item kind entry := by
  obtain ⟨key, named, read⟩ := bind_eq_ok.mp read
  obtain ⟨name, qualified, read⟩ := bind_eq_ok.mp read
  obtain ⟨entries, opened, read⟩ := bind_eq_ok.mp read
  obtain ⟨fields, listed, made⟩ := bind_eq_ok.mp read
  obtain ⟨written, rfl, namedBy⟩ := namedBy_of_read (dict_of_entriesOf opened) named qualified
  cases made
  exact ⟨entries, namedBy, rfl, listed⟩

theorem describesEnum_of_read {entry : String × Enum} (read : home.enum item = .ok entry) :
    DescribesEnum home item entry := by
  obtain ⟨entries, opened, read⟩ := bind_eq_ok.mp read
  obtain ⟨pairs, listed, read⟩ := bind_eq_ok.mp read
  obtain ⟨key, named, read⟩ := bind_eq_ok.mp read
  obtain ⟨name, qualified, read⟩ := bind_eq_ok.mp read
  obtain ⟨values, each, made⟩ := bind_eq_ok.mp read
  obtain ⟨written, rfl, namedBy⟩ := namedBy_of_read (dict_of_entriesOf opened) named qualified
  cases made
  exact ⟨entries, pairs, namedBy, listed, each⟩

theorem describesConstant_of_read {entry : String × Constant}
    (read : home.constant item = .ok entry) : DescribesConstant home item entry := by
  obtain ⟨key, named, read⟩ := bind_eq_ok.mp read
  obtain ⟨name, qualified, read⟩ := bind_eq_ok.mp read
  obtain ⟨type, typed, read⟩ := bind_eq_ok.mp read
  obtain ⟨denoted, typeRead, read⟩ := bind_eq_ok.mp read
  obtain ⟨value, valued, read⟩ := bind_eq_ok.mp read
  obtain ⟨literal, valueRead, made⟩ := bind_eq_ok.mp read
  obtain ⟨entries, object, -⟩ := dict_of_required named
  obtain ⟨written, rfl, namedBy⟩ := namedBy_of_read object named qualified
  obtain ⟨_, same, hasType⟩ := dict_of_required typed
  cases object.symm.trans same
  obtain ⟨_, same, hasValue⟩ := dict_of_required valued
  cases object.symm.trans same
  cases made
  exact ⟨entries, written, type, value, namedBy, last_of_qualify qualified, hasType, typeRead,
    hasValue, valueRead⟩

theorem describesService_of_read {entry : String × Service}
    (read : home.service item = .ok entry) : DescribesService home item entry := by
  obtain ⟨entries, opened, read⟩ := bind_eq_ok.mp read
  obtain ⟨key, named, read⟩ := bind_eq_ok.mp read
  obtain ⟨name, qualified, read⟩ := bind_eq_ok.mp read
  obtain ⟨items, listed, read⟩ := bind_eq_ok.mp read
  obtain ⟨methods, each, read⟩ := bind_eq_ok.mp read
  obtain ⟨written, rfl, namedBy⟩ := namedBy_of_read (dict_of_entriesOf opened) named qualified
  dsimp only at read
  split at read
  · rename_i given
    obtain ⟨_, extended, made⟩ := bind_eq_ok.mp read
    obtain ⟨full, resolved, rfl⟩ := map_eq_ok.mp extended
    cases made
    exact ⟨entries, items, namedBy, listed, each, by simp [given, resolved]⟩
  · rename_i without
    cases read
    exact ⟨entries, items, namedBy, listed, each, by simp [without]⟩

end

section
variable {α : Type} (describes : Value → String × α → Prop) (items : List Value) (table : Table α)

/-- A table of listed entries: keys stand in the order of their first entries, and each has the
    content of its last entry. -/
def LastWins : Prop :=
  ∃ found, List.Forall₂ describes items found ∧ table.keys = (found.map (·.1)).eraseDups ∧
    ∀ key, table.get? key = found.reverse.lookup key

/-- A table of all listed entries, each with its own content and in their order. -/
def KeepsAll : Prop := List.Forall₂ describes items table

end

def home (schema : Schema) : Home := { module := schema.module, includes := schema.includes }

/-- Something holds of the entries that a document lists and of their table, for each kind that is
    listed. -/
structure EachKind (entries : List (Value × Value)) (schema : Schema)
    (P : {α : Type} → (Value → String × α → Prop) → List Value → Table α → Prop) : Prop where
  structs : ∃ items, iterate (optional entries "structs" (.list [])) = .ok items ∧
    P (DescribesRecord schema.home · .struct) items schema.structs
  unions : ∃ items, iterate (optional entries "unions" (.list [])) = .ok items ∧
    P (DescribesRecord schema.home · .union) items schema.unions
  exceptions : ∃ items, iterate (optional entries "exceptions" (.list [])) = .ok items ∧
    P (DescribesRecord schema.home · .exception) items schema.exceptions
  enums : ∃ items, iterate (optional entries "enums" (.list [])) = .ok items ∧
    P (DescribesEnum schema.home) items schema.enums
  constants : ∃ items, iterate (optional entries "constants" (.list [])) = .ok items ∧
    P (DescribesConstant schema.home) items schema.constants
  services : ∃ items, iterate (optional entries "services" (.list [])) = .ok items ∧
    P (DescribesService schema.home) items schema.services

def listedNames (entries : List (Value × Value)) (key : String) : List String :=
  ((iterate (optional entries key (.list []))).toOption.getD []).filterMap fun item =>
    (writtenName? item).map Value.display

/-- No name is listed twice for a kind, and no last segment for the constants. -/
structure KeysApart (entries : List (Value × Value)) : Prop where
  named : ∀ kind ∈ ["structs", "unions", "exceptions", "enums", "services"],
    (listedNames entries kind).Nodup
  constants : ((listedNames entries "constants").map Name.last).Nodup

variable {α : Type}

variable {read : Value → Except Fault (String × α)} {table : Table α}

theorem ofEntries_of_tableOf (done : tableOf read raw = .ok table) :
    ∃ items found, iterate raw = .ok items ∧
      List.Forall₂ (fun item entry => read item = .ok entry) items found ∧
      table = Table.ofEntries found := by
  -- The entries are read into a table that may have some already.
  have general : ∀ (items : List Value) (start : Table α),
      items.foldlM (fun table item => do
        let entry ← read item
        return table.put entry.1 entry.2) start = .ok table →
      ∃ found, List.Forall₂ (fun item entry => read item = .ok entry) items found ∧
        table = found.foldl (fun table entry => table.put entry.1 entry.2) start := by
    intro items
    induction items with
    | nil =>
      intro start done
      cases done
      exact ⟨[], .nil, rfl⟩
    | cons item rest ih =>
      intro start done
      rw [List.foldlM_cons] at done
      obtain ⟨next, first, done⟩ := bind_eq_ok.mp done
      obtain ⟨entry, readFirst, made⟩ := bind_eq_ok.mp first
      cases made
      obtain ⟨found, others, rfl⟩ := ih _ done
      exact ⟨entry :: found, .cons readFirst others, rfl⟩
  obtain ⟨items, listed, done⟩ := bind_eq_ok.mp done
  obtain ⟨found, each, made⟩ := general items [] done
  exact ⟨items, found, listed, each, made⟩

variable {describes : Value → String × α → Prop}

theorem keys_of_describes (keyed : ∀ item entry, describes item entry → keyOf item = some entry.1)
    {items : List Value} {found : List (String × α)} (each : List.Forall₂ describes items found) :
    items.filterMap keyOf = found.map (·.1) := by
  induction each with
  | nil => rfl
  | cons first rest ih => rw [List.filterMap_cons, keyed _ _ first, ih, List.map_cons]

/-- One kind of listed declarations: the last entry of a key wins, so all are kept exactly if no
    key is repeated. -/
theorem tableOf_keeps (described : ∀ item entry, read item = .ok entry → describes item entry)
    (keyed : ∀ item entry, describes item entry → keyOf item = some entry.1)
    (done : tableOf read raw = .ok table) :
    (∃ items, iterate raw = .ok items ∧ LastWins describes items table) ∧
      ((∃ items, iterate raw = .ok items ∧ KeepsAll describes items table) ↔
        (((iterate raw).toOption.getD []).filterMap keyOf).Nodup) := by
  obtain ⟨items, found, listed, each, rfl⟩ := ofEntries_of_tableOf done
  have each : List.Forall₂ describes items found := each.imp described
  have names := keys_of_describes keyed each
  have asked : (iterate raw).toOption.getD [] = items := by
    rw [listed]
    rfl
  rw [asked, names]
  refine ⟨⟨items, listed,
    found, each, Table.keys_ofEntries found, Table.get?_ofEntries found⟩, ?_⟩
  constructor
  · rintro ⟨others, same, kept⟩
    obtain rfl : items = others := Except.ok.inj (listed.symm.trans same)
    have keys : (Table.ofEntries found).keys = found.map (·.1) :=
      (keys_of_describes keyed kept).symm.trans names
    rw [Table.keys_ofEntries] at keys
    rw [← keys]
    exact nodup_eraseDups _
  · intro distinct
    refine ⟨items, listed, ?_⟩
    rw [Table.ofEntries_eq_self distinct]
    exact each

theorem NamedBy.writtenName {home : Home} {written : String}
    (names : NamedBy home item entries written name) :
    (writtenName? item).map Value.display = some written := by
  rw [names.object, writtenName?, names.named]
  rfl

theorem tables_of_load {document : Value} {path : String} {schema : Schema}
    (loaded : load document path = .ok schema) :
    ∃ entries, document = .dict entries ∧
      let listed (key : String) : Value := optional entries key (.list [])
      tableOf (schema.home.record .struct) (listed "structs") = .ok schema.structs ∧
      tableOf (schema.home.record .union) (listed "unions") = .ok schema.unions ∧
      tableOf (schema.home.record .exception) (listed "exceptions") = .ok schema.exceptions ∧
      tableOf schema.home.enum (listed "enums") = .ok schema.enums ∧
      tableOf schema.home.constant (listed "constants") = .ok schema.constants ∧
      tableOf schema.home.service (listed "services") = .ok schema.services := by
  obtain ⟨entries, opened, loaded⟩ := bind_eq_ok.mp loaded
  refine ⟨entries, dict_of_entriesOf opened, ?_⟩
  dsimp only at loaded
  split at loaded
  · cases loaded
  · obtain ⟨includes, -, loaded⟩ := bind_eq_ok.mp loaded
    split at loaded
    · rename_i made declared
      cases loaded
      obtain ⟨aliases, -, declared⟩ := bind_eq_ok.mp declared
      obtain ⟨typedefs, -, declared⟩ := bind_eq_ok.mp declared
      obtain ⟨structs, readStructs, declared⟩ := bind_eq_ok.mp declared
      obtain ⟨unions, readUnions, declared⟩ := bind_eq_ok.mp declared
      obtain ⟨exceptions, readExceptions, declared⟩ := bind_eq_ok.mp declared
      obtain ⟨enums, readEnums, declared⟩ := bind_eq_ok.mp declared
      obtain ⟨constants, readConstants, declared⟩ := bind_eq_ok.mp declared
      obtain ⟨services, readServices, made⟩ := bind_eq_ok.mp declared
      cases made
      exact ⟨readStructs, readUnions, readExceptions, readEnums, readConstants, readServices⟩
    · split at loaded <;> cases loaded

/-- A loaded schema has the last listed entry of each key. It keeps all entries that its document
    lists, with their own content and in their order, exactly if no key is listed twice. -/
theorem load_keeps_all_iff {document : Value} {path : String} {schema : Schema}
    (loaded : load document path = .ok schema) :
    ∃ entries, document = .dict entries ∧ EachKind entries schema LastWins ∧
      (EachKind entries schema KeepsAll ↔ KeysApart entries) := by
  obtain ⟨entries, isDict, structs, unions, exceptions, enums, constants, services⟩ :=
    tables_of_load loaded
  have recordKey {kind : RecordKind} (item : Value) (entry : String × Record)
      (described : DescribesRecord schema.home item kind entry) :
      (writtenName? item).map Value.display = some entry.1 := by
    obtain ⟨_, named, -⟩ := described
    exact named.writtenName
  have enumKey (item : Value) (entry : String × Enum)
      (described : DescribesEnum schema.home item entry) :
      (writtenName? item).map Value.display = some entry.1 := by
    obtain ⟨_, _, named, -⟩ := described
    exact named.writtenName
  have serviceKey (item : Value) (entry : String × Service)
      (described : DescribesService schema.home item entry) :
      (writtenName? item).map Value.display = some entry.1 := by
    obtain ⟨_, _, named, -⟩ := described
    exact named.writtenName
  have constantKey (item : Value) (entry : String × Constant)
      (described : DescribesConstant schema.home item entry) :
      ((writtenName? item).map Value.display).map Name.last = some entry.1 := by
    obtain ⟨_, _, _, _, named, key, -⟩ := described
    rw [named.writtenName, key]
    rfl
  obtain ⟨lastStructs, allStructs⟩ :=
    tableOf_keeps (fun _ _ => describesRecord_of_read) recordKey structs
  obtain ⟨lastUnions, allUnions⟩ :=
    tableOf_keeps (fun _ _ => describesRecord_of_read) recordKey unions
  obtain ⟨lastExceptions, allExceptions⟩ :=
    tableOf_keeps (fun _ _ => describesRecord_of_read) recordKey exceptions
  obtain ⟨lastEnums, allEnums⟩ :=
    tableOf_keeps (fun _ _ => describesEnum_of_read) enumKey enums
  obtain ⟨lastConstants, allConstants⟩ :=
    tableOf_keeps (fun _ _ => describesConstant_of_read) constantKey constants
  obtain ⟨lastServices, allServices⟩ :=
    tableOf_keeps (fun _ _ => describesService_of_read) serviceKey services
  rw [← List.map_filterMap] at allConstants
  refine ⟨entries, isDict, ⟨lastStructs, lastUnions, lastExceptions, lastEnums, lastConstants,
    lastServices⟩, ?_⟩
  constructor
  · intro kept
    refine ⟨?_, allConstants.mp kept.constants⟩
    simp only [List.forall_mem_cons]
    exact ⟨allStructs.mp kept.structs, allUnions.mp kept.unions, allExceptions.mp kept.exceptions,
      allEnums.mp kept.enums, allServices.mp kept.services, fun _ none => by cases none⟩
  · intro apart
    have named := apart.named
    simp only [List.forall_mem_cons] at named
    obtain ⟨structsApart, unionsApart, exceptionsApart, enumsApart, servicesApart, -⟩ := named
    exact {
      structs := allStructs.mpr structsApart
      unions := allUnions.mpr unionsApart
      exceptions := allExceptions.mpr exceptionsApart
      enums := allEnums.mpr enumsApart
      constants := allConstants.mpr apart.constants
      services := allServices.mpr servicesApart }

/-- A document with declarations of several kinds, among them a constant of another module. -/
def mixedDocument : Value :=
  .dict [(.text "module", .text "m"), (.text "includes", .list [.text "base"]),
    (.text "structs", .list [
      .dict [(.text "name", .text "A"),
        (.text "fields", .list [.dict [(.text "name", .text "x"), (.text "type", .text "i32")]])],
      .dict [(.text "name", .text "B")]]),
    (.text "enums", .list [
      .dict [(.text "name", .text "A"), (.text "values", .dict [(.text "ON", .int 1)])]]),
    (.text "constants", .list [
      .dict [(.text "name", .text "base.X"), (.text "type", .text "i32"), (.text "value", .int 1)],
      .dict [(.text "name", .text "Y"), (.text "type", .text "i32"), (.text "value", .int 2)]])]

theorem mixed_document_kept :
    ∃ schema entries, load mixedDocument "" = .ok schema ∧ mixedDocument = .dict entries ∧
      EachKind entries schema KeepsAll := by
  obtain ⟨schema, loaded⟩ := isSome_toOption.mp
    (show (load mixedDocument "").toOption.isSome by decide +kernel)
  obtain ⟨entries, same, -, kept⟩ := load_keeps_all_iff loaded
  refine ⟨schema, entries, loaded, same, kept.mpr ?_⟩
  cases same
  exact ⟨by decide +kernel, by decide +kernel⟩

/-- A document with a struct that is declared twice is accepted, and the first one with its field is
    lost. -/
theorem repeated_struct_replaced :
    ∃ schema, load (.dict [(.text "module", .text "m"), (.text "structs", .list [
        .dict [(.text "name", .text "A"),
          (.text "fields", .list [.dict [(.text "name", .text "x"), (.text "type", .text "i32")]])],
        .dict [(.text "name", .text "A")]])]) "" = .ok schema ∧
      schema.structs.map (fun entry => (entry.1, entry.2.fields.length)) = [("A", 0)] := by
  exact ⟨_, rfl, rfl⟩

end Schema
end IdlGen
