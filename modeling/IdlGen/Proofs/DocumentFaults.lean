import IdlGen.Proofs.Outcomes
import IdlGen.Schema.Reader

/-!
The faults of documents, listed in the order of reading, also those after the first
(`documentFaults`). Reading stops with the first of them (`reports_load`), and exactly some kinds
escape (`load_escapes_iff`).
-/
namespace IdlGen.Schema

open Outcome

variable {faults later : List Fault} {faultsOf : Value → List Fault}

def Reports {α : Type} (step : Except Fault α) : List Fault → Prop
  | [] => ∃ a, step = .ok a
  | fault :: _ => step = .error fault

section
variable {α β : Type} {step : Except Fault α}

theorem reports_ok (a : α) : Reports (.ok a) [] := ⟨a, rfl⟩

theorem reports_error (fault : Fault) : Reports (.error fault : Except Fault α) [fault] := rfl

variable {next : α → Except Fault β} {faultsOf : α → List Fault}

theorem Reports.ok_bind {a : α} (reports : Reports (next a) faults) :
    Reports (.ok a >>= next) faults := reports

theorem Reports.map (reports : Reports step faults) (f : α → β) : Reports (f <$> step) faults := by
  cases faults with
  | nil =>
    obtain ⟨a, rfl⟩ := reports
    exact ⟨f a, rfl⟩
  | cons fault rest =>
    cases reports
    rfl

theorem Reports.bind (reports : Reports step faults)
    (after : ∀ a, step = .ok a → Reports (next a) later) :
    Reports (step >>= next) (faults ++ later) := by
  cases faults with
  | nil =>
    obtain ⟨a, rfl⟩ := reports
    exact after a rfl
  | cons fault rest =>
    cases reports
    rfl

theorem reports_mapM {read : α → Except Fault β} {items : List α}
    (each : ∀ item ∈ items, Reports (read item) (faultsOf item)) :
    Reports (items.mapM read) (items.flatMap faultsOf) := by
  induction items with
  | nil => exact reports_ok []
  | cons item rest ih =>
    obtain ⟨first, others⟩ := List.forall_mem_cons.mp each
    rw [List.mapM_cons, List.flatMap_cons]
    refine first.bind fun b _ => ?_
    exact (ih others).map (b :: ·)

theorem reports_foldlM {step : β → α → Except Fault β} {items : List α}
    (each : ∀ b, ∀ item ∈ items, Reports (step b item) (faultsOf item)) (start : β) :
    Reports (items.foldlM step start) (items.flatMap faultsOf) := by
  induction items generalizing start with
  | nil => exact reports_ok start
  | cons item rest ih =>
    rw [List.foldlM_cons, List.flatMap_cons]
    refine (each start item (by simp)).bind fun next _ => ?_
    exact ih (fun b other member => each b other (List.mem_cons_of_mem item member)) next

end

/-- The fault of a step that fails. -/
def faultOf {α : Type} : Except Fault α → List Fault
  | .ok _ => []
  | .error fault => [fault]

variable {α : Type} {fault : Fault}

theorem reports_faultOf (step : Except Fault α) : Reports step (faultOf step) := by
  cases step with
  | ok a => exact reports_ok a
  | error fault => exact reports_error fault

def nameFaults : Value → List Fault
  | .text _ => []
  | v => [.notText v]

def listingFaults (faultsOf : Value → List Fault) (raw : Value) : List Fault :=
  match iterate raw with
  | .ok items => items.flatMap faultsOf
  | .error fault => [fault]

theorem reports_qualify (home : Home) (raw : Value) :
    Reports (home.qualify raw) (nameFaults raw) := by
  cases raw with
  | text name =>
    rw [Home.qualify, nameFaults]
    dsimp only
    split
    · exact reports_ok _
    · exact reports_ok _
  | _ => exact reports_error _

theorem reports_listing {read : Value → Except Fault α}
    (each : ∀ item, Reports (read item) (faultsOf item)) (raw : Value) :
    Reports (iterate raw >>= (·.mapM read)) (listingFaults faultsOf raw) := by
  unfold listingFaults
  cases iterate raw with
  | ok items => exact reports_mapM fun item _ => each item
  | error fault => exact reports_error fault

theorem reports_tableOf {read : Value → Except Fault (String × α)}
    (each : ∀ item, Reports (read item) (faultsOf item)) (raw : Value) :
    Reports (tableOf read raw) (listingFaults faultsOf raw) := by
  unfold tableOf listingFaults
  cases iterate raw with
  | ok items =>
    exact reports_foldlM (fun table item _ => (each item).map fun entry =>
      Table.put table entry.1 entry.2) []
  | error fault => exact reports_error fault

def typeFaults (module : Value) : Value → List Fault
  | .text _ => []
  | .dict [(.text "list", inner)] => typeFaults module inner
  | .dict [(.text "set", inner)] => typeFaults module inner
  | .dict [(.text "map", .list [key, value])] => typeFaults module key ++ typeFaults module value
  | raw => [.invalidType raw module]

mutual

def literalFaults : Value → List Fault
  | .dict [(.text "ref", target)] => nameFaults target
  | .dict entries => literalEntriesFaults entries
  | .list items => literalItemsFaults items
  | _ => []

def literalItemsFaults : List Value → List Fault
  | [] => []
  | v :: rest => literalFaults v ++ literalItemsFaults rest

def literalEntriesFaults : List (Value × Value) → List Fault
  | [] => []
  | (_, v) :: rest => literalFaults v ++ literalEntriesFaults rest

end

theorem reports_type (home : Home) (raw : Value) :
    Reports (home.type raw) (typeFaults home.module raw) := by
  fun_induction typeFaults home.module raw with
  | case1 name =>
    rw [Home.type]
    cases Primitive.ofName? name with
    | some p => exact reports_ok _
    | none => exact (reports_qualify home (.text name)).map _
  | case2 inner ih => exact ih.map _
  | case3 inner ih => exact ih.map _
  | case4 key value keyIh valueIh =>
    refine keyIh.bind fun k _ => ?_
    exact valueIh.map _
  | case5 raw notText notList notSet notMap =>
    rw [Home.type]
    · exact reports_error _
    all_goals assumption

mutual

theorem reports_literal (home : Home) (raw : Value) :
    Reports (home.literal raw) (literalFaults raw) := by
  unfold literalFaults
  split
  · exact (reports_qualify home _).map _
  · rename_i entries notRef
    rw [Home.literal]
    · exact (reports_literalEntries home entries).map _
    · assumption
  · exact (reports_literalItems home _).map _
  · rename_i notRef notObject notListing
    rw [Home.literal]
    · exact reports_ok raw
    all_goals assumption

theorem reports_literalItems (home : Home) (items : List Value) :
    Reports (home.literalItems items) (literalItemsFaults items) := by
  cases items with
  | nil => exact reports_ok []
  | cons v rest =>
    refine (reports_literal home v).bind fun w _ => ?_
    exact (reports_literalItems home rest).map _

theorem reports_literalEntries (home : Home) (entries : List (Value × Value)) :
    Reports (home.literalEntries entries) (literalEntriesFaults entries) := by
  match entries with
  | [] => exact reports_ok []
  | (k, v) :: rest =>
    refine (reports_literal home v).bind fun w _ => ?_
    exact (reports_literalEntries home rest).map _

end

/-! ### Declarations -/

def keyFaults (entries : List (Value × Value)) (key : String) (missing : Fault)
    (faultsOf : Value → List Fault) : List Fault :=
  match Value.field? entries key with
  | some v => faultsOf v
  | none => [missing]

def fieldFaults (module : Value) : Value → List Fault
  | .dict entries =>
    keyFaults entries "name" (.fieldLacks module "name") (fun _ => []) ++
      keyFaults entries "type" (.fieldLacks module "type") (typeFaults module) ++
      literalFaults (optional entries "default" .null)
  | v => [.notAnObject v]

def writtenName? : Value → Option Value
  | .dict entries => Value.field? entries "name"
  | _ => none

/-- The faults of field names that are known together: they are hashable and different. -/
def namesFaults (module : Value) (names : List Value) : List Fault :=
  match names.find? (fun name => !name.hashable) with
  | some name => [.unhashable name]
  | none => if hasRepeat names then [.repeatedFields names module] else []

/-- The faults of a listing of fields: those of each field, and those of their names. -/
def fieldsFaults (module raw : Value) : List Fault :=
  match iterate raw with
  | .ok items =>
    items.flatMap (fieldFaults module) ++ namesFaults module (items.filterMap writtenName?)
  | .error fault => [fault]

def recordFaults (module : Value) : Value → List Fault
  | .dict entries =>
    keyFaults entries "name" (.missingKey (.text "name")) nameFaults ++
      fieldsFaults module (optional entries "fields" (.list []))
  | v => [.notKeyed v]

def pairsFaults : Value → List Fault
  | .dict _ => []
  | raw => listingFaults (fun pair => faultOf (iterate pair)) raw

/-- The faults of an enum: it has pairs, a name, and each pair is a name and a number. -/
def enumFaults : Value → List Fault
  | .dict entries =>
    let values := optional entries "values" (.dict [])
    pairsFaults values ++ keyFaults entries "name" (.missingKey (.text "name")) nameFaults ++
      ((memberPairs values).toOption.getD []).flatMap fun pair => faultOf (member pair)
  | v => [.notAnObject v]

def constantFaults (module : Value) : Value → List Fault
  | .dict entries =>
    keyFaults entries "name" (.missingKey (.text "name")) nameFaults ++
      keyFaults entries "type" (.missingKey (.text "type")) (typeFaults module) ++
      keyFaults entries "value" (.missingKey (.text "value")) literalFaults
  | v => [.notKeyed v]

def returnsFaults (module : Value) : Value → List Fault
  | .null => []
  | type => typeFaults module type

/-- The faults of a function: it has a name, parameters, a result type and exceptions. -/
def methodFaults (module : Value) : Value → List Fault
  | .dict entries =>
    keyFaults entries "name" (.missingKey (.text "name")) (fun _ => []) ++
      fieldsFaults module (optional entries "params" (.list [])) ++
      returnsFaults module (optional entries "returns" .null) ++
      fieldsFaults module (optional entries "throws" (.list []))
  | v => [.notAnObject v]

def serviceFaults (module : Value) : Value → List Fault
  | .dict entries =>
    let parent := optional entries "extends" .null
    keyFaults entries "name" (.missingKey (.text "name")) nameFaults ++
      listingFaults (methodFaults module) (optional entries "functions" (.list [])) ++
      if parent.truthy then nameFaults parent else []
  | v => [.notAnObject v]

def typedefsFaults (module : Value) : Value → List Fault
  | .dict entries => entries.flatMap fun entry => nameFaults entry.1 ++ typeFaults module entry.2
  | v => [.notAnObject v]

theorem reports_required (entries : List (Value × Value)) (key : String)
    {next : Value → Except Fault α} (each : ∀ v, Reports (next v) (faultsOf v)) :
    Reports (required (.dict entries) key >>= next)
      (keyFaults entries key (.missingKey (.text key)) faultsOf) := by
  simp only [required, keyFaults]
  cases Value.field? entries key with
  | some v => exact each v
  | none => exact reports_error _

section
variable (home : Home) (raw : Value) {α : Type}

theorem reports_fieldKey (entries : List (Value × Value)) (key : String)
    {next : Value → Except Fault α} (each : ∀ v, Reports (next v) (faultsOf v)) :
    Reports (home.fieldKey entries key >>= next)
      (keyFaults entries key (.fieldLacks home.module key) faultsOf) := by
  simp only [Home.fieldKey, keyFaults]
  cases Value.field? entries key with
  | some v => exact each v
  | none => exact reports_error _

theorem reports_default (given : Value) (next : Value → α) :
    Reports (if given.isNull then next <$> pure .null else next <$> home.literal given)
      (literalFaults given) := by
  cases given with
  | null => exact reports_ok _
  | _ => exact (reports_literal home _).map next

theorem reports_field : Reports (home.field raw) (fieldFaults home.module raw) := by
  cases raw with
  | dict entries =>
    have named := reports_fieldKey home entries "name" reports_ok
    have typed := reports_fieldKey home entries "type" (reports_type home)
    have named : Reports (home.fieldKey entries "name") _ := bind_pure (home.fieldKey _ _) ▸ named
    rw [fieldFaults, List.append_assoc]
    refine Reports.ok_bind (named.bind fun name _ => ?_)
    rw [← bind_assoc]
    refine typed.bind fun type _ => ?_
    exact reports_default home _ _
  | _ => exact reports_error _

theorem writtenName?_of_field {field : Field} (read : home.field raw = .ok field) :
    writtenName? raw = some field.name := by
  cases raw with
  | dict entries =>
    obtain ⟨_, same, read⟩ := bind_eq_ok.mp read
    cases same
    obtain ⟨name, known, read⟩ := bind_eq_ok.mp read
    obtain ⟨_, -, read⟩ := bind_eq_ok.mp read
    obtain ⟨_, -, made⟩ := bind_eq_ok.mp read
    have same : field.name = name := by
      dsimp only at made
      split at made
      · cases made
        rfl
      · obtain ⟨_, -, made⟩ := bind_eq_ok.mp made
        cases made
        rfl
    rw [writtenName?, same]
    unfold Home.fieldKey at known
    cases found : Value.field? entries "name" with
    | some v =>
      rw [found] at known
      cases known
      rfl
    | none =>
      rw [found] at known
      cases known
  | _ => cases read

theorem names_of_fields {items : List Value} {fields : List Field}
    (read : items.mapM home.field = .ok fields) :
    items.filterMap writtenName? = fields.map (·.name) := by
  have pairs := mapM_eq_ok.mp read
  clear read
  induction pairs with
  | nil => rfl
  | cons first rest ih =>
    rw [List.filterMap_cons, writtenName?_of_field home _ first, ih]
    rfl

theorem reports_fields : Reports (home.fields raw) (fieldsFaults home.module raw) := by
  unfold Home.fields fieldsFaults
  cases iterate raw with
  | error fault => exact reports_error fault
  | ok items =>
    refine Reports.ok_bind
      (Reports.bind (reports_mapM fun item _ => reports_field home item) fun fields read => ?_)
    rw [names_of_fields home read, namesFaults]
    dsimp only
    cases (fields.map (·.name)).find? fun name => !name.hashable with
    | some name => exact reports_error _
    | none =>
      dsimp only
      split
      · exact reports_error _
      · exact reports_ok _

theorem reports_named {β : Type} (entries : List (Value × Value)) {rest : Except Fault α}
    (reports : Reports rest later) (made : Value → String → α → β) :
    Reports (do
      let key ← required (.dict entries) "name"
      let name ← home.qualify key
      let part ← rest
      return made key name part)
      (keyFaults entries "name" (.missingKey (.text "name")) nameFaults ++ later) := by
  simp only [required, keyFaults]
  cases Value.field? entries "name" with
  | some key =>
    refine Reports.ok_bind ((reports_qualify home key).bind fun name _ => ?_)
    exact reports.map (made key name)
  | none => exact reports_error _

theorem reports_record (kind : RecordKind) (raw : Value) :
    Reports (home.record kind raw) (recordFaults home.module raw) := by
  cases raw with
  | dict entries => exact reports_named home entries (reports_fields home _) _
  | _ => exact reports_error _

theorem reports_memberPairs : Reports (memberPairs raw) (pairsFaults raw) := by
  cases raw with
  | dict entries => exact reports_ok _
  | _ => exact reports_listing (fun pair => reports_faultOf (iterate pair)) _

theorem reports_enum : Reports (home.enum raw) (enumFaults raw) := by
  cases raw with
  | dict entries =>
    rw [enumFaults, List.append_assoc]
    refine Reports.ok_bind ((reports_memberPairs _).bind fun pairs read => ?_)
    have members : Reports (pairs.mapM member) (pairs.flatMap fun pair => faultOf (member pair)) :=
      reports_mapM fun pair _ => reports_faultOf (member pair)
    rw [read]
    exact reports_named home entries members _
  | _ => exact reports_error _

theorem reports_constant : Reports (home.constant raw) (constantFaults home.module raw) := by
  cases raw with
  | dict entries =>
    unfold Home.constant
    rw [constantFaults, List.append_assoc, ← bind_assoc]
    refine (reports_required entries "name" (reports_qualify home)).bind fun name _ => ?_
    rw [← bind_assoc]
    refine (reports_required entries "type" (reports_type home)).bind fun type _ => ?_
    rw [← bind_assoc]
    exact (reports_required entries "value" (reports_literal home)).map _
  | _ => exact reports_error _

theorem reports_method : Reports (home.method raw) (methodFaults home.module raw) := by
  cases raw with
  | dict entries =>
    have named := reports_required entries "name" reports_ok
    have named : Reports (required (.dict entries) "name") _ := bind_pure (required _ _) ▸ named
    rw [methodFaults, List.append_assoc, List.append_assoc]
    refine Reports.ok_bind (named.bind fun name _ => ?_)
    refine (reports_fields home _).bind fun params _ => ?_
    have last := reports_fields home (optional entries "throws" (.list []))
    cases optional entries "returns" .null with
    | null => exact last.map _
    | text t =>
      dsimp only
      split
      · exact last.map _
      · exact last.map _
      · exact Reports.bind ((reports_type home (.text t)).map some) fun returns _ => last.map _
    | _ => exact Reports.bind ((reports_type home _).map some) fun returns _ => last.map _
  | _ => exact reports_error _

theorem reports_service : Reports (home.service raw) (serviceFaults home.module raw) := by
  cases raw with
  | dict entries =>
    have methods := reports_listing (reports_method home) (optional entries "functions" (.list []))
    rw [serviceFaults, List.append_assoc]
    unfold Home.service
    refine Reports.ok_bind ?_
    dsimp only
    simp only [required, keyFaults]
    cases Value.field? entries "name" with
    | none => exact reports_error _
    | some key =>
      refine Reports.ok_bind ((reports_qualify home key).bind fun name _ => ?_)
      rw [← bind_assoc]
      refine methods.bind fun methods _ => ?_
      split
      · exact ((reports_qualify home _).map some).map _
      · exact reports_ok _
  | _ => exact reports_error _

theorem reports_typedef (entry : Value × Value) :
    Reports (home.typedef entry) (nameFaults entry.1 ++ typeFaults home.module entry.2) :=
  (reports_qualify home entry.1).bind fun _ _ => (reports_type home entry.2).map _

end

def declarationFaults (module : Value) (entries : List (Value × Value)) : List Fault :=
  let listed (faultsOf : Value → List Fault) (key : String) : List Fault :=
    listingFaults faultsOf (optional entries key (.list []))
  typedefsFaults module (optional entries "typedefs" (.dict [])) ++
    (listed (recordFaults module) "structs" ++ (listed (recordFaults module) "unions" ++
      (listed (recordFaults module) "exceptions" ++ (listed enumFaults "enums" ++
        (listed (constantFaults module) "constants" ++ listed (serviceFaults module) "services")))))

def reported (subject : String) (fault : Fault) : Fault :=
  if fault.isShape then .invalidSchema subject fault else fault

/-- The faults of a document in the order of reading: its module, its includes and its
    declarations. -/
def documentFaults (entries : List (Value × Value)) (path : String) : List Fault :=
  let module := moduleOf entries path
  (if module.truthy then [] else [.noModuleName path]) ++
    (faultOf (iterate (optional entries "includes" (.list []))) ++
      (declarationFaults module entries).map
        (reported (if path = "" then module.display else path)))

theorem reports_typedefs (home : Home) (raw : Value) :
    Reports (entriesOf raw >>= fun entries => entries.foldlM (fun (table : Table Typedef) entry => do
      let (key, entity) ← home.typedef entry
      return table.put key entity) []) (typedefsFaults home.module raw) := by
  cases raw with
  | dict entries =>
    exact reports_foldlM (fun table entry _ => (reports_typedef home entry).map fun entry =>
      Table.put table entry.1 entry.2) []
  | _ => exact reports_error _

theorem reports_declarations (home : Home) (entries : List (Value × Value)) (schema : Schema) :
    Reports (home.declarations entries schema) (declarationFaults home.module entries) := by
  unfold Home.declarations declarationFaults
  rw [← bind_assoc]
  refine (reports_typedefs home _).bind fun typedefs _ => ?_
  refine (reports_tableOf (reports_record home .struct) _).bind fun structs _ => ?_
  refine (reports_tableOf (reports_record home .union) _).bind fun unions _ => ?_
  refine (reports_tableOf (reports_record home .exception) _).bind fun exceptions _ => ?_
  refine (reports_tableOf (reports_enum home) _).bind fun enums _ => ?_
  refine (reports_tableOf (reports_constant home) _).bind fun constants _ => ?_
  exact (reports_tableOf (reports_service home) _).map _

/-- Reading a document stops with its first fault, or returns a schema if there is none. -/
theorem reports_load (entries : List (Value × Value)) (path : String) :
    Reports (load (.dict entries) path) (documentFaults entries path) := by
  unfold load documentFaults
  refine Reports.ok_bind ?_
  dsimp only
  cases (moduleOf entries path).truthy with
  | false => exact reports_error _
  | true =>
    refine Reports.ok_bind ((reports_faultOf (iterate _)).bind fun includes _ => ?_)
    have declared (schema : Schema) := reports_declarations
      { module := moduleOf entries path, includes } entries schema
    dsimp only at declared ⊢
    cases known : declarationFaults (moduleOf entries path) entries with
    | nil =>
      rw [known] at declared
      obtain ⟨schema, read⟩ := declared _
      rw [read]
      exact reports_ok schema
    | cons fault rest =>
      rw [known] at declared
      rw [show Home.declarations _ _ _ = _ from declared _]
      rw [List.map_cons, reported]
      by_cases shape : fault.isShape
      · rw [if_pos shape]
        simp only [shape, if_true]
        rfl
      · rw [if_neg shape]
        simp only [shape]
        rfl

/-! ### Faults that escape -/

/-- Faults in values that are gone through, asked for keys, split as names or cut to integers
    without being reported as an invalid schema. -/
def isLoose : Fault → Bool
  | .notIterable _ | .notAnObject _ | .notText _ | .infiniteNumber _ => true
  | _ => false

def Known (faults : List Fault) : Prop :=
  ∀ fault ∈ faults, fault.isSchema ∨ fault.isShape ∨ isLoose fault

@[simp]
theorem known_nil : Known [] := fun fault none => by cases none

@[simp]
theorem known_single :
    Known [fault] ↔ fault.isSchema ∨ fault.isShape ∨ isLoose fault := List.forall_mem_singleton

@[simp]
theorem known_append :
    Known (faults ++ later) ↔ Known faults ∧ Known later := List.forall_mem_append

theorem known_flatMap {faultsOf : α → List Fault} {items : List α}
    (each : ∀ item, Known (faultsOf item)) : Known (items.flatMap faultsOf) := by
  intro fault member
  obtain ⟨item, -, inside⟩ := List.mem_flatMap.mp member
  exact each item fault inside

theorem iterate_eq_error (stops : iterate raw = .error fault) : fault = .notIterable raw := by
  cases raw with
  | list _ | text _ | dict _ => cases stops
  | _ =>
    cases stops
    rfl

section
variable (module raw : Value)

attribute [local simp] Fault.isSchema Fault.isShape isLoose known_flatMap

@[local simp]
theorem known_nameFaults : Known (nameFaults raw) := by
  cases raw <;> simp [nameFaults]

@[local simp]
theorem known_iterate : Known (faultOf (iterate raw)) := by
  cases raw <;> simp [iterate, faultOf]

theorem known_listingFaults (each : ∀ item, Known (faultsOf item)) :
    Known (listingFaults faultsOf raw) := by
  unfold listingFaults
  cases read : iterate raw with
  | ok items => exact known_flatMap each
  | error fault => simp [iterate_eq_error read]

theorem known_integer : Known (faultOf (integer raw)) := by
  cases raw with
  | float x => cases x <;> simp [integer, faultOf]
  | text s => cases read : readInteger? s <;> simp [integer, faultOf, read]
  | _ => simp [integer, faultOf]

@[local simp]
theorem known_member (pair : List Value) : Known (faultOf (member pair)) := by
  unfold member
  split
  · rename_i value
    have number := known_integer value
    cases read : integer value with
    | ok n => exact known_nil
    | error fault =>
      rw [read] at number
      exact number
  · simp [faultOf]

@[local simp]
theorem known_typeFaults : Known (typeFaults module raw) := by
  fun_induction typeFaults module raw <;> simp [*]

mutual

theorem known_literalFaults (raw : Value) : Known (literalFaults raw) := by
  unfold literalFaults
  split
  · exact known_nameFaults _
  · exact known_literalEntriesFaults _
  · exact known_literalItemsFaults _
  · exact known_nil

theorem known_literalItemsFaults (items : List Value) : Known (literalItemsFaults items) := by
  cases items with
  | nil => exact known_nil
  | cons v rest =>
    exact known_append.mpr ⟨known_literalFaults v, known_literalItemsFaults rest⟩

theorem known_literalEntriesFaults (entries : List (Value × Value)) :
    Known (literalEntriesFaults entries) := by
  match entries with
  | [] => exact known_nil
  | (_, v) :: rest =>
    exact known_append.mpr ⟨known_literalFaults v, known_literalEntriesFaults rest⟩

end

attribute [local simp] known_literalFaults

theorem known_keyFaults {entries : List (Value × Value)} {key : String} {missing : Fault}
    (each : ∀ v, Known (faultsOf v)) (own : Known [missing]) :
    Known (keyFaults entries key missing faultsOf) := by
  unfold keyFaults
  cases Value.field? entries key with
  | some v => exact each v
  | none => exact own

theorem known_fieldFaults : Known (fieldFaults module raw) := by
  cases raw <;> simp [fieldFaults, known_keyFaults]

theorem known_namesFaults (names : List Value) : Known (namesFaults module names) := by
  unfold namesFaults
  split
  · simp
  · split <;> simp

@[local simp]
theorem known_fieldsFaults : Known (fieldsFaults module raw) := by
  unfold fieldsFaults
  cases read : iterate raw with
  | ok items => simp [known_fieldFaults, known_namesFaults]
  | error fault => simp [iterate_eq_error read]

theorem known_recordFaults : Known (recordFaults module raw) := by
  cases raw <;> simp [recordFaults, known_keyFaults]

theorem known_enumFaults : Known (enumFaults raw) := by
  have pairs (values : Value) : Known (pairsFaults values) := by
    cases values <;> simp [pairsFaults, known_listingFaults]
  cases raw <;> simp [enumFaults, known_keyFaults, pairs]

theorem known_constantFaults : Known (constantFaults module raw) := by
  cases raw <;> simp [constantFaults, known_keyFaults]

theorem known_methodFaults : Known (methodFaults module raw) := by
  have returns (type : Value) : Known (returnsFaults module type) := by
    cases type <;> simp [returnsFaults]
  cases raw <;> simp [methodFaults, known_keyFaults, returns]

theorem known_serviceFaults : Known (serviceFaults module raw) := by
  cases raw with
  | dict entries =>
    have parent (v : Value) : Known (if v.truthy then nameFaults v else []) := by
      split <;> simp
    simp [serviceFaults, known_keyFaults, known_listingFaults, known_methodFaults, parent]
  | _ => simp [serviceFaults]

theorem known_declarationFaults (entries : List (Value × Value)) :
    Known (declarationFaults module entries) := by
  have typedefs (raw : Value) : Known (typedefsFaults module raw) := by
    cases raw <;> simp [typedefsFaults]
  simp [declarationFaults, typedefs, known_listingFaults, known_recordFaults, known_enumFaults,
    known_constantFaults, known_serviceFaults]

end

theorem known_documentFaults (entries : List (Value × Value)) (path : String) :
    ∀ fault ∈ documentFaults entries path, fault.isSchema ∨ isLoose fault := by
  intro fault member
  rcases List.mem_append.mp member with unnamed | member
  · split at unnamed
    · cases unnamed
    · cases List.mem_singleton.mp unnamed
      exact .inl rfl
  · rcases List.mem_append.mp member with included | declared
    · right
      cases read : iterate (optional entries "includes" (.list [])) with
      | ok items =>
        rw [read] at included
        cases included
      | error fault =>
        rw [read] at included
        cases List.mem_singleton.mp included
        cases iterate_eq_error read
        rfl
    · obtain ⟨inner, inside, rfl⟩ := List.mem_map.mp declared
      unfold reported
      by_cases shape : inner.isShape
      · rw [if_pos shape]
        exact .inl rfl
      · rw [if_neg shape]
        rcases known_declarationFaults _ entries inner inside with schema | shaped | loose
        · exact .inl schema
        · exact absurd shaped shape
        · exact .inr loose

theorem not_isSchema_of_isLoose (loose : isLoose fault) : ¬ fault.isSchema := by
  cases fault with
  | notIterable _ | notAnObject _ | notText _ | infiniteNumber _ => exact Bool.false_ne_true
  | _ => cases loose

/-- A document that is an object gives a schema, or its first fault. That is none of a schema
    exactly if it is loose: includes that cannot be gone through, no object where entries are asked
    for, no text where a name is, or an infinite number for a member. -/
theorem load_escapes_iff (entries : List (Value × Value)) (path : String) :
    ((∃ schema, load (.dict entries) path = .ok schema) ↔ documentFaults entries path = []) ∧
    (∀ fault, load (.dict entries) path = .error fault ↔
      (documentFaults entries path).head? = some fault) ∧
    ((∃ fault, load (.dict entries) path = .error fault ∧ ¬ fault.isSchema) ↔
      ∃ fault, (documentFaults entries path).head? = some fault ∧ isLoose fault) := by
  have known := known_documentFaults entries path
  have reports := reports_load entries path
  cases faults : documentFaults entries path with
  | nil =>
    rw [faults] at reports
    obtain ⟨schema, read⟩ := reports
    simp [read]
  | cons first rest =>
    rw [faults] at reports known
    have read : load (.dict entries) path = .error first := reports
    have kind := known first (List.mem_cons_self ..)
    refine ⟨by simp [read], by simp [read], ?_⟩
    simp only [read, Except.error.injEq, List.head?_cons, Option.some.injEq, exists_eq_left']
    constructor
    · intro outside
      exact kind.resolve_left outside
    · exact not_isSchema_of_isLoose

/-- Aliases that are listed, and are no object, end outside of the faults of schemas. -/
theorem listed_typedefs_escape :
    ∃ fault, load (.dict [(.text "module", .text "m"), (.text "typedefs", .list [])]) "" =
      .error fault ∧ ¬ fault.isSchema :=
  ⟨.notAnObject (.list []), rfl, Bool.false_ne_true⟩

end IdlGen.Schema
