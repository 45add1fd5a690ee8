import IdlGen.Command.Run
import IdlGen.Proofs.Annotations
import IdlGen.Proofs.DocumentFaults
import IdlGen.Proofs.Programs

/-!
Faults that escape from the command. A group that loads and can be written is generated with exit
code 0, is refused for a collision with exit code 1, or the first of its faults escapes
(`start_escapes_iff`).
-/
namespace IdlGen

open Outcome

variable {α β : Type}

@[simp]
def Fault.isGeneration : Fault → Bool
  | notText _ | unhashable _ | missingKey _ | unqualified _ | unresolved _ | aliasCycle _
  | unresolvedValue _ | noCurrentModule | unknownPrimitive _ | notGenerable _ | endlessType
  | wrongEntity _ | tooLarge _ => true
  | _ => false

def Generating (step : Except Fault α) : Prop :=
  ∀ fault, step = .error fault → fault.isGeneration

@[simp]
theorem generating_ok (a : α) : Generating (.ok a) := fun _ stops => by cases stops

@[simp]
theorem generating_pure (a : α) : Generating (pure a) := generating_ok a

variable {fault : Fault} {step : Except Fault α} {f : α → Except Fault β} {g : Group}

@[simp]
theorem generating_error : Generating (.error fault : Except Fault α) ↔ fault.isGeneration := by
  constructor
  · intro step
    exact step fault rfl
  · rintro kind _ ⟨⟩
    exact kind

@[simp]
theorem generating_throw :
    Generating (throw fault : Except Fault α) ↔ fault.isGeneration := generating_error

@[simp]
theorem generating_bind {next : α → Except Fault β} :
    Generating (step >>= next) ↔ Generating step ∧ ∀ a, step = .ok a → Generating (next a) := by
  cases step with
  | ok a =>
    refine ⟨fun after => ⟨generating_ok a, ?_⟩, fun both => both.2 a rfl⟩
    rintro _ ⟨⟩
    exact after
  | error fault =>
    refine ⟨fun stops => ⟨generating_error.mpr (stops fault rfl), ?_⟩, fun both => ?_⟩
    · rintro _ ⟨⟩
    · exact generating_error.mpr (generating_error.mp both.1)

@[simp]
theorem generating_map {f : α → β} : Generating (f <$> step) ↔ Generating step := by
  cases step with
  | ok a => exact ⟨fun _ => generating_ok a, fun _ => generating_ok (f a)⟩
  | error fault => exact generating_error.trans generating_error.symm

@[simp]
theorem generating_ite {c : Prop} [Decidable c] {first second : Except Fault α} :
    Generating (if c then first else second) ↔
      (c → Generating first) ∧ (¬ c → Generating second) := by
  by_cases holds : c <;> simp [holds]

theorem generating_mapM {items : List α} (each : ∀ a ∈ items, Generating (f a)) :
    Generating (items.mapM f) := by
  induction items with
  | nil => simp
  | cons a rest ih =>
    rw [List.mapM_cons]
    simp [each a (by simp), ih fun b member => each b (by simp [member])]

/-! ### Names and types -/

@[simp]
theorem Name.generating_split (name : String) : Generating (split name) := by
  unfold split
  dsimp only
  split <;> simp

namespace Group

variable (g : Group)

@[simp]
theorem generating_scopePrefix (s : Option Schema) : Generating (scopePrefix s) := by
  cases s with
  | none => simp [scopePrefix]
  | some s =>
    rw [scopePrefix, generating_ite]
    refine ⟨fun _ => generating_ok "", fun _ => ?_⟩
    split <;> simp

@[simp]
theorem generating_constantsOutput (module : Value) : Generating (g.constantsOutput module) := by
  cases module <;> simp [constantsOutput]

@[simp]
theorem generating_outputName (name : String) : Generating (g.outputName name) := by
  simp [outputName]

@[simp]
theorem generating_currentConstantsOutput : Generating g.currentConstantsOutput := by
  unfold currentConstantsOutput
  split <;> simp

@[simp]
theorem generating_owns (name : String) : Generating (g.owns name) := by
  simp [owns]

@[simp]
theorem generating_resolve (name : String) : Generating (g.resolve name) := by
  simp only [resolve, generating_bind, Name.generating_split, Prod.forall, true_and]
  intro module rest _
  split <;> simp

theorem generating_follow (fuel : Nat) (seen : List String) (type : FieldType) :
    Generating (g.follow fuel seen type) := by
  induction fuel generalizing seen type
  all_goals
    cases type with
    | ref name =>
      simp only [follow, generating_ite, generating_bind, generating_resolve, true_and]
      refine ⟨fun _ => by simp, fun _ entity _ => ?_⟩
      cases entity <;> simp [*]
    | _ => simp [follow]

@[simp]
theorem generating_resolveType (type : FieldType) : Generating (g.resolveType type) :=
  g.generating_follow _ [] type

@[simp]
theorem generating_resolveValue (name : String) : Generating (g.resolveValue name) := by
  simp only [resolveValue, generating_bind, Name.generating_split, Prod.forall, true_and]
  intro module rest _
  split
  · simp
  · split
    · simp
    · simp only [generating_bind, generating_resolve, true_and]
      intro entity _
      cases entity with
      | enum e =>
        dsimp only
        split <;> simp
      | _ => simp

theorem generating_andThen {first second : Except Fault Bool} (left : Generating first)
    (right : Generating second) : Generating (andThen first second) := by
  simp only [andThen, generating_bind, left, true_and]
  intro answer _
  cases answer <;> simp [right]

theorem generating_allYes {ask : α → Except Fault Bool} {items : List α}
    (each : ∀ a, Generating (ask a)) : Generating (allYes ask items) := by
  induction items with
  | nil => simp [allYes]
  | cons a rest ih => exact generating_andThen (each a) ih

theorem generating_hashableWithin (fuel : Nat) (seen : List String) (frozen : Bool)
    (type : FieldType) : Generating (g.hashableWithin fuel seen frozen type) := by
  induction fuel generalizing seen frozen type with
  | zero => simp [hashableWithin]
  | succ fuel ih =>
    rw [hashableWithin_succ]
    simp only [generating_bind, generating_resolveType, true_and]
    intro resolved _
    cases resolved <;> simp [hashableStep, ih, generating_andThen, generating_allYes]

@[simp]
theorem generating_isHashable (type : FieldType) (frozen : Bool) :
    Generating (g.isHashable type frozen) := g.generating_hashableWithin _ [] frozen type

@[simp]
theorem generating_keysFrozen (frozen : Bool) (key : FieldType) :
    Generating (g.keysFrozen frozen key) := by
  cases frozen <;> simp [keysFrozen]

@[simp]
theorem generating_classRef (name : String) : Generating (g.classRef name) := by simp [classRef]

@[simp]
theorem generating_companionRef (name attr : String) : Generating (g.companionRef name attr) := by
  simp [companionRef]

theorem generating_hintWithin (fuel : Nat) (type : FieldType) (frozen : Bool) :
    Generating (g.hintWithin fuel type frozen).outcome := by
  induction fuel generalizing type frozen with
  | zero => exact generating_error.mpr rfl
  | succ fuel ih =>
    rw [outcome_hintWithin_succ]
    simp only [generating_bind, generating_resolveType, true_and]
    intro resolved _
    cases resolved with
    | primitive p => cases p <;> simp [hintStep, Primitive.hint]
    | _ => simp [hintStep, ih]

theorem generating_drawWithin (fuel : Nat) (type : FieldType) (frozen : Bool) :
    Generating (g.drawWithin fuel type frozen) := by
  induction fuel generalizing type frozen with
  | zero => exact generating_error.mpr rfl
  | succ fuel ih =>
    rw [drawWithin_succ]
    simp only [generating_bind, generating_resolveType, true_and]
    intro resolved _
    cases resolved with
    | primitive p =>
      cases p <;> simp [drawStep, Primitive.draw, Primitive.range?]
    | constant c | service s => exact generating_error.mpr rfl
    | _ => simp [drawStep, ih]

@[simp]
theorem generating_draw (type : FieldType) (frozen : Bool) : Generating (g.draw type frozen) :=
  g.generating_drawWithin _ type frozen

@[simp]
theorem generating_referentRef (name : String) : Generating (g.referentRef name) := by
  simp only [referentRef, generating_bind, generating_resolveValue, true_and]
  intro referent _
  cases referent <;> simp [constantRef]

@[simp]
theorem generating_resolveType? (type : Option FieldType) : Generating (g.resolveType? type) := by
  cases type <;> simp [resolveType?]

@[simp]
theorem generating_scalarExpr (v : Value) (resolved : Option Resolved) :
    Generating (scalarExpr v resolved) := by
  unfold scalarExpr
  cases v <;> dsimp only <;> (repeat' split) <;> simp

@[simp]
theorem generating_shapeOf (isSet : Bool) (resolved : Option Resolved) :
    Generating (g.shapeOf isSet resolved) := by
  unfold shapeOf
  split <;> simp

@[simp]
theorem generating_entryTypes (resolved : Option Resolved) : Generating (g.entryTypes resolved) := by
  unfold entryTypes
  split <;> simp

mutual

theorem generating_literalExpr (v : Value) (type : Option FieldType) (frozen : Bool) :
    Generating (g.literalExpr v type frozen) := by
  cases v with
  | dict entries =>
    rw [literalExpr]
    simp only [generating_bind, generating_resolveType?, true_and]
    intro resolved _
    split
    · simp [generating_literalFields _ entries]
    · simp [generating_literalEntries _ _ _ _ entries]
  | list items | tuple items | set items | frozenset items =>
    rw [literalExpr]
    simp [generating_literalItems _ _ items]
  | int n =>
    rw [literalExpr]
    simp only [generating_bind, generating_resolveType?, true_and]
    intro resolved _
    split <;> simp
  | _ => simp [literalExpr]

theorem generating_literalItems (type : Option FieldType) (frozen : Bool) (items : List Value) :
    Generating (g.literalItems type frozen items) := by
  match items with
  | [] => simp [literalItems]
  | v :: rest =>
    simp [literalItems, generating_literalExpr v, generating_literalItems type frozen rest]

theorem generating_literalEntries (keyType valueType : Option FieldType) (hashes frozen : Bool)
    (entries : List (Value × Value)) :
    Generating (g.literalEntries keyType valueType hashes frozen entries) := by
  match entries with
  | [] => simp [literalEntries]
  | (k, v) :: rest =>
    simp [literalEntries, generating_literalExpr k, generating_literalExpr v,
      generating_literalEntries keyType valueType hashes frozen rest]

theorem generating_literalFields (fields : List Field) (entries : List (Value × Value)) :
    Generating (g.literalFields fields entries) := by
  match entries with
  | [] => simp [literalFields]
  | (k, v) :: rest =>
    simp [literalFields, generating_literalExpr v, generating_literalFields fields rest]

end

end Group

/-! ### Drafts -/

namespace Drafting

def Generates (m : Drafting α) : Prop := ∀ d, Generating (ExceptT.run m d).1

theorem generates_pure (a : α) : Generates (pure a) := fun _ => generating_ok a

theorem generates_modify (f : Draft → Draft) : Generates (modify f) := fun _ => generating_ok ()

theorem generates_throw (kind : fault.isGeneration) :
    Generates (throw fault : Drafting α) := fun _ => generating_error.mpr kind

theorem generates_ofExcept {outcome : Except Fault α} (step : Generating outcome) :
    Generates (ofExcept outcome) := fun _ => step

variable {f : α → Drafting β}

theorem Generates.bind {m : Drafting α} (first : Generates m) (rest : ∀ a, Generates (f a)) :
    Generates (m >>= f) := by
  intro d
  have step := first d
  rw [run_bind]
  cases ran : ExceptT.run m d with
  | mk outcome after =>
    rw [ran] at step
    cases outcome with
    | ok a => exact rest a after
    | error fault => exact generating_error.mpr (generating_error.mp step)

theorem Generates.mapM {items : List α} (each : ∀ a, Generates (f a)) :
    Generates (items.mapM f) := by
  induction items with
  | nil => exact generates_pure []
  | cons a rest ih =>
    rw [List.mapM_cons]
    exact (each a).bind fun _ => ih.bind fun _ => generates_pure _

theorem generates_uses (e : Expr) : Generates (uses e) :=
  (generates_modify _).bind fun _ => generates_pure e

theorem generates_annotate (type : FieldType) (frozen : Bool) :
    Generates (annotate type frozen) := by
  intro d
  rw [outcome_annotate]
  exact d.group.generating_hintWithin _ type frozen

theorem generates_attributes (fields : List Field) : Generates (attributes fields) :=
  .mapM fun _ => (generates_annotate _ _).bind fun _ => generates_pure _

theorem Generates.run {d : Draft} {steps : Drafting Unit} (generates : Generates steps) :
    Generating (Drafting.run d steps) := by
  have step := generates d
  unfold Drafting.run
  cases ran : StateT.run (ExceptT.run steps) d with
  | mk outcome after =>
    have outcomeOf : (ExceptT.run steps d).1 = outcome := congrArg Prod.fst ran
    rw [outcomeOf] at step
    cases outcome with
    | ok _ => simp
    | error fault => exact generating_error.mpr (generating_error.mp step)

end Drafting

open Drafting

theorem generating_mapM? (each : ∀ a, Generating (f a)) (item : Option α) :
    Generating (item.mapM f) := by
  cases item <;> simp [each]

namespace Emit

variable (g : Group) (path : Value)

theorem generating_record (kind name : String) (r : Record) :
    Generating (record g path kind name r) := by
  refine Generates.run ((generates_modify _).bind fun _ => (generates_modify _).bind fun _ => ?_)
  exact (generates_attributes _).bind fun _ => generates_modify _

theorem generating_constants (name : String) (cs : List Constant) :
    Generating (constants g path name cs) := by
  refine Generates.run (.bind (.mapM fun c => ?_) fun _ => generates_modify _)
  refine (generates_annotate _ _).bind fun _ => fun d => ?_
  exact (generates_ofExcept (Group.generating_literalExpr _ _ _ _)).bind
    (fun _ => (generates_uses _).bind fun _ => generates_pure _) d

theorem generates_methodRow (m : Method) : Generates (methodRow m) := by
  unfold methodRow
  cases m.name with
  | text name =>
    refine (generates_attributes _).bind fun _ => (generates_modify _).bind fun _ => ?_
    cases responseFields? m with
    | none => exact generates_pure _
    | some fields =>
      refine (generates_attributes _).bind fun _ => (generates_modify _).bind fun _ => ?_
      exact generates_pure _
  | _ => exact generates_throw rfl

theorem generating_service (s : Service) : Generating (service g path s) := by
  simp only [service, generating_bind, Group.generating_outputName, true_and]
  intro name _
  refine Generates.run ((generates_modify _).bind fun _ => (Generates.mapM generates_methodRow).bind ?_)
  intro rows
  refine (generates_ofExcept (generating_mapM? g.generating_outputName _)).bind ?_
  exact fun _ => generates_modify _

theorem generates_handlerMethod (m : Method) : Generates (handlerMethod m) := by
  refine (generates_attributes _).bind fun params => .bind ?_ fun returns => ?_
  · unfold resultHint
    split
    · rw [map_eq_pure_bind]
      exact (generates_annotate _ _).bind fun _ => generates_pure _
    · exact generates_pure _
  · split
    · exact (generates_throw rfl).bind fun _ => generates_pure _
    · exact generates_pure _

theorem generating_handler (s : Service) : Generating (handler g path s) := by
  simp only [handler, handlerOutput, generating_bind, Group.generating_outputName, generating_pure,
    implies_true, true_and]
  intro name _
  refine Generates.run ((generates_modify _).bind fun _ => .bind (generates_ofExcept ?_) fun parent => ?_)
  · exact generating_mapM? (fun _ => by simp [handlerRef, handlerOutput]) _
  · have rest (parent : Option Ref) : Generates (do
        add (.handler name (Name.last s.name) parent (← s.methods.mapM handlerMethod))) :=
      (Generates.mapM generates_handlerMethod).bind fun _ => generates_modify _
    cases parent with
    | none => exact rest none
    | some r => exact (generates_uses _).bind fun _ => rest (some r)

end Emit

namespace Companion

variable (g : Group)

theorem generating_declaredDefault (f : Field) : Generating (declaredDefault g f) :=
  g.generating_literalExpr _ _ _

theorem generating_field (f : Field) : Generating (field g f) := by
  simp [field, draw, default, generating_declaredDefault]

theorem generating_generator (kind : String) (constructor : Expr) (fields : List Field) :
    Generating (generator g kind constructor fields) := by
  have members := @generating_mapM _ _ (memberDraw g constructor) fields
    fun _ _ => by simp [memberDraw]
  have all := @generating_mapM _ _ (field g) fields fun f _ => generating_field g f
  simp [generator, members, all]

theorem generating_applyDefaults (r : Record) : Generating (applyDefaults g r) := by
  have all := @generating_mapM _ _ (field g) r.fields fun f _ => generating_field g f
  have declared : Generating (memberDefaults g r.fields) :=
    generating_mapM fun f _ => by simp [generating_declaredDefault]
  simp [applyDefaults, all, declared]

theorem generates_addFunctions (type : TypeHint) (strategy result : Expr)
    (param subject : String) : Generates (addFunctions type strategy result param subject) := by
  refine (generates_uses _).bind fun _ => (generates_uses _).bind fun _ => ?_
  refine (generates_uses _).bind fun _ => (generates_modify _).bind fun _ => ?_
  exact (generates_uses _).bind fun _ => generates_modify _

theorem generates_useClass (name : String) : Generates (useClass g name) := by
  refine (generates_ofExcept (g.generating_classRef name)).bind fun _ => ?_
  exact (generates_uses _).bind fun _ => generates_pure _

theorem generates_recordFunctions (entity : Entity) : Generates (recordFunctions g entity) := by
  refine (generates_useClass g _).bind fun cls => .bind (generates_ofExcept ?_) fun r => ?_
  · cases entity <;> simp [recordOf]
  · refine (generates_ofExcept (generating_generator g _ _ _)).bind fun _ => ?_
    refine (generates_ofExcept (generating_applyDefaults g r)).bind fun _ => ?_
    exact generates_addFunctions _ _ _ _ _

theorem generating_output (path : Value) (name : String) (entity : Entity) :
    Generating (output g path name entity) := by
  refine Generates.run ?_
  cases entity with
  | typedef t =>
    refine (generates_annotate _ _).bind fun _ => ?_
    exact (generates_ofExcept (g.generating_draw _ _)).bind fun _ => generates_addFunctions _ _ _ _ _
  | enum e => exact (generates_useClass g _).bind fun _ => generates_addFunctions _ _ _ _ _
  | _ => exact generates_recordFunctions g _

end Companion

namespace Stream

variable (g : Group)

theorem generating_filterM {items : List α} {p : α → Except Fault Bool}
    (each : ∀ a, Generating (p a)) : Generating (items.filterM p) := by
  have general (found : List α) : Generating (List.filterAuxM p items found) := by
    induction items generalizing found with
    | nil => exact generating_ok found
    | cons a rest ih => exact generating_bind.mpr ⟨each a, fun _ _ => ih _⟩
  exact generating_bind.mpr ⟨general [], fun _ _ => generating_ok _⟩

variable {outcome : Except Fault Emission}

theorem generating_constantEmissions (s : Schema) (known : outcome ∈ constantEmissions g s) :
    Generating outcome := by
  have owned : Generating (ownConstants g s) := generating_filterM fun c => g.generating_owns c.name
  unfold constantEmissions at known
  cases own : ownConstants g s with
  | error fault =>
    rw [own] at known owned
    rw [List.mem_singleton.mp known]
    exact generating_error.mpr (generating_error.mp owned)
  | ok cs =>
    rw [own] at known
    cases cs with
    | nil => cases known
    | cons c rest =>
      rw [List.mem_singleton.mp known]
      simp [Emit.generating_constants]

theorem generating_emission (s : Schema)
    (known : outcome ∈ mainEmissions g s ++ companionEmissions g s) : Generating outcome := by
  have companion (name : String) (entity : Entity) :
      Generating (companionEmission g s.path (g.outputName name) entity) := by
    simp [companionEmission, Companion.generating_output]
  rcases List.mem_append.mp known with inMain | inCompanions
  · cases mem_mainEmissions_iff.mp inMain with
    | @enum e _ made =>
      have drafted (name : String) : Generating (Emit.enumeration g s.path name e) :=
        Generates.run ((generates_modify _).bind fun _ => generates_modify _)
      simp [← made, enumEmission, drafted]
    | constants known => exact generating_constantEmissions g s known
    | record _ made => simp [← made, recordEmission, Emit.generating_record]
    | service _ made => simp [← made, serviceEmission, Emit.generating_service]
    | handler _ made => simp [← made, handlerEmission, Emit.generating_handler]
  · obtain ⟨-, made⟩ | ⟨-, made⟩ | ⟨-, made⟩ := mem_companionEmissions_iff.mp inCompanions
    all_goals exact made ▸ companion _ _

end Stream

/-- The faults of all emissions of a group, in their order. -/
def Group.faults (g : Group) : List Fault :=
  g.schemas.flatMap fun entry =>
    (Stream.mainEmissions (g.seenFrom entry.2.module) entry.2 ++
      Stream.companionEmissions (g.seenFrom entry.2.module) entry.2).flatMap Schema.faultOf

namespace Stream

open Schema (Reports faultOf reports_ok reports_mapM reports_foldlM reports_faultOf)

theorem reports_collect (emissions : List (Except Fault Emission)) :
    Reports (collect emissions) (emissions.flatMap faultOf) := by
  refine reports_mapM fun emission _ => ?_
  exact (reports_faultOf emission).map fun emission => (emission.name, emission.output)

theorem reports_ofSchema (g : Group) (s : Schema) :
    Reports (ofSchema g s) ((mainEmissions (g.seenFrom s.module) s ++
      companionEmissions (g.seenFrom s.module) s).flatMap faultOf) := by
  rw [List.flatMap_append]
  refine (reports_collect _).bind fun main _ => ?_
  exact (reports_collect _).map (Streams.mk main)

theorem reports_ofGroup (g : Group) : Reports (ofGroup g) g.faults := by
  refine reports_foldlM (fun streams entry _ => ?_) _
  exact (reports_ofSchema g entry.2).map fun next =>
    Streams.mk (streams.main ++ next.main) (streams.companions ++ next.companions)

end Stream

theorem Group.isGeneration_of_mem_faults (member : fault ∈ g.faults) : fault.isGeneration := by
  obtain ⟨entry, -, member⟩ := List.mem_flatMap.mp member
  obtain ⟨outcome, known, member⟩ := List.mem_flatMap.mp member
  cases outcome with
  | ok _ => cases member
  | error cause =>
    rw [List.mem_singleton.mp member]
    exact generating_error.mp (Stream.generating_emission _ _ known)

/-! ### Runs of the command -/

namespace Session

def Steady (world : World) (m : Session α) : Prop :=
  ∃ outcome, ∀ log, ∃ later, m.run { world with log } = (outcome, { world with log := later })

theorem Quiet.steady {m : Session α} {outcome : Except Fault α} (quiet : Quiet m outcome)
    (world : World) : Steady world m := ⟨outcome, fun log => quiet { world with log }⟩

theorem Steady.bind {world : World} {m : Session α} {f : α → Session β} (first : Steady world m)
    (rest : ∀ a, Steady world (f a)) : Steady world (m >>= f) := by
  obtain ⟨outcome, quiet⟩ := first
  cases outcome with
  | ok a =>
    obtain ⟨last, quietLast⟩ := rest a
    refine ⟨last, fun log => ?_⟩
    obtain ⟨later, ran⟩ := quiet log
    rw [run_bind, ran]
    exact quietLast later
  | error fault =>
    refine ⟨.error fault, fun log => ?_⟩
    obtain ⟨later, ran⟩ := quiet log
    exact ⟨later, by rw [run_bind, ran]⟩

theorem steady_loadGroup (world : World) (paths : List String) : Steady world (loadGroup paths) := by
  unfold loadGroup
  generalize ({} : Group) = g
  induction paths generalizing g with
  | nil => exact (quiet_pure g).steady world
  | cons path rest ih =>
    rw [List.foldlM_cons]
    have read : Steady world (loadSchema path) :=
      ⟨do Schema.load (← documentOf path (world.tree.read (Path.join world.working path))) path,
        fun log => ⟨log, rfl⟩⟩
    refine (read.bind fun s => ?_).bind ih
    have rest : Steady world (do
        let g ← ofExcept (g.add s)
        note [⟨.info, "loader", s!"Loaded schema '{s.module.display}' from '{path}'."⟩]
        return g) :=
      .bind ((quiet_ofExcept _).steady world) fun _ =>
        .bind ((quiet_note _).steady world) fun _ => (quiet_pure _).steady world
    dsimp only
    split
    · exact .bind ((quiet_ofExcept (.error _)).steady world) fun _ => rest
    · exact rest

theorem Refusal.not_accepted {directories : List String} {working : String}
    (refusal : Refusal g directories working fault) (streams : Streams) :
    ¬ Accepted g directories working streams := by
  rintro ⟨resolved, both, apart⟩
  cases refusal with
  | generation failed => simp [Stream.resolved, failed, bind, Except.bind] at resolved
  | mainNames generated collides =>
    simp [Stream.resolved, generated, Stream.unwrap, collides, Except.mapError, bind,
      Except.bind] at resolved
  | companionNames generated mainDone collides =>
    simp [Stream.resolved, generated, Stream.unwrap, mainDone, collides, Except.mapError, bind,
      Except.bind] at resolved
  | directoryCount _ wrong => exact wrong both
  | sharedFile again _ order same =>
    cases resolved.symm.trans again
    have pair := apart.sublist (order.map (·.path))
    simp [same] at pair

end Session

theorem Stream.faults_eq_nil {streams : Streams} (generated : ofGroup g = .ok streams) :
    g.faults = [] := by
  have reports := reports_ofGroup g
  cases faults : g.faults with
  | nil => rfl
  | cons fault rest =>
    rw [faults] at reports
    cases generated.symm.trans reports

theorem Session.Refusal.kind {first second working : String}
    (refusal : Session.Refusal g [first, second] working fault) :
    g.faults.head? = some fault ∨ g.faults = [] ∧ fault.isCollision := by
  have generated {streams : Streams} (resolved : Stream.resolved g = .ok streams) :
      g.faults = [] := by
    obtain ⟨raw, generated, -⟩ := bind_eq_ok.mp resolved
    exact Stream.faults_eq_nil generated
  cases refusal with
  | generation failed =>
    have reports := Stream.reports_ofGroup g
    rw [failed] at reports
    cases faults : g.faults with
    | nil =>
      rw [faults] at reports
      obtain ⟨_, stops⟩ := reports
      cases stops
    | cons first rest =>
      rw [faults] at reports
      cases reports
      exact .inl rfl
  | mainNames generated | companionNames generated =>
    exact .inr ⟨Stream.faults_eq_nil generated, rfl⟩
  | directoryCount _ wrong => exact absurd rfl wrong
  | sharedFile resolved => exact .inr ⟨generated resolved, rfl⟩

namespace Command

open Session (Accepted Refusal)

def Options.found (options : Options) (world : World) : List String :=
  world.tree.search world.working options.paths options.excludes options.recursive

def Options.mainDirectory (options : Options) (world : World) : String :=
  Path.join world.working options.outputDirectory

def Options.companionsDirectory (options : Options) (world : World) : String :=
  Path.join world.working (if options.companionDirectory = "" then options.outputDirectory
    else options.companionDirectory)

def Options.directories (options : Options) (world : World) : List String :=
  [options.mainDirectory world, options.companionsDirectory world]

/-- Both streams can be written below their directories, whatever is logged before. -/
def Writable (options : Options) (world : World) (streams : Streams) : Prop :=
  ∀ log, ∃ files after, (do
    let main ← Session.writeStream (options.mainDirectory world) options.format streams.main
    let companions ← Session.writeStream (options.companionsDirectory world) options.format
      streams.companions
    return main ++ companions : Session (List String)).run { world with log } = (.ok files, after)

variable {options : Options} {world : World} {g : Group}

theorem run_generate_cases
    (loads : ((Session.loadGroup (options.found world)).run world).1 = .ok g)
    (writable : ∀ streams, Accepted g (options.directories world) world.working streams →
      Writable options world streams) (log : List LogLine) :
    (∃ fault later, Refusal g (options.directories world) world.working fault ∧
      (generate options world.working).run { world with log } =
        (.error fault, { world with log := later })) ∨
    ∃ streams files after, Accepted g (options.directories world) world.working streams ∧
      (generate options world.working).run { world with log } = (.ok files, after) := by
  obtain ⟨outcome, quiet⟩ := Session.steady_loadGroup world (options.found world)
  have first := quiet world.log
  obtain ⟨_, first⟩ := first
  rw [first] at loads
  cases loads
  obtain ⟨loaded, ran⟩ := quiet log
  have searched : ({ world with log } : World).tree.search world.working options.paths
      options.excludes options.recursive = options.found world := rfl
  cases found : options.found world with
  | nil =>
    right
    rw [found] at ran
    cases ran
    rw [found] at searched
    have ended : ∃ after, (generate options world.working).run { world with log } =
        (.ok [], after) := by
      simp only [generate, run_bind, run_get, searched]
      exact ⟨_, rfl⟩
    obtain ⟨after, ended⟩ := ended
    exact ⟨{}, [], after, ⟨rfl, rfl, List.nodup_nil⟩, ended⟩
  | cons path rest =>
    have steps : (generate options world.working).run { world with log } =
        (Session.generate g (options.directories world) options.format).run
          { world with log := loaded } := by
      rw [found] at searched ran
      simp only [generate, run_bind, run_get, searched, ran]
      rfl
    rw [steps]
    rcases Session.run_generate_cases g (options.directories world) options.format
      { world with log := loaded } with
      ⟨fault, later, refusal, ended⟩ | ⟨streams, later, _, _, accepted, same, ended⟩
    · exact .inl ⟨fault, later, refusal, ended⟩
    · right
      obtain ⟨files, after, written⟩ := writable streams accepted later
      cases same
      exact ⟨streams, files, after, accepted, ended.trans written⟩

def firstLines (world : World) : List LogLine :=
  world.log ++ [⟨.info, "cli", s!"Working from root directory: {world.working}"⟩]

theorem run_observing (run : Session (List String)) (world : World) :
    (session.observing run).run world = (.ok (run.run world).1, (run.run world).2) := rfl

theorem start_eq {result : Except Fault (List String)} {after : World}
    (ran : (generate options world.working).run { world with log := firstLines world } =
      (result, after)) :
    start options world = ((report result).map (·.1), { after with
      log := (after.log ++ (report result).toOption.elim [] (·.2)).filter fun line =>
        options.verbose || line.level != .debug }) := by
  have steps : (session options).run world = ((report result).map (·.1), { after with
      log := after.log ++ (report result).toOption.elim [] (·.2) }) := by
    rw [firstLines] at ran
    simp only [session, run_bind, run_get, Session.run_note, run_observing, ran,
      Session.run_ofExcept]
    cases report result with
    | ok reported => rfl
    | error fault => simp [Except.map, Except.toOption]
  rw [start, steps]

theorem report_of_isGeneration (kind : fault.isGeneration) :
    report (.error fault) = .error fault := by
  cases fault <;> first | rfl | cases kind

theorem report_of_isCollision (kind : fault.isCollision) :
    report (.error fault) = .ok (1, [⟨.error, "cli", fault.message?.getD ""⟩]) := by
  simp [report, kind]

/-- A group that loads, with directories that can be written, is generated with exit code 0 exactly
    if it is accepted. Exit code 1 is for collisions. The first fault of any other group escapes,
    since none is of a kind that is reported. -/
theorem start_escapes_iff
    (loads : ((Session.loadGroup (options.found world)).run world).1 = .ok g)
    (writable : ∀ streams, Accepted g (options.directories world) world.working streams →
      Writable options world streams) :
    (∀ fault ∈ g.faults, fault.isGeneration) ∧
    (∀ fault, (start options world).1 = .error fault ↔ g.faults.head? = some fault) ∧
    ((start options world).1 = .ok 1 ↔ g.faults = [] ∧
      ∀ streams, ¬ Accepted g (options.directories world) world.working streams) ∧
    ((start options world).1 = .ok 1 → ∃ line ∈ (start options world).2.log, line.level = .error) ∧
    ((start options world).1 = .ok 0 ↔
      ∃ streams, Accepted g (options.directories world) world.working streams) := by
  refine ⟨fun fault member => Group.isGeneration_of_mem_faults member, ?_⟩
  rcases run_generate_cases loads writable (firstLines world) with
    ⟨fault, later, refusal, ran⟩ | ⟨streams, files, after, accepted, ran⟩
  · have refused := refusal.not_accepted
    rcases refusal.kind with first | ⟨none, collides⟩
    · have kind := Group.isGeneration_of_mem_faults (List.mem_of_mem_head? first)
      have nonempty : g.faults ≠ [] := by
        intro none
        rw [none] at first
        cases first
      simp [start_eq ran, report_of_isGeneration kind, first, nonempty, refused, Except.map]
    · simp [start_eq ran, report_of_isCollision collides, none, refused, Except.map,
        Except.toOption]
  · have generated : g.faults = [] := by
      obtain ⟨raw, generated, -⟩ := bind_eq_ok.mp accepted.resolved
      exact Stream.faults_eq_nil generated
    have returns : (start options world).1 = .ok 0 := by
      rw [start_eq ran]
      rfl
    simpa [returns, generated] using ⟨streams, accepted⟩

theorem writable_of_storeAll {streams : Streams} {after : FileTree} (plain : options.format = false)
    (stored : Session.storeAll world.working world.tree
      (Session.planOf streams (options.directories world)) = .ok after) :
    Writable options world streams := by
  intro log
  have plan : Session.planOf streams (options.directories world) =
      streams.main.map (options.mainDirectory world, ·) ++
        streams.companions.map (options.companionsDirectory world, ·) := by
    simp [Session.planOf, Options.directories]
  obtain ⟨between, first, second⟩ := Session.storeAll_append.mp (plan ▸ stored)
  obtain ⟨mainLog, mainRun⟩ := @Session.run_writeStream _ _ { world with log } _ _ _ first
  obtain ⟨lastLog, companionsRun⟩ :=
    @Session.run_writeStream _ _ { world with tree := between, log := mainLog } _ _ _ second
  simp only [plain, run_bind, mainRun, companionsRun, run_pure]
  exact ⟨_, _, rfl⟩

def worldOf (document : String) : World where
  tree := { nodes := [(["m.json"], .file document)] }

def plainOptions : Options where
  paths := ["m.json"]
  outputDirectory := "out"
  format := false

def emptyWorld : World :=
  worldOf "\x7b\"module\": \"m\", \"structs\": [\x7b\"name\": \"A\"\x7d]\x7d"

def emptyGroup : Group :=
  ((Session.loadGroup (plainOptions.found emptyWorld)).run emptyWorld).1.toOption.get
    (by decide +kernel)

theorem empty_struct_returns :
    ∃ g, ((Session.loadGroup (plainOptions.found emptyWorld)).run emptyWorld).1 = .ok g ∧
      (∃ streams, Accepted g (plainOptions.directories emptyWorld) "/" streams) ∧
      (start plainOptions emptyWorld).1 = .ok 0 := by
  have loads : ((Session.loadGroup (plainOptions.found emptyWorld)).run emptyWorld).1 =
      .ok emptyGroup := toOption_eq_some.mp (Option.some_get _).symm
  have accepted : ∃ streams ∈ (Stream.resolved emptyGroup).toOption,
      ((Session.targetsOf "/" streams (plainOptions.directories emptyWorld)).map
        (·.path)).Nodup ∧
      (Session.storeAll "/" emptyWorld.tree
        (Session.planOf streams (plainOptions.directories emptyWorld))).toOption.isSome := by
    decide +kernel
  obtain ⟨streams, resolved, apart, stored⟩ := accepted
  have known := toOption_eq_some.mp resolved
  have exists_accepted : ∃ streams,
      Accepted emptyGroup (plainOptions.directories emptyWorld) "/" streams :=
    ⟨streams, known, rfl, apart⟩
  refine ⟨emptyGroup, loads, exists_accepted, ?_⟩
  refine (start_escapes_iff loads fun other accepted => ?_).2.2.2.2.mpr exists_accepted
  cases accepted.resolved.symm.trans known
  obtain ⟨after, stored⟩ := isSome_toOption.mp stored
  exact writable_of_storeAll rfl stored

def strayWorld : World :=
  worldOf ("\x7b\"module\": \"m\", \"structs\": [\x7b\"name\": \"A\", \"fields\": " ++
    "[\x7b\"name\": \"x\", \"type\": \"Missing\"\x7d]\x7d]\x7d")

/-- The document is loaded, but its name that cannot be resolved is not reported. -/
theorem stray_type_escapes :
    (∃ g, ((Session.loadGroup (plainOptions.found strayWorld)).run strayWorld).1 = .ok g) ∧
    ∃ fault, (start plainOptions strayWorld).1 = .error fault ∧
      fault.message? = some "Cannot resolve 'm.Missing' in file group." := by
  obtain ⟨loads, ran⟩ :
      ((Session.loadGroup (plainOptions.found strayWorld)).run strayWorld).1.toOption.isSome ∧
      (Schema.faultOf (start plainOptions strayWorld).1).map Fault.message? =
        [some "Cannot resolve 'm.Missing' in file group."] := by
    decide +kernel
  refine ⟨isSome_toOption.mp loads, ?_⟩
  cases outcome : (start plainOptions strayWorld).1 with
  | ok code => simp [outcome, Schema.faultOf] at ran
  | error fault => exact ⟨fault, rfl, by simpa [outcome, Schema.faultOf] using ran⟩

end Command
end IdlGen
