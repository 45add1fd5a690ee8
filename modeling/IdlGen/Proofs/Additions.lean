import IdlGen.Proofs.Extensions
import IdlGen.Proofs.Literals

/-!
Adding a schema to a group: the streams of the larger group are the earlier ones followed by those
of the added schema (`ofGroup_add`), if the modules that names are about were present before
(`alias_companion_moves`).
-/
namespace IdlGen

open Outcome

variable {g g' : Group}

namespace Group.Within

variable (grown : g.Within g') (held : g.MentionsHeld)
include grown held

theorem companionField (f : Field) : Kept (Companion.field g f) (Companion.field g' f) := by
  refine KeptBut.bind ?_ fun _ _ => KeptBut.bind ?_ fun _ _ => kept_refl _
  · exact (grown.draw held f.type false).bind fun _ _ => kept_refl _
  · rw [Companion.default, Companion.default]
    split
    · exact kept_refl _
    · exact (grown.literalExpr held f.default (some f.type) false).bind fun _ _ => kept_refl _

theorem generator (kind : String) (constructor : Expr) (fields : List Field) :
    Kept (Companion.generator g kind constructor fields)
      (Companion.generator g' kind constructor fields) := by
  rw [Companion.generator, Companion.generator]
  split
  · exact kept_refl _
  · split
    · refine KeptBut.bind (KeptBut.mapM fun f _ => ?_) fun _ _ => kept_refl _
      exact (grown.draw held f.type false).bind fun _ _ => kept_refl _
    · exact (KeptBut.mapM fun f _ => grown.companionField held f).bind fun _ _ => kept_refl _

theorem applyDefaults (r : Record) :
    Kept (Companion.applyDefaults g r) (Companion.applyDefaults g' r) := by
  rw [Companion.applyDefaults, Companion.applyDefaults]
  split
  · exact kept_refl _
  · split
    · exact (KeptBut.mapM fun f _ => grown.companionField held f).bind fun _ _ => kept_refl _
    · refine KeptBut.bind (KeptBut.mapM fun f _ => ?_) fun _ _ => kept_refl _
      exact (grown.literalExpr held f.default (some f.type) false).bind fun _ _ => kept_refl _

end Group.Within

def Draft.regroup (d : Draft) (group : Group) : Draft := { d with group }

namespace Drafting

variable {α β : Type}

def Lifts (g g' : Group) (m m' : Drafting α) : Prop :=
  ∀ (d last : Draft) (a : α), d.group = g → ExceptT.run m d = (.ok a, last) →
    last.group = g ∧ ExceptT.run m' (d.regroup g') = (.ok a, last.regroup g')

theorem lifts_pure (a : α) : Lifts g g' (pure a) (pure a) := by
  intro d last b same ran
  cases ran
  exact ⟨same, rfl⟩

theorem lifts_throw (fault : Fault) : Lifts g g' (throw fault : Drafting α) (throw fault) := by
  intro d last b same ran
  cases ran

theorem lifts_ofExcept {before after : Except Fault α} (kept : Kept before after) :
    Lifts g g' (ofExcept before) (ofExcept after) := by
  intro d last a same ran
  obtain ⟨made, rfl⟩ := Prod.mk.inj ran
  rw [kept.ok made]
  exact ⟨same, rfl⟩

theorem Lifts.bind {m m' : Drafting α} {f f' : α → Drafting β} (first : Lifts g g' m m')
    (rest : ∀ a, Lifts g g' (f a) (f' a)) : Lifts g g' (m >>= f) (m' >>= f') := by
  intro d last b same ran
  obtain ⟨a, next, ran, later⟩ := run_bind_ok ran
  obtain ⟨kept, made⟩ := first d next a same ran
  rw [run_bind, made]
  exact rest a next last b kept later

theorem Lifts.mapM {items : List α} {f f' : α → Drafting β}
    (each : ∀ a ∈ items, Lifts g g' (f a) (f' a)) :
    Lifts g g' (items.mapM f) (items.mapM f') := by
  induction items with
  | nil => exact lifts_pure []
  | cons item rest ih =>
    obtain ⟨first, later⟩ := List.forall_mem_cons.mp each
    rw [List.mapM_cons, List.mapM_cons]
    exact first.bind fun _ => (ih later).bind fun _ => lifts_pure _

theorem lifts_modify {f : Draft → Draft} (keeps : ∀ d, (f d).group = d.group)
    (commutes : ∀ d, f (d.regroup g') = (f d).regroup g') :
    Lifts g g' (modify f) (modify f) := by
  intro d last a same ran
  cases ran
  exact ⟨(keeps d).trans same, by rw [run_modify, commutes]⟩

theorem foldl_regroup {note : Draft → String → Draft}
    (commutes : ∀ d line, note (d.regroup g') line = (note d line).regroup g')
    (lines : List String) (d : Draft) :
    lines.foldl note (d.regroup g') = (lines.foldl note d).regroup g' := by
  induction lines generalizing d with
  | nil => rfl
  | cons line rest ih => rw [List.foldl_cons, List.foldl_cons, commutes, ih]

theorem lifts_addImport (line : String) : Lifts g g' (addImport line) (addImport line) :=
  lifts_modify (fun _ => rfl) fun _ => rfl

theorem lifts_add (declaration : Declaration) : Lifts g g' (add declaration) (add declaration) :=
  lifts_modify (fun _ => rfl) fun _ => rfl

theorem lifts_uses (e : Expr) : Lifts g g' (uses e) (uses e) := by
  refine (lifts_modify (fun d => ?_) fun d => ?_).bind fun _ => lifts_pure e
  · exact view_foldl Draft.group Draft.addImport (fun _ _ => rfl) _ d
  · exact foldl_regroup (fun _ _ => rfl) _ d

theorem lifts_annotate (grown : g.Within g') (held : g.MentionsHeld) (type : FieldType)
    (frozen : Bool) : Lifts g g' (annotate type frozen) (annotate type frozen) := by
  rintro d last hint rfl ran
  have run_annotate (d : Draft) : ExceptT.run (annotate type frozen) d =
      ((d.group.hint type frozen).outcome, d.addClasses (d.group.hint type frozen).notes) := rfl
  rw [run_annotate] at ran ⊢
  obtain ⟨made, rfl⟩ := Prod.mk.inj ran
  have same : (d.regroup g').group.hint type frozen = d.group.hint type frozen :=
    grown.hint held type frozen fun fault failed => by cases made.symm.trans failed
  rw [same, made]
  refine ⟨view_foldl Draft.group Draft.addTypeImport (fun _ _ => rfl) _ d, ?_⟩
  rw [Draft.addClasses, Draft.addClasses, ← foldl_regroup fun _ _ => rfl]
  rfl

theorem lifts_attributes (grown : g.Within g') (held : g.MentionsHeld) (fields : List Field) :
    Lifts g g' (attributes fields) (attributes fields) :=
  Lifts.mapM fun _ _ => (lifts_annotate grown held _ _).bind fun _ => lifts_pure _

theorem Lifts.run {steps steps' : Drafting Unit} (lifts : Lifts g g' steps steps')
    (name generator : String) (kind : OutputKind) (path : Value) :
    Kept (Drafting.run (.start g name generator kind path) steps)
      (Drafting.run (.start g' name generator kind path) steps') := by
  refine kept_of_ok fun o done => ?_
  obtain ⟨last, ran, rfl⟩ := run_eq_ok done
  obtain ⟨-, made⟩ := lifts _ last () rfl ran
  unfold Drafting.run
  have same : (Draft.start g name generator kind path).regroup g' =
    .start g' name generator kind path := rfl
  rw [StateT.run, ← same, made]
  rfl

end Drafting

open Drafting

namespace Group.Within

variable (grown : g.Within g') (held : g.MentionsHeld) (path : Value)
include grown held

theorem record (kind name : String) (r : Record) :
    Kept (Emit.record g path kind name r) (Emit.record g' path kind name r) := by
  refine Lifts.run ?_ name kind .types path
  exact (lifts_addImport _).bind fun _ => (lifts_addImport _).bind fun _ =>
    (lifts_attributes grown held r.fields).bind fun _ => lifts_add _

omit grown held in
theorem enumeration (name : String) (e : Enum) :
    Kept (Emit.enumeration g path name e) (Emit.enumeration g' path name e) :=
  ((lifts_addImport _).bind fun _ => lifts_add _).run name "enum" .types path

theorem constantEntry (c : Constant) :
    Lifts g g' (Emit.constantEntry c) (Emit.constantEntry c) := by
  refine (lifts_annotate grown held c.type false).bind fun hint => ?_
  -- The value is made in the group of the draft.
  rintro d last entry rfl ran
  have value : Lifts d.group g' _ _ :=
    lifts_ofExcept (grown.literalExpr held c.value (some c.type) false)
  exact (value.bind fun _ => (lifts_uses _).bind fun _ => lifts_pure _) d last entry rfl ran

theorem constants (name : String) (cs : List Constant) :
    Kept (Emit.constants g path name cs) (Emit.constants g' path name cs) := by
  refine Lifts.run ?_ name "constant" .constants path
  exact (Lifts.mapM fun c _ => constantEntry grown held c).bind fun _ => lifts_add _

theorem methodRow (m : Method) : Lifts g g' (Emit.methodRow m) (Emit.methodRow m) := by
  rw [Emit.methodRow]
  cases m.name with
  | text name =>
    refine (lifts_attributes grown held m.params).bind fun _ => (lifts_add _).bind fun _ => ?_
    cases Emit.responseFields? m with
    | none => exact lifts_pure _
    | some fields =>
      exact (lifts_attributes grown held fields).bind fun _ => (lifts_add _).bind fun _ =>
        lifts_pure _
  | _ => exact lifts_throw _

theorem handlerMethod (m : Method) : Lifts g g' (Emit.handlerMethod m) (Emit.handlerMethod m) := by
  have returns : Lifts g g' (Emit.resultHint m) (Emit.resultHint m) := by
    rw [Emit.resultHint]
    split
    · exact (lifts_annotate grown held _ false).bind fun _ => lifts_pure _
    · exact lifts_pure _
  refine (lifts_attributes grown held m.params).bind fun _ => returns.bind fun _ => ?_
  split
  · exact (lifts_throw _).bind fun _ => lifts_pure _
  · exact lifts_pure _

section
variable {entry : Value × Schema} {s : Service} (inGroup : entry ∈ g.schemas)
  (declared : s ∈ entry.2.services.values)
include inGroup declared

omit grown in
theorem holds_of_service : g.holds s.name := by
  have listed : Entity.service s ∈ entry.2.entities := by simp [Schema.entities, declared]
  simpa only [Entity.name] using holds_of_entity held inGroup listed

omit grown in
theorem mapM_parent {α : Type} {f f' : String → Except Fault α}
    (each : ∀ parent, g.holds parent → f' parent = f parent) :
    s.extends?.mapM f' = s.extends?.mapM f := by
  cases known : s.extends? with
  | none => rfl
  | some parent =>
    have mentioned : parent ∈ entry.2.mentions :=
      List.mem_append_right _ (List.mem_filterMap.mpr ⟨s, declared, known⟩)
    rw [Option.mapM_some, Option.mapM_some, each parent (held entry inGroup parent mentioned)]

theorem service : Kept (Emit.service g path s) (Emit.service g' path s) := by
  have named := holds_of_service held inGroup declared
  rw [Emit.service, Emit.service, grown.outputName named,
    mapM_parent held inGroup declared fun _ => grown.outputName]
  refine (kept_refl _).bind fun name _ => Lifts.run ?_ name "service" .types path
  exact (lifts_addImport _).bind fun _ =>
    (Lifts.mapM fun m _ => methodRow grown held m).bind fun _ =>
      (lifts_ofExcept (kept_refl _)).bind fun _ => lifts_add _

theorem handler : Kept (Emit.handler g path s) (Emit.handler g' path s) := by
  have named := holds_of_service held inGroup declared
  rw [Emit.handler, Emit.handler, grown.handlerOutput named,
    mapM_parent held inGroup declared fun _ => grown.handlerRef]
  refine (kept_refl _).bind fun name _ => Lifts.run ?_ name "behaviour" .types path
  refine (lifts_addImport _).bind fun _ => (lifts_ofExcept (kept_refl _)).bind fun parent => ?_
  have rest := (Lifts.mapM fun m (_ : m ∈ s.methods) => handlerMethod grown held m).bind
    fun methods => lifts_add (.handler name (Name.last s.name) parent methods)
  cases parent with
  | none => exact rest
  | some r => exact (lifts_uses (.ref r)).bind fun _ => rest

end

omit held in
theorem useClass {name : String} (named : g.holds name) :
    Lifts g g' (Companion.useClass g name) (Companion.useClass g' name) := by
  rw [Companion.useClass, Companion.useClass, grown.classRef named]
  exact (lifts_ofExcept (kept_refl _)).bind fun _ => (lifts_uses _).bind fun _ => lifts_pure _

omit grown held in
theorem addFunctions (type : TypeHint) (strategy result : Expr) (param subject : String) :
    Lifts g g' (Companion.addFunctions type strategy result param subject)
      (Companion.addFunctions type strategy result param subject) :=
  (lifts_uses _).bind fun _ => (lifts_uses _).bind fun _ => (lifts_uses _).bind fun _ =>
    (lifts_add _).bind fun _ => (lifts_uses _).bind fun _ => lifts_add _

theorem recordFunctions {entity : Entity} (named : g.holds entity.name) :
    Lifts g g' (Companion.recordFunctions g entity) (Companion.recordFunctions g' entity) :=
  (useClass grown named).bind fun _ => (lifts_ofExcept (kept_refl _)).bind fun r =>
    (lifts_ofExcept (grown.generator held _ _ _)).bind fun _ =>
      (lifts_ofExcept (grown.applyDefaults held r)).bind fun _ => addFunctions _ _ _ _ _

theorem companion (name : String) {entity : Entity} (named : g.holds entity.name) :
    Kept (Companion.output g path name entity) (Companion.output g' path name entity) := by
  refine Lifts.run ?_ (Name.companion name) "test_data" .types path
  cases entity with
  | typedef t =>
    exact (lifts_annotate grown held t.type false).bind fun _ =>
      (lifts_ofExcept (grown.draw held t.type false)).bind fun _ => addFunctions _ _ _ _ _
  | enum e =>
    have named : g.holds e.name := by simpa only [Entity.name] using named
    exact (useClass grown named).bind fun _ => addFunctions _ _ _ _ _
  | _ => exact recordFunctions grown held named

end Group.Within

/-! ### Streams -/

namespace Stream

theorem kept_collect {before after : List (Except Fault Emission)}
    (each : List.Forall₂ Kept before after) : Kept (collect before) (collect after) := by
  induction each with
  | nil => exact kept_refl _
  | cons first rest ih =>
    rw [collect, collect, List.mapM_cons, List.mapM_cons]
    exact (first.bind fun _ _ => kept_refl _).bind fun _ _ => KeptBut.bind ih fun _ _ => kept_refl _

theorem forall₂_map_kept {α : Type} {items : List α} {f f' : α → Except Fault Emission}
    (each : ∀ a ∈ items, Kept (f a) (f' a)) :
    List.Forall₂ Kept (items.map f) (items.map f') := by
  rw [List.forall₂_map_left_iff, List.forall₂_map_right_iff, List.forall₂_same]
  exact each

section
variable (grown : g.Within g') (held : g.MentionsHeld) {entry : Value × Schema}
  (inGroup : entry ∈ g.schemas)
include grown held inGroup

theorem kept_recordEmission (path : Value) {r : Record}
    (declared : Entity.record r ∈ entry.2.entities) :
    Kept (recordEmission g path r) (recordEmission g' path r) := by
  have named : g.holds r.name := by
    simpa only [Entity.name] using Group.holds_of_entity held inGroup declared
  rw [recordEmission, recordEmission, grown.outputName named]
  exact (kept_refl _).bind fun _ _ => (grown.record held path _ _ r).bind fun _ _ => kept_refl _

theorem kept_enumEmission (path : Value) {e : Enum}
    (declared : Entity.enum e ∈ entry.2.entities) :
    Kept (enumEmission g path e) (enumEmission g' path e) := by
  have named : g.holds e.name := by
    simpa only [Entity.name] using Group.holds_of_entity held inGroup declared
  rw [enumEmission, enumEmission, grown.outputName named]
  exact (kept_refl _).bind fun name _ =>
    (Group.Within.enumeration path name e).bind fun _ _ => kept_refl _

/-- Constants are written for a module that is present, since their names are about it. -/
theorem currentConstantsOutput_eq {c : Constant} (declared : c ∈ entry.2.constants.values)
    (own : g.owns c.name = .ok true) :
    g'.currentConstantsOutput = g.currentConstantsOutput := by
  have listed : Entity.constant c ∈ entry.2.entities := by simp [Schema.entities, declared]
  have named : g.holds c.name := by
    simpa only [Entity.name] using Group.holds_of_entity held inGroup listed
  obtain ⟨parts, split, own⟩ := bind_eq_ok.mp own
  have present : (g.schemaNamed? parts.1).isSome := by
    simpa [Group.holds, split, Except.toOption] using named
  cases seen : g.current with
  | none =>
    rw [seen] at own
    cases own
  | some current =>
    rw [seen] at own
    have same : current.same (.text parts.1) := by
      simp [Value.same, Except.ok.inj own]
    rw [Group.currentConstantsOutput, Group.currentConstantsOutput, grown.current, seen,
      Value.eq_text_of_same same]
    exact grown.constantsOutput present

theorem kept_constantEmissions :
    List.Forall₂ Kept (constantEmissions g entry.2) (constantEmissions g' entry.2) := by
  have same : ownConstants g' entry.2 = ownConstants g entry.2 := by
    simp only [ownConstants, Group.owns, grown.current]
  rw [constantEmissions, constantEmissions, same]
  cases known : ownConstants g entry.2 with
  | error fault => exact .cons (kept_refl _) .nil
  | ok cs =>
    cases cs with
    | nil => exact .nil
    | cons c rest =>
      obtain ⟨declared, own⟩ := (mem_ownConstants_iff known).mp (List.mem_cons_self ..)
      refine .cons ?_ .nil
      rw [currentConstantsOutput_eq grown held inGroup declared own]
      exact (kept_refl _).bind fun name _ =>
        (grown.constants held _ name _).bind fun _ _ => kept_refl _

theorem kept_mainEmissions :
    List.Forall₂ Kept (mainEmissions g entry.2) (mainEmissions g' entry.2) := by
  have enums := forall₂_map_kept fun e (member : e ∈ entry.2.enums.values) =>
    kept_enumEmission grown held inGroup entry.2.path
      (by simp [Schema.entities, member] : Entity.enum e ∈ entry.2.entities)
  have records {rs : Table Record}
      (listed : ∀ r ∈ rs.values, Entity.record r ∈ entry.2.entities) :=
    forall₂_map_kept fun r member =>
      kept_recordEmission grown held inGroup entry.2.path (listed r member)
  have services := forall₂_map_kept fun s (member : s ∈ entry.2.services.values) =>
    (grown.service held entry.2.path inGroup member).bind fun o _ =>
      kept_refl (pure { name := o.name, output := o : Emission })
  have handlers := forall₂_map_kept fun s (member : s ∈ entry.2.services.values) =>
    (grown.handler held entry.2.path inGroup member).bind fun o _ =>
      kept_refl (pure { name := o.name, output := o : Emission })
  refine List.rel_append (List.rel_append (List.rel_append (List.rel_append (List.rel_append
    (List.rel_append enums (kept_constantEmissions grown held inGroup)) (records ?_)) (records ?_))
    (records ?_)) services) handlers
  all_goals
    intro r member
    simp [Schema.entities, member]

theorem kept_companionEmissions (aliases : ∀ name ∈ entry.2.aliasNames, g.holds name) :
    List.Forall₂ Kept (companionEmissions g entry.2) (companionEmissions g' entry.2) := by
  have each (name : String) (entity : Entity) (listed : entity ∈ entry.2.entities)
      (named : g.holds name) :
      Kept (companionEmission g entry.2.path (g.outputName name) entity)
        (companionEmission g' entry.2.path (g'.outputName name) entity) := by
    rw [companionEmission, companionEmission, grown.outputName named]
    exact (kept_refl _).bind fun output _ =>
      (grown.companion held _ output (Group.holds_of_entity held inGroup listed)).bind
        fun _ _ => kept_refl _
  have declared {α : Type} {items : List α} (entity : α → Entity)
      (listed : ∀ a ∈ items, entity a ∈ entry.2.entities) :=
    forall₂_map_kept fun a (member : a ∈ items) =>
      each _ _ (listed a member) (Group.holds_of_entity held inGroup (listed a member))
  have listed (t : String × Typedef) (member : t ∈ entry.2.typedefs) :
      Entity.typedef t.2 ∈ entry.2.entities := by
    have known : t.2 ∈ entry.2.typedefs.values := List.mem_map_of_mem member
    simp [Schema.entities, known]
  have typedefs := forall₂_map_kept fun t (member : t ∈ entry.2.typedefs) =>
    each (entry.2.module.display ++ "." ++ Name.capitalize t.1) (.typedef t.2) (listed t member)
      (aliases _ (List.mem_map_of_mem member))
  refine List.rel_append (List.rel_append (List.rel_append (List.rel_append typedefs
    (declared .record ?_)) (declared .record ?_)) (declared .record ?_)) (declared .enum ?_)
  all_goals
    intro a member
    simp [Schema.entities, member]

end

theorem kept_ofSchema (grown : g.Within g') (held : g.MentionsHeld) (aliases : g.AliasNamesHeld)
    {entry : Value × Schema} (inGroup : entry ∈ g.schemas) :
    Kept (ofSchema g entry.2) (ofSchema g' entry.2) := by
  have seen := grown.seenFrom entry.2.module
  have heldSeen : (g.seenFrom entry.2.module).MentionsHeld := held
  refine (kept_collect (kept_mainEmissions seen heldSeen inGroup)).bind fun _ _ => ?_
  exact (kept_collect (kept_companionEmissions seen heldSeen inGroup (aliases entry inGroup))).bind
    fun _ _ => kept_refl _

end Stream

def Streams.append (first second : Streams) : Streams where
  main := first.main ++ second.main
  companions := first.companions ++ second.companions

namespace Stream

theorem ofGroup_eq_foldlM (g : Group) :
    ofGroup g =
      g.schemas.foldlM (fun streams entry => streams.append <$> ofSchema g entry.2) {} := rfl

/-- Adding a schema of a new module to a group changes nothing that is generated for the others:
    the streams are the earlier ones followed by those of the schema. -/
theorem ofGroup_add (s : Schema) (streams : Streams) (held : g.MentionsHeld)
    (aliases : g.AliasNamesHeld) (fresh : g.schema? s.module = none) (added : g.add s = .ok g')
    (generated : ofGroup g = .ok streams) :
    ofGroup g' = streams.append <$> ofSchema g' s := by
  have larger := Group.add_of_fresh fresh added
  have grown : g.Within g' := by
    rw [larger]
    exact ⟨rfl, List.prefix_append ..⟩
  rw [ofGroup_eq_foldlM] at generated ⊢
  have earlier := (KeptBut.foldlM (fun entry inGroup (streams : Streams) =>
    (kept_ofSchema grown held aliases inGroup).map streams.append) {}).ok generated
  have schemas : g'.schemas = g.schemas ++ [(s.module, s)] := by rw [larger]
  rw [schemas, List.foldlM_append, earlier]
  show streams.append <$> ofSchema g' s >>= pure = _
  exact bind_pure _

def giftSchema : Schema where
  module := .text "gift"
  scope := .text "party"
  includes := [.text "shop"]
  typedefs := [("bundle", { name := "gift.bundle", type := .list (.ref "shop.Item") })]

/-- Gifts are generated after all that was generated for the shop. -/
theorem shop_ofGroup_add :
    shopGroup.MentionsHeld ∧ shopGroup.AliasNamesHeld ∧
    shopGroup.schema? giftSchema.module = none ∧
    ∃ extended streams next, shopGroup.add giftSchema = .ok extended ∧
      ofGroup shopGroup = .ok streams ∧ ofSchema extended giftSchema = .ok next ∧
      next.companions.map (·.1) = ["Party.BundleTestData"] ∧
      ofGroup extended = .ok (streams.append next) := by
  have held : shopGroup.MentionsHeld := by decide +kernel
  have aliases : shopGroup.AliasNamesHeld := by decide +kernel
  have fresh : shopGroup.schema? giftSchema.module = none := by decide +kernel
  have returns : ((shopGroup.add giftSchema).toOption.any fun extended =>
      (ofSchema extended giftSchema).toOption.any fun next =>
        next.companions.map (·.1) == ["Party.BundleTestData"]) = true := by
    decide +kernel
  have generates : (ofGroup shopGroup).toOption.isSome := by decide +kernel
  obtain ⟨extended, added, returns⟩ := (Option.any_eq_true ..).mp returns
  obtain ⟨next, made, companions⟩ := (Option.any_eq_true ..).mp returns
  obtain ⟨streams, generated⟩ := isSome_toOption.mp generates
  have appended := ofGroup_add giftSchema streams held aliases fresh (toOption_eq_some.mp added)
    generated
  rw [toOption_eq_some.mp made] at appended
  exact ⟨held, aliases, fresh, extended, streams, next, toOption_eq_some.mp added, generated,
    toOption_eq_some.mp made, eq_of_beq companions, appended⟩

/-- A module with a dotted name, and an alias that is declared under a qualified key. -/
def partGroup : Group where
  schemas := [
    (.text "car.parts", {
      module := .text "car.parts", includes := [.text "unit"]
      typedefs := [("unit.Size", { name := "unit.Size", type := .primitive .i32 })] }),
    (.text "unit", { module := .text "unit" })]

/-- A module that no name of the parts is about, but that their companion is named after. -/
def carSchema : Schema where
  module := .text "car"
  scope := .text "motor"

/-- All modules that declarations of the parts are about are present, and still the companion of
    their alias moves to the namespace of a module that is added. -/
theorem alias_companion_moves :
    partGroup.MentionsHeld ∧ partGroup.schema? carSchema.module = none ∧
    ∃ extended streams both, partGroup.add carSchema = .ok extended ∧
      ofGroup partGroup = .ok streams ∧ ofGroup extended = .ok both ∧
      streams.companions.map (·.1) = ["Parts.Unit.sizeTestData"] ∧
      both.companions.map (·.1) = ["Motor.Parts.Unit.sizeTestData"] := by
  have held : partGroup.MentionsHeld := by decide +kernel
  have fresh : partGroup.schema? carSchema.module = none := by decide +kernel
  have before : ((ofGroup partGroup).toOption.any fun streams =>
      streams.companions.map (·.1) == ["Parts.Unit.sizeTestData"]) = true := by
    decide +kernel
  have after : ((partGroup.add carSchema).toOption.any fun extended =>
      (ofGroup extended).toOption.any fun both =>
        both.companions.map (·.1) == ["Motor.Parts.Unit.sizeTestData"]) = true := by
    decide +kernel
  obtain ⟨streams, generated, first⟩ := (Option.any_eq_true ..).mp before
  obtain ⟨extended, added, after⟩ := (Option.any_eq_true ..).mp after
  obtain ⟨both, regenerated, second⟩ := (Option.any_eq_true ..).mp after
  exact ⟨held, fresh, extended, streams, both, toOption_eq_some.mp added,
    toOption_eq_some.mp generated, toOption_eq_some.mp regenerated, eq_of_beq first,
    eq_of_beq second⟩

end Stream
end IdlGen
