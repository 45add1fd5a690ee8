import IdlGen.Proofs.Closure

/-!
Groups that grow. Whatever a group finds, a group with more schemas finds too; output names are
kept where the module that they are about is present (`Group.MentionsHeld`).
-/
namespace IdlGen

open Outcome

variable {entity : Entity} {g g' : Group} {type : FieldType}

/-! ### Names that schemas mention -/

theorem Name.dot_not_mem_of_split {name module rest : String}
    (done : split name = .ok (module, rest)) : '.' ∉ module.toList := by
  simp only [split] at done
  split at done
  · cases done
  · cases done
    simpa [Text.partition] using (Text.cutFirst_eq '.' name.toList).1

def Schema.entities (s : Schema) : List Entity :=
  s.typedefs.values.map .typedef ++ s.structs.values.map .record ++ s.unions.values.map .record ++
  s.exceptions.values.map .record ++ s.enums.values.map .enum ++
  s.constants.values.map .constant ++ s.services.values.map .service

/-- The names that a schema declares or extends. -/
def Schema.mentions (s : Schema) : List String :=
  s.entities.map Entity.name ++ s.services.values.filterMap (·.extends?)

def Schema.aliasNames (s : Schema) : List String :=
  s.typedefs.map fun entry => s.module.display ++ "." ++ Name.capitalize entry.1

theorem Schema.mem_entities_of_find? {s : Schema} {name : String}
    (found : s.find? name = some entity) : entity ∈ s.entities := by
  simp only [find?, Option.orElse_eq_orElse, Option.orElse_eq_or, Option.or_eq_some_iff,
    Option.map_eq_some_iff] at found
  have listed {α : Type} {table : Table α} {value : α} (kind : α → Entity)
      (known : table.get? name = some value) : kind value ∈ table.values.map kind :=
    List.mem_map_of_mem (Group.mem_values_of_get? known)
  simp only [entities, List.mem_append]
  rcases found with ⟨t, known, rfl⟩ | ⟨-, ⟨r, known, rfl⟩ | ⟨-, ⟨r, known, rfl⟩ | ⟨-,
    ⟨r, known, rfl⟩ | ⟨-, ⟨e, known, rfl⟩ | ⟨-, ⟨c, known, rfl⟩ | ⟨-, v, known, rfl⟩⟩⟩⟩⟩⟩
  all_goals simp only [listed _ known, true_or, or_true]

namespace Group

def holds (g : Group) (name : String) : Bool :=
  (Name.split name).toOption.all fun parts => (g.schemaNamed? parts.1).isSome

/-- The modules of all names that are mentioned are in the group. -/
def MentionsHeld (g : Group) : Prop := ∀ entry ∈ g.schemas, ∀ name ∈ entry.2.mentions, g.holds name

/-- The modules of all names that the companions of aliases are named after are present. -/
def AliasNamesHeld (g : Group) : Prop :=
  ∀ entry ∈ g.schemas, ∀ name ∈ entry.2.aliasNames, g.holds name

instance (g : Group) : Decidable g.MentionsHeld :=
  inferInstanceAs (Decidable (∀ entry ∈ g.schemas, ∀ name ∈ entry.2.mentions, _))

instance (g : Group) : Decidable g.AliasNamesHeld :=
  inferInstanceAs (Decidable (∀ entry ∈ g.schemas, ∀ name ∈ entry.2.aliasNames, _))

def Referent.name : Referent → String
  | .constant c => c.name
  | .member e _ => e.name

section
variable (held : g.MentionsHeld) {name : String} {resolved : Resolved}
include held

theorem holds_of_entity {entry : Value × Schema} (inGroup : entry ∈ g.schemas)
    (declared : entity ∈ entry.2.entities) : g.holds entity.name :=
  held entry inGroup _ (List.mem_append_left _ (List.mem_map_of_mem declared))

theorem holds_of_resolve (resolved : g.resolve name = .ok entity) :
    g.holds entity.name := by
  obtain ⟨-, rest, -, entry, member, -, found⟩ := resolve_eq_ok resolved
  exact holds_of_entity held member (Schema.mem_entities_of_find? found)

theorem holds_of_follow {fuel : Nat} {seen : List String}
    (follows : g.follow fuel seen type = .ok resolved) (named : resolved.name? = some name) :
    g.holds name := by
  induction fuel using Nat.strongRecOn generalizing seen type with
  | ind fuel ih =>
    cases type with
    | ref start =>
      rw [follow] at follows
      split at follows
      · cases follows
      · obtain ⟨entity, found, follows⟩ := bind_eq_ok.mp follows
        have declared := holds_of_resolve held found
        cases entity with
        | typedef t =>
          cases fuel with
          | zero => cases follows
          | succ less => exact ih less (Nat.lt_succ_self less) follows
        | _ =>
          cases follows
          cases named
          exact declared
    | _ =>
      rw [follow] at follows
      cases follows
      cases named

theorem holds_of_resolveType (resolves : g.resolveType type = .ok resolved)
    (named : resolved.name? = some name) : g.holds name :=
  holds_of_follow held resolves named

theorem holds_of_resolveValue {referent : Referent}
    (resolves : g.resolveValue name = .ok referent) : g.holds referent.name := by
  obtain ⟨constants, members⟩ := declared_of_resolveValue resolves
  cases referent with
  | constant c =>
    obtain ⟨entry, inGroup, inSchema⟩ := List.mem_flatMap.mp (constants c rfl)
    have declared : Entity.constant c ∈ entry.2.entities := by simp [Schema.entities, inSchema]
    simpa only [Entity.name, Referent.name] using holds_of_entity held inGroup declared
  | member e member =>
    obtain ⟨entry, inGroup, inSchema⟩ := List.mem_flatMap.mp (members e member rfl)
    have declared : Entity.enum e ∈ entry.2.entities := by simp [Schema.entities, inSchema]
    simpa only [Entity.name, Referent.name] using holds_of_entity held inGroup declared

end

/-- The second group has the schemas of the first and more, and is seen from the same module. -/
structure Within (g g' : Group) : Prop where
  current : g'.current = g.current
  schemas : g.schemas <+: g'.schemas

theorem add_of_fresh {s : Schema} (fresh : g.schema? s.module = none) (added : g.add s = .ok g') :
    g' = { g with schemas := g.schemas ++ [(s.module, s)] } := by
  rw [add, fresh] at added
  split at added
  · cases added
  · exact (Except.ok.inj added).symm

namespace Within

variable (grown : g.Within g') {name : String} {resolved : Resolved}

include grown

theorem seenFrom (module : Value) : (g.seenFrom module).Within (g'.seenFrom module) :=
  ⟨rfl, grown.schemas⟩

theorem schema? {module : Value} {s : Schema} (known : g.schema? module = some s) :
    g'.schema? module = some s := by
  obtain ⟨more, same⟩ := grown.schemas
  obtain ⟨entry, found, rfl⟩ := Option.map_eq_some_iff.mp known
  rw [Group.schema?, ← same, List.find?_append, found]
  rfl

theorem schemaNamed? {module : String} (known : (g.schemaNamed? module).isSome) :
    g'.schemaNamed? module = g.schemaNamed? module := by
  obtain ⟨s, found⟩ := Option.isSome_iff_exists.mp known
  rw [found]
  exact grown.schema? found

theorem aliases : g.aliases <+: g'.aliases := by
  obtain ⟨more, same⟩ := grown.schemas
  exact ⟨more.flatMap fun entry => entry.2.typedefs.values, by
    rw [Group.aliases, Group.aliases, ← same, List.flatMap_append]⟩

theorem aliasCount_le : g.aliasCount ≤ g'.aliasCount := grown.aliases.length_le

theorem aliasNodes_le : g.aliasNodes ≤ g'.aliasNodes := by
  obtain ⟨more, same⟩ := grown.aliases
  have counted : ∀ (ts : List Typedef) (start : Nat),
      start ≤ ts.foldl (fun nodes t => nodes + t.type.size) start := by
    intro ts
    induction ts with
    | nil => exact fun start => Nat.le_refl start
    | cons t rest ih => exact fun start => Nat.le_trans (Nat.le_add_right ..) (ih _)
  rw [Group.aliasNodes, Group.aliasNodes, ← same, List.foldl_append]
  exact counted more _

theorem recordCount_le : g.recordCount ≤ g'.recordCount := by
  obtain ⟨more, same⟩ := grown.schemas
  rw [Group.recordCount, Group.recordCount, Group.records, Group.records, ← same,
    List.flatMap_append, List.length_append]
  exact Nat.le_add_right ..

theorem resolve (name : String) : Kept (g.resolve name) (g'.resolve name) := by
  refine (kept_refl _).bind fun parts _ => kept_of_ok fun entity done => ?_
  dsimp only at done ⊢
  cases found : (g.schemaNamed? parts.1).bind (·.find? parts.2) with
  | none =>
    rw [found] at done
    cases done
  | some known =>
    rw [found] at done
    obtain ⟨s, present, inSchema⟩ := Option.bind_eq_some_iff.mp found
    rw [grown.schemaNamed? (Option.isSome_of_eq_some present), found]
    exact done

theorem follow {fuel more : Nat} (enough : fuel ≤ more) (seen : List String) (type : FieldType) :
    Kept (g.follow fuel seen type) (g'.follow more seen type) := by
  induction fuel using Nat.strongRecOn generalizing more seen type with
  | ind fuel ih =>
    cases type with
    | ref name =>
      rw [Group.follow, Group.follow]
      split
      · exact kept_refl _
      · refine (grown.resolve name).bind fun entity _ => ?_
        cases entity with
        | typedef t =>
          cases fuel with
          | zero => exact kept_fault trivial _
          | succ less =>
            obtain ⟨more, rfl⟩ : ∃ n, more = n + 1 := ⟨more - 1, by omega⟩
            exact ih less (Nat.lt_succ_self less) (by omega) _ _
        | _ => exact kept_refl _
    | _ =>
      rw [Group.follow, Group.follow]
      exact kept_refl _

theorem resolveType (type : FieldType) : Kept (g.resolveType type) (g'.resolveType type) :=
  grown.follow (Nat.succ_le_succ grown.aliasCount_le) [] type

theorem resolveType? (type : Option FieldType) :
    Kept (g.resolveType? type) (g'.resolveType? type) := by
  cases type with
  | none => exact kept_refl _
  | some type => exact (grown.resolveType type).map some

theorem resolveValue (name : String) : Kept (g.resolveValue name) (g'.resolveValue name) := by
  refine (kept_refl _).bind fun parts split => ?_
  obtain ⟨module, rest⟩ := parts
  dsimp only
  by_cases present : (g.schemaNamed? module).isSome
  · rw [grown.schemaNamed? present]
    cases (g.schemaNamed? module).bind (·.constants.get? rest) with
    | some c => exact kept_refl _
    | none =>
      dsimp only
      split
      · exact kept_refl _
      · exact (grown.resolve _).bind fun _ _ => kept_refl _
  · -- A member of an enum is looked up in the same module, which is missing.
    refine kept_of_ok fun referent done => ?_
    rw [Option.not_isSome_iff_eq_none.mp present, Option.bind_none] at done
    dsimp only at done
    split at done
    · cases done
    · obtain ⟨entity, found, -⟩ := bind_eq_ok.mp done
      obtain ⟨parts, again, found⟩ := bind_eq_ok.mp found
      obtain rfl := Name.split_append_dot (Name.dot_not_mem_of_split split) again
      dsimp only at found
      rw [Option.not_isSome_iff_eq_none.mp present] at found
      cases found

theorem isHashable (type : FieldType) (frozen : Bool) :
    Kept (g.isHashable type frozen) (g'.isHashable type frozen) := by
  refine kept_hashableWithin trivial grown.resolveType ?_ [] frozen type
  have nodes := grown.aliasNodes_le
  have records := grown.recordCount_le
  rw [hashableFuel, hashableFuel]
  omega

theorem outputName (held : g.holds name) :
    g'.outputName name = g.outputName name := by
  rw [Group.outputName, Group.outputName]
  cases split : Name.split name with
  | error fault => rfl
  | ok parts =>
    have present : (g.schemaNamed? parts.1).isSome := by
      simpa [holds, split, Except.toOption] using held
    simp only [bind, Except.bind, grown.schemaNamed? present]

theorem classRef (held : g.holds name) : g'.classRef name = g.classRef name := by
  rw [Group.classRef, Group.classRef, grown.outputName held]

theorem handlerOutput (held : g.holds name) :
    Emit.handlerOutput g' name = Emit.handlerOutput g name := by
  rw [Emit.handlerOutput, Emit.handlerOutput, grown.outputName held]

theorem handlerRef (held : g.holds name) :
    Emit.handlerRef g' name = Emit.handlerRef g name := by
  rw [Emit.handlerRef, Emit.handlerRef, grown.handlerOutput held]

theorem constantsOutput {module : String} (present : (g.schemaNamed? module).isSome) :
    g'.constantsOutput (.text module) = g.constantsOutput (.text module) := by
  have same : g'.schema? (.text module) = g.schema? (.text module) := grown.schemaNamed? present
  rw [Group.constantsOutput, Group.constantsOutput, same]

theorem constantRef {c : Constant} (held : g.holds c.name) :
    g'.constantRef c = g.constantRef c := by
  rw [Group.constantRef, Group.constantRef]
  cases split : Name.split c.name with
  | error fault => rfl
  | ok parts =>
    have present : (g.schemaNamed? parts.1).isSome := by
      simpa [holds, split, Except.toOption] using held
    simp only [bind, Except.bind, grown.constantsOutput present]

variable (held : g.MentionsHeld)
include held

theorem referentRef (name : String) : Kept (g.referentRef name) (g'.referentRef name) := by
  refine (grown.resolveValue name).bind fun referent resolves => ?_
  have known := holds_of_resolveValue held resolves
  cases referent with
  | constant c =>
    dsimp only
    rw [grown.constantRef known]
    exact kept_refl _
  | member e member =>
    dsimp only [Referent.name] at known ⊢
    rw [grown.classRef known]
    exact kept_refl _

omit held in
theorem shapeOf (written : Bool) (resolved : Option Resolved) :
    Kept (g.shapeOf written resolved) (g'.shapeOf written resolved) := by
  cases resolved with
  | none => exact kept_refl _
  | some resolved =>
    cases resolved with
    | set element => exact (grown.isHashable element true).bind fun _ _ => kept_refl _
    | _ => exact kept_refl _

omit held in
theorem entryTypes (resolved : Option Resolved) :
    Kept (g.entryTypes resolved) (g'.entryTypes resolved) := by
  cases resolved with
  | none => exact kept_refl _
  | some resolved =>
    cases resolved with
    | map key value => exact (grown.isHashable key true).bind fun _ _ => kept_refl _
    | _ => exact kept_refl _

theorem classRef_of_resolveType? {type : Option FieldType}
    (resolves : g.resolveType? type = .ok (some resolved)) (named : resolved.name? = some name) :
    g'.classRef name = g.classRef name := by
  cases type with
  | none => cases resolves
  | some type =>
    obtain ⟨known, resolves, same⟩ := map_eq_ok.mp resolves
    cases same
    exact grown.classRef (holds_of_resolveType held resolves named)

set_option linter.unusedSectionVars false in
mutual

theorem literalExpr (v : Value) (type : Option FieldType) (frozen : Bool) :
    Kept (g.literalExpr v type frozen) (g'.literalExpr v type frozen) := by
  cases v with
  | ref name =>
    rw [Group.literalExpr, Group.literalExpr]
    exact (grown.referentRef held name).map Expr.ref
  | dict entries =>
    rw [Group.literalExpr, Group.literalExpr]
    refine (grown.resolveType? type).bind fun resolved resolves => ?_
    have asEntries : Kept
        (do
          let (keyType, valueType, hashes) ← g.entryTypes resolved
          let pairs ← g.literalEntries keyType valueType hashes frozen entries
          return entriesExpr frozen hashes pairs)
        (do
          let (keyType, valueType, hashes) ← g'.entryTypes resolved
          let pairs ← g'.literalEntries keyType valueType hashes frozen entries
          return entriesExpr frozen hashes pairs) :=
      (grown.entryTypes resolved).bind fun types _ =>
        (literalEntries entries types.1 types.2.1 types.2.2 frozen).bind fun _ _ => kept_refl _
    cases resolved with
    | none => exact asEntries
    | some resolved =>
      cases resolved with
      | record r =>
        refine (literalFields entries r.fields).bind fun kwargs _ => ?_
        rw [grown.classRef_of_resolveType? held resolves rfl]
        exact kept_refl _
      | _ => exact asEntries
  | list items | tuple items | set items | frozenset items =>
    rw [Group.literalExpr, Group.literalExpr]
    refine (grown.resolveType? type).bind fun resolved _ => ?_
    refine (grown.shapeOf _ resolved).bind fun shape _ => ?_
    exact (literalItems items shape.element _).bind fun _ _ => kept_refl _
  | int n =>
    rw [Group.literalExpr, Group.literalExpr]
    refine (grown.resolveType? type).bind fun resolved resolves => ?_
    cases resolved with
    | none => exact kept_refl _
    | some resolved =>
      cases resolved with
      | enum e =>
        dsimp only
        rw [grown.classRef_of_resolveType? held resolves rfl]
        exact kept_refl _
      | _ => exact kept_refl _
  | _ =>
    simp only [Group.literalExpr]
    exact (grown.resolveType? type).bind fun _ _ => kept_refl _

theorem literalItems (items : List Value) (type : Option FieldType) (frozen : Bool) :
    Kept (g.literalItems type frozen items) (g'.literalItems type frozen items) := by
  cases items with
  | nil =>
    rw [Group.literalItems, Group.literalItems]
    exact kept_refl _
  | cons v rest =>
    rw [Group.literalItems, Group.literalItems]
    exact (literalExpr v type frozen).bind fun _ _ =>
      (literalItems rest type frozen).bind fun _ _ => kept_refl _

theorem literalEntries (entries : List (Value × Value)) (keyType valueType : Option FieldType)
    (hashes frozen : Bool) :
    Kept (g.literalEntries keyType valueType hashes frozen entries)
      (g'.literalEntries keyType valueType hashes frozen entries) := by
  match entries with
  | [] =>
    rw [Group.literalEntries, Group.literalEntries]
    exact kept_refl _
  | (k, v) :: rest =>
    rw [Group.literalEntries, Group.literalEntries]
    exact (literalExpr k keyType hashes).bind fun _ _ =>
      (literalExpr v valueType frozen).bind fun _ _ =>
        (literalEntries rest keyType valueType hashes frozen).bind fun _ _ => kept_refl _

theorem literalFields (entries : List (Value × Value)) (fields : List Field) :
    Kept (g.literalFields fields entries) (g'.literalFields fields entries) := by
  match entries with
  | [] =>
    rw [Group.literalFields, Group.literalFields]
    exact kept_refl _
  | (k, v) :: rest =>
    rw [Group.literalFields, Group.literalFields]
    exact (literalExpr v (fieldType? fields k) false).bind fun _ _ =>
      (literalFields rest fields).bind fun _ _ => kept_refl _

end

omit held in
theorem typeFuel_le (type : FieldType) : g.typeFuel type ≤ g'.typeFuel type := by
  have nodes := grown.aliasNodes_le
  rw [typeFuel, typeFuel]
  omega

theorem outputName_of_resolveType (type : FieldType) (resolved : Resolved) (name : String)
    (resolves : g.resolveType type = .ok resolved) (named : resolved.name? = some name) :
    g'.outputName name = g.outputName name :=
  grown.outputName (holds_of_resolveType held resolves named)

theorem hint (type : FieldType) (frozen : Bool) :
    Trail.KeptBut (fun _ => True) (g.hint type frozen) (g'.hint type frozen) :=
  kept_hintWithin trivial grown.resolveType (grown.isHashable · true)
    (grown.outputName_of_resolveType held) (grown.typeFuel_le type) type frozen

theorem draw (type : FieldType) (frozen : Bool) :
    Kept (g.draw type frozen) (g'.draw type frozen) :=
  kept_drawWithin trivial grown.resolveType (grown.isHashable · true)
    (grown.outputName_of_resolveType held) (grown.typeFuel_le type) type frozen

end Within
end Group
end IdlGen
