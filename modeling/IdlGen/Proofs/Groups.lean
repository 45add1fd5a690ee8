import IdlGen.Draw
import IdlGen.Proofs.Outcomes
import IdlGen.Proofs.Tables

/-!
Groups by what they declare. Resolution and draws do not depend on the module that a group is seen
from, and the search for hashable types gives one answer however much fuel it has
(`Hashes.answer`).
-/
namespace IdlGen.Group

open Outcome

variable {b : Bool} {r : Record} {e : Enum} {t : Typedef} {g : Group} {type : FieldType}

/-! ### Declarations -/

def enums (g : Group) : List Enum := g.schemas.flatMap fun entry => entry.2.enums.values

def Declared (g : Group) : Resolved → Prop
  | .record r => r ∈ g.records
  | .enum e => e ∈ g.enums
  | _ => True

variable {α : Type} {s : Schema} {name : String} {fuel : Nat} {seen : List String}
  {resolved : Resolved} {first second : Except Fault Bool} {g' : Group} {weak : Fault → Prop}

theorem mem_values_of_get? {table : Table α} {key : String} {value : α}
    (found : table.get? key = some value) : value ∈ table.values :=
  List.mem_map_of_mem (Table.mem_of_get? found)

theorem find?_record (found : s.find? name = some (.record r)) :
    r ∈ s.structs.values ++ s.unions.values ++ s.exceptions.values := by
  simp only [Schema.find?, Option.orElse_eq_orElse, Option.orElse_eq_or, Option.or_eq_some_iff,
    Option.map_eq_some_iff, reduceCtorEq, and_false, exists_false, false_or, or_false,
    Entity.record.injEq, exists_eq_right] at found
  obtain ⟨-, struct | ⟨-, union | ⟨-, exception⟩⟩⟩ := found
  · exact List.mem_append_left _ (List.mem_append_left _ (mem_values_of_get? struct))
  · exact List.mem_append_left _ (List.mem_append_right _ (mem_values_of_get? union))
  · exact List.mem_append_right _ (mem_values_of_get? exception)

theorem find?_enum (found : s.find? name = some (.enum e)) : e ∈ s.enums.values := by
  simp only [Schema.find?, Option.orElse_eq_orElse, Option.orElse_eq_or, Option.or_eq_some_iff,
    Option.map_eq_some_iff, reduceCtorEq, and_false, exists_false, false_or, or_false,
    Entity.enum.injEq, exists_eq_right] at found
  obtain ⟨-, -, -, -, enum⟩ := found
  exact mem_values_of_get? enum

theorem find?_typedef (found : s.find? name = some (.typedef t)) : s.typedefs.get? name = some t := by
  simp only [Schema.find?, Option.orElse_eq_orElse, Option.orElse_eq_or, Option.or_eq_some_iff,
    Option.map_eq_some_iff, reduceCtorEq, and_false, exists_false, or_false,
    Entity.typedef.injEq, exists_eq_right] at found
  exact found

theorem resolve_eq_ok {entity : Entity} (resolved : g.resolve name = .ok entity) :
    ∃ module rest, Name.split name = .ok (module, rest) ∧ ∃ entry ∈ g.schemas,
      entry.1.same (.text module) ∧ entry.2.find? rest = some entity := by
  rw [resolve] at resolved
  obtain ⟨⟨module, rest⟩, parts, resolved⟩ := bind_eq_ok.mp resolved
  dsimp only at resolved
  split at resolved
  · rename_i found
    cases resolved
    obtain ⟨s, known, inSchema⟩ := Option.bind_eq_some_iff.mp found
    obtain ⟨entry, entryFound, rfl⟩ := Option.map_eq_some_iff.mp known
    exact ⟨module, rest, parts, entry, List.mem_of_find?_eq_some entryFound,
      by simpa using List.find?_some entryFound, inSchema⟩
  · cases resolved

theorem mem_records_of_resolve (resolved : g.resolve name = .ok (.record r)) : r ∈ g.records := by
  obtain ⟨-, rest, -, entry, member, -, found⟩ := resolve_eq_ok resolved
  exact List.mem_flatMap.mpr ⟨entry, member, find?_record found⟩

theorem mem_enums_of_resolve (resolved : g.resolve name = .ok (.enum e)) : e ∈ g.enums := by
  obtain ⟨-, rest, -, entry, member, -, found⟩ := resolve_eq_ok resolved
  exact List.mem_flatMap.mpr ⟨entry, member, find?_enum found⟩

theorem mem_aliases_of_resolve (resolved : g.resolve name = .ok (.typedef t)) : t ∈ g.aliases := by
  obtain ⟨-, rest, -, entry, member, -, found⟩ := resolve_eq_ok resolved
  exact List.mem_flatMap.mpr ⟨entry, member, mem_values_of_get? (find?_typedef found)⟩

def Resolved.container? : Resolved → Option FieldType
  | .list element => some (.list element)
  | .set element => some (.set element)
  | .map key value => some (.map key value)
  | _ => none

theorem follow_ref (follows : g.follow fuel seen (.ref name) = .ok resolved) :
    g.Declared resolved ∧ resolved.container? = none ∨
      ∃ less, ∃ t ∈ g.aliases, fuel = less + 1 ∧
        g.follow less (name :: seen) t.type = .ok resolved := by
  rw [follow] at follows
  split at follows
  · cases follows
  · obtain ⟨entity, found, follows⟩ := bind_eq_ok.mp follows
    cases entity with
    | record r =>
      cases follows
      exact .inl ⟨mem_records_of_resolve found, rfl⟩
    | enum e =>
      cases follows
      exact .inl ⟨mem_enums_of_resolve found, rfl⟩
    | constant c | service s =>
      cases follows
      exact .inl ⟨trivial, rfl⟩
    | typedef t =>
      cases fuel with
      | zero => cases follows
      | succ less => exact .inr ⟨less, t, mem_aliases_of_resolve found, rfl, follows⟩

theorem declared_of_follow (follows : g.follow fuel seen type = .ok resolved) :
    g.Declared resolved := by
  induction fuel generalizing seen type with
  | zero =>
    cases type with
    | ref name =>
      rcases follow_ref follows with ⟨declared, -⟩ | ⟨less, t, -, impossible, -⟩
      · exact declared
      · cases impossible
    | _ =>
      cases follows
      trivial
  | succ fuel ih =>
    cases type with
    | ref name =>
      rcases follow_ref follows with ⟨declared, -⟩ | ⟨less, t, -, same, follows⟩
      · exact declared
      · cases same
        exact ih follows
    | _ =>
      cases follows
      trivial

theorem declared_of_resolveType (resolves : g.resolveType type = .ok resolved) :
    g.Declared resolved :=
  declared_of_follow resolves

section
variable (g : Group) (module : Value) (fuel : Nat) (seen : List String) (frozen : Bool)
  (type : FieldType)

theorem follow_seenFrom : (g.seenFrom module).follow fuel seen type = g.follow fuel seen type := by
  induction fuel generalizing seen type with
  | zero =>
    cases type with
    | ref name =>
      simp only [follow]
      rfl
    | _ => rfl
  | succ fuel ih =>
    cases type with
    | ref name =>
      simp only [follow, ih]
      rfl
    | _ => rfl

theorem resolveType_seenFrom : (g.seenFrom module).resolveType type = g.resolveType type :=
  follow_seenFrom g module _ [] type

theorem hashableWithin_seenFrom :
    (g.seenFrom module).hashableWithin fuel seen frozen type =
      g.hashableWithin fuel seen frozen type := by
  induction fuel generalizing seen frozen type with
  | zero => rfl
  | succ fuel ih => simp only [hashableWithin, resolveType_seenFrom, ih]

theorem isHashable_seenFrom :
    (g.seenFrom module).isHashable type frozen = g.isHashable type frozen :=
  hashableWithin_seenFrom g module _ [] frozen type

theorem drawWithin_seenFrom :
    (g.seenFrom module).drawWithin fuel type frozen = g.drawWithin fuel type frozen := by
  induction fuel generalizing type frozen with
  | zero => rfl
  | succ fuel ih =>
    simp only [drawWithin, resolveType_seenFrom, isHashable_seenFrom, ih]
    rfl

theorem draw_seenFrom : (g.seenFrom module).draw type frozen = g.draw type frozen :=
  drawWithin_seenFrom g module _ frozen type

end

def keysFrozen (g : Group) (frozen : Bool) (key : FieldType) : Except Fault Bool :=
  if frozen then .ok true else g.isHashable key true

theorem kept_andThen {first' second' : Except Fault Bool} (left : KeptBut weak first first')
    (right : KeptBut weak second second') :
    KeptBut weak (andThen first second) (andThen first' second') := by
  refine left.bind fun yes _ => ?_
  cases yes
  · exact kept_refl _
  · exact right

theorem andThen_eq_true (answered : andThen first second = .ok true) :
    first = .ok true ∧ second = .ok true := by
  obtain ⟨yes, firstAnswer, rest⟩ := bind_eq_ok.mp answered
  cases yes
  · cases rest
  · exact ⟨firstAnswer, rest⟩

theorem kept_allYes {ask ask' : α → Except Fault Bool} {items : List α}
    (each : ∀ a ∈ items, KeptBut weak (ask a) (ask' a)) :
    KeptBut weak (allYes ask items) (allYes ask' items) := by
  induction items with
  | nil => exact kept_refl _
  | cons item rest ih =>
    have ⟨first, later⟩ := List.forall_mem_cons.mp each
    exact kept_andThen first (ih later)

theorem allYes_eq_true {ask : α → Except Fault Bool} {items : List α}
    (answered : allYes ask items = .ok true) : ∀ a ∈ items, ask a = .ok true := by
  induction items with
  | nil => simp
  | cons item rest ih =>
    obtain ⟨first, later⟩ := andThen_eq_true answered
    simpa using ⟨first, ih later⟩

def hashableStep (ask : List String → Bool → FieldType → Except Fault Bool) (seen : List String)
    (frozen : Bool) : Resolved → Except Fault Bool
  | .primitive _ => .ok true
  | .enum _ => .ok true
  | .list element => if frozen then ask seen frozen element else .ok false
  | .set element => if frozen then ask seen frozen element else .ok false
  | .map key value =>
    if frozen then andThen (ask seen frozen key) (ask seen frozen value) else .ok false
  | .record r =>
    if r.kind = .exception then .ok false
    else if seen.contains r.name then .ok true
    else allYes (fun field => ask (r.name :: seen) false field.type) r.fields
  | .constant _ => .ok false
  | .service _ => .ok false

theorem hashableWithin_succ (g : Group) (fuel : Nat) (seen : List String) (frozen : Bool)
    (type : FieldType) :
    g.hashableWithin (fuel + 1) seen frozen type =
      g.resolveType type >>= hashableStep (g.hashableWithin fuel) seen frozen := by
  rw [hashableWithin]
  rfl

inductive Asks (seen : List String) : Bool → Resolved → List String → Bool → FieldType → Prop where
  | list {element : FieldType} : Asks seen true (.list element) seen true element
  | set {element : FieldType} : Asks seen true (.set element) seen true element
  | key {key value : FieldType} : Asks seen true (.map key value) seen true key
  | value {key value : FieldType} : Asks seen true (.map key value) seen true value
  | field {frozen : Bool} {r : Record} {field : Field} (plain : r.kind ≠ .exception)
      (fresh : r.name ∉ seen) (member : field ∈ r.fields) :
      Asks seen frozen (.record r) (r.name :: seen) false field.type

theorem kept_hashableStep {ask ask' : List String → Bool → FieldType → Except Fault Bool}
    {frozen : Bool} (below : ∀ seen' frozen' type, Asks seen frozen resolved seen' frozen' type →
      KeptBut weak (ask seen' frozen' type) (ask' seen' frozen' type)) :
    KeptBut weak (hashableStep ask seen frozen resolved)
      (hashableStep ask' seen frozen resolved) := by
  cases resolved with
  | list element =>
    cases frozen
    · exact kept_refl _
    · exact below _ _ _ .list
  | set element =>
    cases frozen
    · exact kept_refl _
    · exact below _ _ _ .set
  | map key value =>
    cases frozen
    · exact kept_refl _
    · exact kept_andThen (below _ _ _ .key) (below _ _ _ .value)
  | record r =>
    rw [hashableStep, hashableStep]
    split
    · exact kept_refl _
    · rename_i plain
      split
      · exact kept_refl _
      · rename_i entered
        have fresh : r.name ∉ seen := fun member => entered (List.contains_iff_mem.mpr member)
        exact kept_allYes fun field member => below _ _ _ (.field plain fresh member)
  | _ => exact kept_refl _

/-- More fuel, or a group that finds more, changes no answer but a fault that gives way, if a lack
    of fuel does. -/
theorem kept_hashableWithin (spent : weak .endlessType)
    (resolves : ∀ type, KeptBut weak (g.resolveType type) (g'.resolveType type)) {more : Nat}
    (enough : fuel ≤ more) (seen : List String) (frozen : Bool) (type : FieldType) :
    KeptBut weak (g.hashableWithin fuel seen frozen type)
      (g'.hashableWithin more seen frozen type) := by
  induction fuel generalizing more seen frozen type with
  | zero => exact kept_fault spent _
  | succ fuel ih =>
    obtain ⟨more, rfl⟩ : ∃ n, more = n + 1 := ⟨more - 1, by omega⟩
    rw [hashableWithin_succ, hashableWithin_succ]
    refine (resolves type).bind fun resolved _ => ?_
    exact kept_hashableStep fun seen frozen type _ => ih (by omega) seen frozen type

theorem hashableWithin_mono {more : Nat} {frozen : Bool} (enough : fuel ≤ more)
    (answered : g.hashableWithin fuel seen frozen type = .ok b) :
    g.hashableWithin more seen frozen type = .ok b := by
  have kept : Kept (g.hashableWithin fuel seen frozen type) _ :=
    kept_hashableWithin trivial (fun _ => kept_refl _) enough seen frozen type
  exact kept.ok answered

def Hashes (g : Group) (seen : List String) (frozen : Bool) (type : FieldType) : Prop :=
  ∃ fuel, g.hashableWithin fuel seen frozen type = .ok true

namespace Hashes

variable {seen : List String} {frozen : Bool}

theorem of_isHashable (answered : g.isHashable type frozen = .ok true) : Hashes g [] frozen type :=
  ⟨_, answered⟩

theorem answer (hashes : Hashes g [] frozen type) (answered : g.isHashable type frozen = .ok b) :
    b = true := by
  obtain ⟨fuel, yes⟩ := hashes
  have first := hashableWithin_mono (Nat.le_max_left fuel (g.hashableFuel type)) yes
  have second := hashableWithin_mono (Nat.le_max_right fuel (g.hashableFuel type)) answered
  rw [first] at second
  cases second
  rfl

def Reason (g : Group) (seen : List String) (frozen : Bool) : Resolved → Prop
  | .primitive _ => True
  | .enum _ => True
  | .list element => frozen ∧ Hashes g seen frozen element
  | .set element => frozen ∧ Hashes g seen frozen element
  | .map key value => frozen ∧ Hashes g seen frozen key ∧ Hashes g seen frozen value
  | .record r => r.kind ≠ .exception ∧
      (r.name ∈ seen ∨ ∀ field ∈ r.fields, Hashes g (r.name :: seen) false field.type)
  | .constant _ => False
  | .service _ => False

theorem reason (hashes : Hashes g seen frozen type) (resolves : g.resolveType type = .ok resolved) :
    Reason g seen frozen resolved := by
  obtain ⟨fuel, answered⟩ := hashes
  cases fuel with
  | zero => cases answered
  | succ fuel =>
    rw [hashableWithin_succ, resolves] at answered
    have answered : hashableStep (g.hashableWithin fuel) seen frozen resolved = .ok true := answered
    cases resolved with
    | primitive p => trivial
    | enum e => trivial
    | list element =>
      cases frozen
      · cases answered
      · exact ⟨rfl, fuel, answered⟩
    | set element =>
      cases frozen
      · cases answered
      · exact ⟨rfl, fuel, answered⟩
    | map key value =>
      cases frozen
      · cases answered
      · obtain ⟨first, second⟩ := andThen_eq_true answered
        exact ⟨rfl, ⟨fuel, first⟩, ⟨fuel, second⟩⟩
    | record r =>
      rw [hashableStep] at answered
      split at answered
      · cases answered
      · rename_i plain
        split at answered
        · rename_i entered
          exact ⟨plain, .inl (List.contains_iff_mem.mp entered)⟩
        · exact ⟨plain, .inr fun field member => ⟨fuel, allYes_eq_true answered field member⟩⟩
    | constant c => cases answered
    | service s => cases answered

end Hashes

end IdlGen.Group
