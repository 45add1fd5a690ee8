import IdlGen.Proofs.TypeFuel
import Mathlib.Logic.Relation

/-!
Hashable types by what they reach (`ReachesPlain`). The search takes the records that it is inside
of to be hashable; one that takes nothing for granted has the same answer
(`isHashable_iff_reachesPlain`).
-/
namespace IdlGen.Group

open Outcome Relation

variable {b : Bool} {seen : List String} {part inner : FieldType} {r last other : Record}

/-- A primitive, an enum, or a record that is no exception. -/
def Resolved.IsPlain : Resolved → Prop
  | .primitive _ => True
  | .enum _ => True
  | .record r => r.kind ≠ .exception
  | _ => False

/-- A type, and what containers in it hold at any depth. -/
inductive Expands (g : Group) (type : FieldType) : FieldType → Prop where
  | self : Expands g type type
  | held {node part : FieldType} {resolved : Resolved} (expanded : Expands g type node)
      (resolves : g.resolveType node = .ok resolved) (member : part ∈ resolved.held) :
      Expands g type part

/-- The first record has a field of the second, which is no exception. -/
def Leads (g : Group) (r other : Record) : Prop :=
  other.kind ≠ .exception ∧ ∃ f ∈ r.fields, g.resolveType f.type = .ok (.record other)

/-- Every field of a record is of a plain type. -/
def PlainFields (g : Group) (r : Record) : Prop :=
  ∀ f ∈ r.fields, ∃ resolved, g.resolveType f.type = .ok resolved ∧ resolved.IsPlain

/-- The containers of a type are frozen, its leaves are primitives, enums, structs and unions, and
    all structs and unions that these lead to have plain fields. -/
structure ReachesPlain (g : Group) (frozen : Bool) (type : FieldType) : Prop where
  containers : frozen = true ∨ ∀ part resolved, g.Expands type part →
    g.resolveType part = .ok resolved → resolved.container? = none
  leaves : ∀ part, g.Expands type part → ∃ resolved, g.resolveType part = .ok resolved ∧
    (resolved.container? = none → resolved.IsPlain)
  records : ∀ part r other, g.Expands type part → g.resolveType part = .ok (.record r) →
    ReflTransGen g.Leads r other → g.PlainFields other

/-- No two records have one name. -/
def RecordsByName (g : Group) : Prop :=
  ∀ r ∈ g.records, ∀ other ∈ g.records, r.name = other.name → r = other

theorem recordsByName_of_nodup {g : Group} (distinct : (g.records.map (·.name)).Nodup) :
    g.RecordsByName := fun _ known _ other same =>
  List.inj_on_of_nodup_map distinct known other same

def UncutReason (S : Bool → FieldType → Prop) (frozen : Bool) : Resolved → Prop
  | .primitive _ => True
  | .enum _ => True
  | .list element => frozen ∧ S frozen element
  | .set element => frozen ∧ S frozen element
  | .map key value => frozen ∧ S frozen key ∧ S frozen value
  | .record r => r.kind ≠ .exception ∧ ∀ f ∈ r.fields, S false f.type
  | .constant _ => False
  | .service _ => False

/-- All members of a relation have a reason in it to be hashable. -/
def UncutClosed (g : Group) (S : Bool → FieldType → Prop) : Prop :=
  ∀ frozen type, S frozen type →
    ∃ resolved, g.resolveType type = .ok resolved ∧ UncutReason S frozen resolved

/-- No level of a search that enters every record again finds a reason against a type. -/
def HashesUncut (g : Group) (frozen : Bool) (type : FieldType) : Prop :=
  ∃ S, g.UncutClosed S ∧ S frozen type

variable {g : Group} {type : FieldType} {frozen : Bool}

theorem allYes_of_yes {α : Type} {ask : α → Except Fault Bool} {items : List α}
    (each : ∀ a ∈ items, ∀ b, ask a = .ok b → b = true) (answered : allYes ask items = .ok b) :
    b = true := by
  induction items generalizing b with
  | nil =>
    cases answered
    rfl
  | cons item rest ih =>
    obtain ⟨first, later⟩ := List.forall_mem_cons.mp each
    obtain ⟨yes, firstAnswer, answered⟩ := bind_eq_ok.mp answered
    rw [first yes firstAnswer] at answered
    exact ih later answered

theorem UncutClosed.answer {S : Bool → FieldType → Prop} (closed : g.UncutClosed S) {fuel : Nat}
    (holds : S frozen type) (answered : g.hashableWithin fuel seen frozen type = .ok b) :
    b = true := by
  induction fuel generalizing seen frozen type b with
  | zero => cases answered
  | succ fuel ih =>
    obtain ⟨resolved, resolves, reason⟩ := closed frozen type holds
    rw [hashableWithin_succ, resolves] at answered
    replace answered : hashableStep (g.hashableWithin fuel) seen frozen resolved = .ok b := answered
    cases resolved with
    | primitive p | enum e =>
      cases answered
      rfl
    | list element | set element =>
      obtain ⟨rfl, inner⟩ := reason
      exact ih inner answered
    | map key value =>
      obtain ⟨rfl, keys, values⟩ := reason
      obtain ⟨yes, keyAnswer, answered⟩ := bind_eq_ok.mp answered
      rw [ih keys keyAnswer] at answered
      exact ih values answered
    | record r =>
      obtain ⟨plain, fields⟩ := reason
      rw [hashableStep, if_neg plain] at answered
      by_cases entered : seen.contains r.name
      · rw [if_pos entered] at answered
        cases answered
        rfl
      · rw [if_neg entered] at answered
        exact allYes_of_yes (fun f member b once => ih (fields f member) once) answered
    | constant c => cases reason
    | service s => cases reason

variable {resolved : Resolved}

theorem Expands.trans {node : FieldType} (first : g.Expands type node)
    (second : g.Expands node part) : g.Expands type part := by
  induction second with
  | self => exact first
  | held _ resolves member ih => exact ih.held resolves member

theorem Expands.of_held (resolves : g.resolveType type = .ok resolved)
    (member : inner ∈ resolved.held) (expanded : g.Expands inner part) : g.Expands type part :=
  (Expands.self.held resolves member).trans expanded

theorem Resolved.IsPlain.held (plain : resolved.IsPlain) : resolved.held = [] := by
  cases resolved with
  | list | set | map => cases plain
  | _ => rfl

theorem Resolved.IsPlain.container (plain : resolved.IsPlain) : resolved.container? = none := by
  cases resolved with
  | list | set | map => cases plain
  | _ => rfl

theorem Expands.eq_of_plain (resolves : g.resolveType type = .ok resolved)
    (plain : resolved.IsPlain) (expanded : g.Expands type part) : part = type := by
  induction expanded with
  | self => rfl
  | held _ nodeResolves member ih =>
    subst ih
    cases resolves.symm.trans nodeResolves
    rw [plain.held] at member
    cases member

namespace ReachesPlain

variable {resolved : Resolved}

theorem held (reaches : g.ReachesPlain frozen type) (resolves : g.resolveType type = .ok resolved)
    (member : inner ∈ resolved.held) :
    g.ReachesPlain frozen inner where
  containers := reaches.containers.imp_right fun none part other expanded =>
    none part other (.of_held resolves member expanded)
  leaves part expanded := reaches.leaves part (.of_held resolves member expanded)
  records part r other expanded := reaches.records part r other (.of_held resolves member expanded)

theorem frozen_of_container {container : FieldType} (reaches : g.ReachesPlain frozen type)
    (resolves : g.resolveType type = .ok resolved) (is : resolved.container? = some container) :
    frozen = true := by
  rcases reaches.containers with yes | none
  · exact yes
  · cases (none type resolved .self resolves).symm.trans is

theorem field {f : Field} (reaches : g.ReachesPlain frozen type)
    (resolves : g.resolveType type = .ok (.record r)) (member : f ∈ r.fields) :
    g.ReachesPlain false f.type := by
  obtain ⟨resolved, fieldResolves, plain⟩ :=
    reaches.records type r r .self resolves .refl f member
  refine ⟨.inr fun part other expanded => ?_, fun part expanded => ?_,
    fun part first last expanded => ?_⟩
  all_goals cases Expands.eq_of_plain fieldResolves plain expanded
  · intro otherResolves
    cases fieldResolves.symm.trans otherResolves
    exact plain.container
  · exact ⟨resolved, fieldResolves, fun _ => plain⟩
  · intro firstResolves path
    cases fieldResolves.symm.trans firstResolves
    exact reaches.records type r last .self resolves (.head ⟨plain, f, member, firstResolves⟩ path)

theorem uncutClosed (g : Group) : g.UncutClosed g.ReachesPlain := by
  intro frozen type reaches
  obtain ⟨resolved, resolves, leaf⟩ := reaches.leaves type .self
  refine ⟨resolved, resolves, ?_⟩
  cases resolved with
  | primitive p => trivial
  | enum e => trivial
  | list element | set element =>
    exact ⟨reaches.frozen_of_container resolves rfl,
      reaches.held resolves (by simp [Resolved.held])⟩
  | map key value =>
    exact ⟨reaches.frozen_of_container resolves rfl,
      reaches.held resolves (by simp [Resolved.held]),
      reaches.held resolves (by simp [Resolved.held])⟩
  | record r => exact ⟨leaf rfl, fun f member => reaches.field resolves member⟩
  | constant c => exact leaf rfl
  | service s => exact leaf rfl

end ReachesPlain

def LeadsPast (g : Group) (seen : List String) (r other : Record) : Prop :=
  g.Leads r other ∧ other.name ∉ seen

theorem leadsPast_nil (g : Group) : g.LeadsPast [] = g.Leads := by
  funext r other
  simp [LeadsPast]

/-- A way from a record that comes back to it can be cut short: after its last visit it goes past
    the record. -/
theorem exists_leadsPast_cons
    (named : ∀ other, ReflTransGen (g.LeadsPast seen) r other → other.name = r.name → other = r)
    (path : ReflTransGen (g.LeadsPast seen) r last) :
    last = r ∨ ∃ next, g.LeadsPast seen r next ∧ next.name ≠ r.name ∧
      ReflTransGen (g.LeadsPast (r.name :: seen)) next last := by
  induction path with
  | refl => exact .inl rfl
  | @tail node last before step ih =>
    by_cases same : last.name = r.name
    · exact .inl (named last (before.tail step) same)
    · right
      rcases ih with rfl | ⟨next, first, away, rest⟩
      · exact ⟨last, step, same, .refl⟩
      · have past : g.LeadsPast (r.name :: seen) node last :=
          ⟨step.1, by simpa [same] using step.2⟩
        exact ⟨next, first, away, rest.tail past⟩

theorem Leads.declared (leads : g.Leads r other) : other ∈ g.records := by
  obtain ⟨-, f, -, resolves⟩ := leads
  exact declared_of_resolveType resolves

theorem declared_of_leadsPast (declared : r ∈ g.records)
    (path : ReflTransGen (g.LeadsPast seen) r other) : other ∈ g.records := by
  cases path with
  | refl => exact declared
  | tail _ step => exact step.1.declared

namespace Hashes

theorem resolves (hashes : Hashes g seen frozen type) :
    ∃ resolved, g.resolveType type = .ok resolved := by
  obtain ⟨fuel, answered⟩ := hashes
  cases fuel with
  | zero => cases answered
  | succ fuel =>
    rw [hashableWithin_succ] at answered
    obtain ⟨resolved, known, -⟩ := bind_eq_ok.mp answered
    exact ⟨resolved, known⟩

theorem isPlain (hashes : Hashes g seen false type) (resolves : g.resolveType type = .ok resolved) :
    resolved.IsPlain := by
  have reason := hashes.reason resolves
  cases resolved with
  | primitive p => trivial
  | enum e => trivial
  | list | set | map => cases reason.1
  | record r => exact reason.1
  | constant c => exact reason
  | service s => exact reason

/-- What the search finds for the fields of a record holds along every way past the records that
    it has seen. The induction is on the number of records that it has not. -/
theorem plainFields (named : g.RecordsByName) (declared : r ∈ g.records) (fresh : r.name ∉ seen)
    (fields : ∀ f ∈ r.fields, Hashes g (r.name :: seen) false f.type)
    (path : ReflTransGen (g.LeadsPast seen) r last) : g.PlainFields last := by
  induction few : g.unseen seen using Nat.strongRecOn generalizing seen r with
  | ind n ih =>
    subst few
    have back : ∀ other, ReflTransGen (g.LeadsPast seen) r other → other.name = r.name →
        other = r := fun other way same =>
      named other (declared_of_leadsPast declared way) r declared same
    rcases exists_leadsPast_cons back path with rfl | ⟨next, ⟨leads, past⟩, away, rest⟩
    · intro f member
      obtain ⟨resolved, resolves⟩ := (fields f member).resolves
      exact ⟨resolved, resolves, (fields f member).isPlain resolves⟩
    · obtain ⟨plain, f, member, resolves⟩ := leads
      have nextFresh : next.name ∉ r.name :: seen := by simp [away, past]
      have reason := (fields f member).reason resolves
      have below := reason.2.resolve_left nextFresh
      exact ih _ (unseen_lt declared fresh) (declared_of_resolveType resolves) nextFresh below rest
        rfl

theorem expands (hashes : Hashes g seen frozen type) (expanded : g.Expands type part) :
    Hashes g seen frozen part := by
  induction expanded with
  | self => exact hashes
  | @held node part resolved _ resolves member ih =>
    have reason := ih.reason resolves
    cases resolved with
    | list element | set element =>
      cases List.mem_singleton.mp member
      exact reason.2
    | map key value =>
      rcases List.mem_pair.mp member with rfl | rfl
      · exact reason.2.1
      · exact reason.2.2
    | _ => cases member

theorem reachesPlain (named : g.RecordsByName) (hashes : Hashes g [] frozen type) :
    g.ReachesPlain frozen type where
  containers := by
    cases frozen with
    | true => exact .inl rfl
    | false =>
      exact .inr fun part resolved expanded resolves =>
        ((hashes.expands expanded).isPlain resolves).container
  leaves part expanded := by
    obtain ⟨resolved, resolves⟩ := (hashes.expands expanded).resolves
    have reason := (hashes.expands expanded).reason resolves
    refine ⟨resolved, resolves, fun leaf => ?_⟩
    cases resolved with
    | primitive p => trivial
    | enum e => trivial
    | list | set | map => cases leaf
    | record r => exact reason.1
    | constant c => exact reason
    | service s => exact reason
  records part r other expanded resolves path := by
    have reason := (hashes.expands expanded).reason resolves
    have fields := reason.2.resolve_left List.not_mem_nil
    rw [← leadsPast_nil] at path
    exact plainFields named (declared_of_resolveType resolves) List.not_mem_nil fields path

end Hashes

/-- Where declarations of records are told apart by their names, the search for hashable types says
    yes exactly to the types that reach nothing but plain data, and so does a search that is
    not cut at the records that it is inside of. -/
theorem isHashable_iff_reachesPlain (g : Group) (type : FieldType) (frozen b : Bool)
    (named : g.RecordsByName) (answered : g.isHashable type frozen = .ok b) :
    (b = true ↔ g.ReachesPlain frozen type) ∧ (b = true ↔ g.HashesUncut frozen type) := by
  have reaches (yes : b = true) : g.ReachesPlain frozen type :=
    Hashes.reachesPlain named ⟨_, yes ▸ answered⟩
  have uncut (reaches : g.ReachesPlain frozen type) : g.HashesUncut frozen type :=
    ⟨_, ReachesPlain.uncutClosed g, reaches⟩
  have yes : g.HashesUncut frozen type → b = true := fun ⟨_, closed, holds⟩ =>
    closed.answer holds answered
  exact ⟨⟨reaches, yes ∘ uncut⟩, ⟨uncut ∘ reaches, yes⟩⟩

/-- A struct and a union that hold each other, a struct that holds a list besides, and an alias of
    lists of the first. -/
def ringGroup : Group where
  schemas := [(.text "m", {
    module := .text "m"
    structs := [
      ("Node", {
        kind := .struct, name := "m.Node"
        fields := [{ name := .text "twin", type := .ref "m.Twin" }] }),
      ("Bag", {
        kind := .struct, name := "m.Bag"
        fields := [
          { name := .text "node", type := .ref "m.Node" },
          { name := .text "tags", type := .list (.primitive .string) }] })]
    unions := [("Twin", {
      kind := .union, name := "m.Twin"
      fields := [
        { name := .text "node", type := .ref "m.Node" },
        { name := .text "id", type := .primitive .i32 }] })]
    typedefs := [("Way", { name := "m.Way", type := .list (.ref "m.Node") })] })]

theorem ring_isHashable_iff_reachesPlain :
    ringGroup.RecordsByName ∧
      ringGroup.isHashable (.ref "m.Way") true = .ok true ∧
      ringGroup.ReachesPlain true (.ref "m.Way") ∧ ringGroup.HashesUncut true (.ref "m.Way") ∧
      ringGroup.isHashable (.list (.ref "m.Bag")) true = .ok false ∧
      ¬ ringGroup.ReachesPlain true (.list (.ref "m.Bag")) ∧
      ¬ ringGroup.HashesUncut true (.list (.ref "m.Bag")) := by
  have named : ringGroup.RecordsByName := recordsByName_of_nodup (by decide +kernel)
  have yes : ringGroup.isHashable (.ref "m.Way") true = .ok true :=
    toOption_eq_some.mp (by decide +kernel)
  have no : ringGroup.isHashable (.list (.ref "m.Bag")) true = .ok false :=
    toOption_eq_some.mp (by decide +kernel)
  obtain ⟨reaches, uncut⟩ := isHashable_iff_reachesPlain ringGroup _ true true named yes
  obtain ⟨notReaches, notUncut⟩ := isHashable_iff_reachesPlain ringGroup _ true false named no
  exact ⟨named, yes, reaches.mp rfl, uncut.mp rfl, no,
    fun holds => Bool.false_ne_true (notReaches.mpr holds),
    fun holds => Bool.false_ne_true (notUncut.mpr holds)⟩

end IdlGen.Group
