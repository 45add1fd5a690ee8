import IdlGen.Proofs.Literals
import IdlGen.Proofs.Paths
import Mathlib.Logic.Relation

/-!
Searches over types end. If no alias holds itself inside a container (`NoHoldingCycle`),
hashability, annotations and strategies have an outcome that is no lack of fuel and that more fuel
does not change (`searches_end`).
-/
namespace IdlGen

open Outcome Relation

/-! ### Outcomes that are no lack of fuel -/

section
variable {α β : Type}

/-- The search was not cut off. -/
def Ended (outcome : Except Fault α) : Prop := outcome ≠ .error .endlessType

theorem ended_ok (a : α) : Ended (.ok a) := by
  intro spent
  cases spent

theorem ended_error {fault : Fault} (other : fault ≠ .endlessType) :
    Ended (.error fault : Except Fault α) :=
  fun same => other (Except.error.inj same)

variable {first second : Except Fault α} {next : α → Except Fault β}

theorem Ended.bind (ended : Ended first) (rest : ∀ a, first = .ok a → Ended (next a)) :
    Ended (first >>= next) := by
  cases first with
  | error fault => exact fun same => ended (congrArg Except.error (Except.error.inj same))
  | ok a => exact rest a rfl

theorem Ended.map {f : α → β} (ended : Ended first) : Ended (f <$> first) := by
  cases first with
  | error fault => exact fun same => ended (congrArg Except.error (Except.error.inj same))
  | ok a => exact ended_ok (f a)

theorem Ended.strong (ended : Ended first) (fault : Fault) (failed : first = .error fault) :
    .endlessType ≠ fault := by
  rintro rfl
  exact ended failed

theorem Ended.kept (ended : Ended first) (kept : KeptBut (.endlessType = ·) first second) :
    Ended second := by
  rw [kept ended.strong]
  exact ended

end

theorem Name.eq_append_of_split {name module rest : String}
    (done : split name = .ok (module, rest)) : name = module ++ "." ++ rest := by
  have whole := (Text.cutFirst_eq '.' name.toList).2
  simp only [split] at done
  split at done
  · cases done
  · rename_i nonempty
    cases done
    cases after : (Text.cutFirst '.' name.toList).2 with
    | none =>
      have empty : (Text.partition '.' name).2 = "" := by simp [Text.partition, after]
      exact absurd empty nonempty
    | some chars =>
      rw [after] at whole
      apply String.toList_inj.mp
      simpa [Text.partition, after] using whole

theorem Name.ended_split (name : String) : Ended (split name) := by
  rw [split]
  split
  split
  · exact ended_error (by simp)
  · exact ended_ok _

namespace Group

variable {g : Group} {type : FieldType} {frozen : Bool}

theorem ended_resolve (g : Group) (name : String) : Ended (g.resolve name) := by
  refine (Name.ended_split name).bind fun parts _ => ?_
  dsimp only
  split
  · exact ended_ok _
  · exact ended_error (by simp)

theorem ended_follow (g : Group) (fuel : Nat) (seen : List String) (type : FieldType) :
    Ended (g.follow fuel seen type) := by
  induction fuel generalizing seen type with
  | zero =>
    cases type with
    | ref name =>
      rw [follow]
      split
      · exact ended_error (by simp)
      · refine (g.ended_resolve name).bind fun entity _ => ?_
        cases entity with
        | typedef t => exact ended_error (by simp)
        | _ => exact ended_ok _
    | _ => exact ended_ok _
  | succ fuel ih =>
    cases type with
    | ref name =>
      rw [follow]
      split
      · exact ended_error (by simp)
      · refine (g.ended_resolve name).bind fun entity _ => ?_
        cases entity with
        | typedef t => exact ih _ _
        | _ => exact ended_ok _
    | _ => exact ended_ok _

def qualifiedAliases (g : Group) : List String :=
  g.schemas.flatMap fun entry => entry.2.typedefs.map fun t => entry.1.display ++ "." ++ t.1

theorem length_qualifiedAliases (g : Group) : g.qualifiedAliases.length = g.aliasCount := by
  rw [qualifiedAliases, aliasCount, aliases, List.length_flatMap, List.length_flatMap]
  simp [Table.values]

theorem mem_qualifiedAliases {name : String} {t : Typedef}
    (resolved : g.resolve name = .ok (.typedef t)) : name ∈ g.qualifiedAliases := by
  obtain ⟨module, rest, parts, entry, member, same, found⟩ := resolve_eq_ok resolved
  refine List.mem_flatMap.mpr ⟨entry, member, ?_⟩
  refine List.mem_map.mpr ⟨(rest, t), Table.mem_of_get? (find?_typedef found), ?_⟩
  rw [Name.eq_append_of_split parts, Value.eq_text_of_same same]
  rfl

def unpassed (g : Group) (seen : List String) : Nat :=
  g.qualifiedAliases.countP fun name => !seen.contains name

variable {fuel more : Nat} {seen : List String} {a : String} {resolved : Resolved}
  {part node : FieldType} {first second : Except Fault Bool}
  {ask : List String → Bool → FieldType → Except Fault Bool}

/-- Every step passes another alias, so that the number of aliases is enough for every chain. -/
theorem follow_unpassed (enough : g.unpassed seen < fuel) (le : fuel ≤ more) :
    g.follow more seen type = g.follow fuel seen type := by
  induction fuel generalizing more seen type with
  | zero => omega
  | succ fuel ih =>
    obtain ⟨more, rfl⟩ : ∃ n, more = n + 1 := ⟨more - 1, by omega⟩
    cases type with
    | ref name =>
      rw [follow, follow]
      by_cases passed : seen.contains name
      · rw [if_pos passed, if_pos passed]
        rfl
      · rw [if_neg passed, if_neg passed]
        cases found : g.resolve name with
        | error fault => rfl
        | ok entity =>
          cases entity with
          | typedef t =>
            have fewer : g.unpassed (name :: seen) < g.unpassed seen :=
              countP_lt (by simp) (mem_qualifiedAliases found) (by simpa using passed) (by simp)
            exact ih (by omega) (by omega)
          | _ => rfl
    | _ => rfl

theorem follow_of_le (enough : g.aliasCount + 1 ≤ fuel) :
    g.follow fuel [] type = g.resolveType type := by
  refine follow_unpassed ?_ enough
  have few : g.unpassed [] ≤ g.qualifiedAliases.length := List.countP_le_length
  rw [length_qualifiedAliases] at few
  omega

/-! ### What aliases and types hold -/

/-- The other one occurs in what an alias stands for. -/
def AliasMentions (g : Group) (a b : String) : Prop :=
  ∃ t, g.resolve a = .ok (.typedef t) ∧ .ref b ∈ t.type.nodes

/-- An alias stands for a container with the other one in it. -/
def AliasHolds (g : Group) (a b : String) : Prop :=
  ∃ t, g.resolve a = .ok (.typedef t) ∧ .ref b ∈ t.type.nodes ∧ t.type ≠ .ref b

/-- No alias is mentioned by what it holds, through any aliases. -/
def NoHoldingCycle (g : Group) : Prop :=
  ∀ a b, g.AliasHolds a b → ¬ ReflTransGen g.AliasMentions b a

def Descends (g : Group) (a b : String) : Prop :=
  ∃ c d, ReflTransGen g.AliasMentions a c ∧ g.AliasHolds c d ∧ ReflTransGen g.AliasMentions d b

theorem AliasHolds.mentions {b : String} (holds : g.AliasHolds a b) : g.AliasMentions a b := by
  obtain ⟨t, known, mentioned, -⟩ := holds
  exact ⟨t, known, mentioned⟩

theorem Descends.trans {b c : String} (first : g.Descends a b) (second : g.Descends b c) :
    g.Descends a c := by
  obtain ⟨e, f, before, holds, after⟩ := first
  obtain ⟨e', f', before', holds', after'⟩ := second
  exact ⟨e, f, before, holds, (after.trans before').trans (.head holds'.mentions after')⟩

theorem NoHoldingCycle.not_descends (acyclic : g.NoHoldingCycle) (a : String) :
    ¬ g.Descends a a := by
  rintro ⟨c, d, before, holds, after⟩
  exact acyclic c d holds (after.trans before)

/-- A type is a container that holds the other type, once its aliases are followed. -/
def Holds (g : Group) (node part : FieldType) : Prop :=
  ∃ resolved, g.resolveType node = .ok resolved ∧ part ∈ resolved.held

/-- How a type can come to lie below another: inside of it, or inside of an alias that it
    mentions. -/
inductive Below (g : Group) (node part : FieldType) : Prop where
  | inside (smaller : part.size < node.size) (nodes : part.nodes ⊆ node.nodes)
  | through {a : String} (mentioned : .ref a ∈ node.nodes)
      (descends : ∀ b, .ref b ∈ part.nodes → g.Descends a b)

theorem Below.trans {first second third : FieldType} (upper : g.Below first second)
    (lower : g.Below second third) : g.Below first third := by
  cases upper with
  | inside smaller nodes =>
    cases lower with
    | inside smaller' nodes' => exact .inside (by omega) (List.Subset.trans nodes' nodes)
    | through mentioned descends => exact .through (nodes mentioned) descends
  | through mentioned descends =>
    cases lower with
    | inside smaller' nodes' => exact .through mentioned fun b known => descends b (nodes' known)
    | through mentioned' descends' =>
      exact .through mentioned fun b known => (descends _ mentioned').trans (descends' b known)

theorem NoHoldingCycle.not_below (acyclic : g.NoHoldingCycle) (node : FieldType) :
    ¬ g.Below node node := by
  intro below
  cases below with
  | inside smaller => omega
  | through mentioned descends => exact acyclic.not_descends _ (descends _ mentioned)

theorem below_of_held {container : FieldType} (is : resolved.container? = some container)
    (held : part ∈ resolved.held) : part.size < container.size ∧ part.nodes ⊆ container.nodes := by
  cases resolved with
  | list element | set element =>
    cases is
    cases List.mem_singleton.mp held
    exact ⟨by simp [FieldType.size], List.subset_cons_self _ _⟩
  | map key value =>
    cases is
    rcases List.mem_pair.mp held with rfl | rfl
    · exact ⟨by simp only [FieldType.size]; omega,
        List.subset_cons_of_subset _ (List.subset_append_left _ _)⟩
    · exact ⟨by simp only [FieldType.size]; omega,
        List.subset_cons_of_subset _ (List.subset_append_right _ _)⟩
  | _ => cases is

theorem descends_of_follow (follows : g.follow fuel seen (.ref a) = .ok resolved)
    (held : part ∈ resolved.held) : ∀ b, .ref b ∈ part.nodes → g.Descends a b := by
  induction fuel generalizing seen a with
  | zero =>
    rw [follow] at follows
    split at follows
    · cases follows
    · obtain ⟨entity, -, follows⟩ := bind_eq_ok.mp follows
      cases entity <;> cases follows <;> cases held
  | succ fuel ih =>
    rw [follow] at follows
    split at follows
    · cases follows
    · obtain ⟨entity, found, follows⟩ := bind_eq_ok.mp follows
      cases entity with
      | typedef t =>
        replace follows : g.follow fuel (a :: seen) t.type = .ok resolved := follows
        intro b mentioned
        -- The chain goes on from an alias of an alias, and ends in an alias of a container.
        have container (is : resolved.container? = some t.type) : g.Descends a b := by
          obtain ⟨smaller, nodes⟩ := below_of_held is held
          have away : t.type ≠ .ref b := by
            intro same
            rw [same] at is
            cases resolved <;> cases is
          exact ⟨a, b, .refl, ⟨t, found, nodes mentioned, away⟩, .refl⟩
        cases known : t.type with
        | ref next =>
          rw [known] at follows
          obtain ⟨c, d, before, holds, after⟩ := ih follows b mentioned
          exact ⟨c, d, .head ⟨t, found, by simp [known]⟩ before, holds, after⟩
        | primitive p =>
          rw [known, follow] at follows
          cases follows
          cases held
        | list element | set element | map key value =>
          rw [known, follow] at follows
          cases follows
          exact container (congrArg some known.symm)
      | _ =>
        cases follows
        cases held

theorem Holds.below (holds : g.Holds node part) : g.Below node part := by
  obtain ⟨resolved, resolves, held⟩ := holds
  cases node with
  | ref a => exact .through (FieldType.mem_nodes_self _) (descends_of_follow resolves held)
  | primitive p =>
    cases resolves
    cases held
  | list element | set element | map key value =>
    cases resolves
    obtain ⟨smaller, nodes⟩ := below_of_held rfl held
    exact .inside smaller nodes

theorem NoHoldingCycle.not_transGen (acyclic : g.NoHoldingCycle) (node : FieldType) :
    ¬ TransGen g.Holds node node := by
  have below {last : FieldType} (path : TransGen g.Holds node last) : g.Below node last := by
    induction path with
    | single holds => exact holds.below
    | tail _ holds ih => exact ih.trans holds.below
  exact fun path => acyclic.not_below node (below path)

open Classical in
noncomputable def depth (g : Group) (type node : FieldType) : Nat :=
  (g.nodes type).countP fun part => decide (TransGen g.Holds node part)

theorem depth_le (g : Group) (type node : FieldType) :
    g.depth type node ≤ type.size + g.aliasNodes := by
  rw [← g.length_nodes type]
  exact List.countP_le_length

theorem NoHoldingCycle.depth_lt (acyclic : g.NoHoldingCycle) (member : part ∈ g.nodes type)
    (holds : g.Holds node part) : g.depth type part < g.depth type node := by
  refine countP_lt (fun other _ => ?_) member ?_ ?_
  · simp only [decide_eq_true_eq]
    exact TransGen.head holds
  · simpa using TransGen.single holds
  · simpa using acyclic.not_transGen part

theorem ended_andThen (left : Ended first) (right : Ended second) :
    Ended (andThen first second) := by
  refine left.bind fun yes _ => ?_
  cases yes
  · exact ended_ok false
  · exact right

theorem ended_allYes {α : Type} {ask : α → Except Fault Bool} {items : List α}
    (each : ∀ a ∈ items, Ended (ask a)) : Ended (allYes ask items) := by
  induction items with
  | nil => exact ended_ok true
  | cons item rest ih =>
    obtain ⟨first, later⟩ := List.forall_mem_cons.mp each
    exact ended_andThen first (ih later)

theorem ended_hashableStep {ask : List String → Bool → FieldType → Except Fault Bool}
    {seen : List String} {resolved : Resolved}
    (below : ∀ seen' frozen' type, Asks seen frozen resolved seen' frozen' type →
      Ended (ask seen' frozen' type)) : Ended (hashableStep ask seen frozen resolved) := by
  cases resolved with
  | list element =>
    cases frozen
    · exact ended_ok false
    · exact below _ _ _ .list
  | set element =>
    cases frozen
    · exact ended_ok false
    · exact below _ _ _ .set
  | map key value =>
    cases frozen
    · exact ended_ok false
    · exact ended_andThen (below _ _ _ .key) (below _ _ _ .value)
  | record r =>
    rw [hashableStep]
    by_cases exception : r.kind = .exception
    · rw [if_pos exception]
      exact ended_ok false
    · rw [if_neg exception]
      by_cases entered : seen.contains r.name
      · rw [if_pos entered]
        exact ended_ok true
      · rw [if_neg entered]
        have fresh : r.name ∉ seen := fun member => entered (List.contains_iff_mem.mpr member)
        exact ended_allYes fun field member => below _ _ _ (.field exception fresh member)
  | _ => exact ended_ok _

theorem same_hashableWithin (le : fuel ≤ more) (seen : List String) (frozen : Bool)
    (type : FieldType) : KeptBut (.endlessType = ·) (g.hashableWithin fuel seen frozen type)
      (g.hashableWithin more seen frozen type) :=
  kept_hashableWithin rfl (fun _ => kept_refl _) le seen frozen type

/-- Fields are not frozen, so every level of the search among them enters another record. -/
theorem ended_hashableWithin_unseen (g : Group) (seen : List String) (type : FieldType) :
    Ended (g.hashableWithin (g.unseen seen + 1) seen false type) := by
  induction few : g.unseen seen using Nat.strongRecOn generalizing seen type with
  | ind n ih =>
    subst few
    rw [hashableWithin_succ]
    refine (g.ended_follow _ _ type).bind fun resolved resolves => ?_
    refine ended_hashableStep fun seen' frozen' type' asked => ?_
    cases asked with
    | field plain fresh member =>
      have fewer := unseen_lt (declared_of_resolveType resolves) fresh
      exact (ih _ fewer _ _ rfl).kept (same_hashableWithin fewer _ _ _)

theorem ended_scopePrefix (s : Option Schema) : Ended (scopePrefix s) := by
  rw [scopePrefix.eq_def]
  split
  · exact ended_ok _
  · split
    · exact ended_ok _
    · split
      · exact ended_ok _
      · exact ended_error (by simp)

theorem ended_outputName (g : Group) (name : String) : Ended (g.outputName name) := by
  refine (Name.ended_split name).bind fun parts _ => ?_
  exact (ended_scopePrefix _).bind fun scope _ => ended_ok _

theorem ended_classRef (g : Group) (name : String) : Ended (g.classRef name) :=
  (g.ended_outputName name).bind fun _ _ => ended_ok _

theorem ended_companionRef (g : Group) (name attr : String) : Ended (g.companionRef name attr) :=
  (g.ended_outputName name).bind fun _ _ => ended_ok _

theorem same_hintWithin (le : fuel ≤ more) (type : FieldType) (frozen : Bool) :
    Trail.KeptBut (.endlessType = ·) (g.hintWithin fuel type frozen)
      (g.hintWithin more type frozen) :=
  kept_hintWithin rfl (fun _ => kept_refl _) (fun _ => kept_refl _) (fun _ _ _ _ _ => rfl) le type
    frozen

theorem same_drawWithin (le : fuel ≤ more) (type : FieldType) (frozen : Bool) :
    KeptBut (.endlessType = ·) (g.drawWithin fuel type frozen) (g.drawWithin more type frozen) :=
  kept_drawWithin rfl (fun _ => kept_refl _) (fun _ => kept_refl _) (fun _ _ _ _ _ => rfl) le type
    frozen

namespace NoHoldingCycle

variable (acyclic : g.NoHoldingCycle)
include acyclic

theorem ended_hashableWithin (member : node ∈ g.nodes type) :
    Ended (g.hashableWithin (g.recordCount + 1 + g.depth type node + 1) [] true node) := by
  induction levels : g.depth type node using Nat.strongRecOn generalizing node with
  | ind n ih =>
    subst levels
    rw [hashableWithin_succ]
    refine (g.ended_follow _ _ node).bind fun resolved resolves => ?_
    refine ended_hashableStep fun seen' frozen' part asked => ?_
    have lower (held : part ∈ resolved.held) :
        Ended (g.hashableWithin (g.recordCount + 1 + g.depth type node) [] true part) := by
      have inside := mem_nodes_of_held member resolves held
      have below := acyclic.depth_lt inside ⟨resolved, resolves, held⟩
      exact (ih _ below inside rfl).kept (same_hashableWithin (by omega) _ _ _)
    cases asked with
    | list | set | key | value => exact lower (by simp [Resolved.held])
    | @field _ r f plain fresh known =>
      have few := g.unseen_le [r.name]
      exact (g.ended_hashableWithin_unseen _ _).kept (same_hashableWithin (by omega) _ _ _)

theorem ended_isHashable (type : FieldType) (frozen : Bool) : Ended (g.isHashable type frozen) := by
  rw [isHashable]
  cases frozen with
  | false =>
    have few := g.unseen_le []
    refine (g.ended_hashableWithin_unseen [] type).kept (same_hashableWithin ?_ _ _ _)
    rw [hashableFuel]
    omega
  | true =>
    have few := g.depth_le type type
    have member : type ∈ g.nodes type := List.mem_append_left _ type.mem_nodes_self
    refine (acyclic.ended_hashableWithin member).kept (same_hashableWithin ?_ _ _ _)
    rw [hashableFuel]
    omega

theorem ended_keysFrozen (frozen : Bool) (key : FieldType) : Ended (g.keysFrozen frozen key) := by
  cases frozen
  · exact acyclic.ended_isHashable key true
  · exact ended_ok true

theorem ended_hintStep {ask : FieldType → Bool → Except Fault TypeHint}
    (below : ∀ part ∈ resolved.held, ∀ frozen, Ended (ask part frozen)) :
    Ended (g.hintStep ask frozen resolved) := by
  cases resolved with
  | primitive p => cases p <;> first | exact ended_ok _ | exact ended_error (by simp)
  | list element =>
    exact (below element (by simp [Resolved.held]) _).bind fun _ _ => ended_ok _
  | set element =>
    refine (acyclic.ended_isHashable element true).bind fun hashes _ => ?_
    exact (below element (by simp [Resolved.held]) _).bind fun _ _ => ended_ok _
  | map key value =>
    refine (below value (by simp [Resolved.held]) _).bind fun _ _ => ?_
    refine (acyclic.ended_keysFrozen frozen key).bind fun hashes _ => ?_
    exact (below key (by simp [Resolved.held]) _).bind fun _ _ => ended_ok _
  | record r => exact (g.ended_classRef r.name).map
  | enum e => exact (g.ended_classRef e.name).map
  | constant c => exact (g.ended_classRef c.name).map
  | service s => exact (g.ended_classRef s.name).map

theorem ended_drawStep {ask : FieldType → Bool → Except Fault Expr}
    (below : ∀ part ∈ resolved.held, ∀ frozen, Ended (ask part frozen)) :
    Ended (g.drawStep ask frozen type resolved) := by
  cases resolved with
  | primitive p => cases p <;> first | exact ended_ok _ | exact ended_error (by simp)
  | list element =>
    exact (below element (by simp [Resolved.held]) _).bind fun _ _ => ended_ok _
  | set element =>
    refine (acyclic.ended_isHashable element true).bind fun hashes _ => ?_
    exact (below element (by simp [Resolved.held]) _).bind fun _ _ => ended_ok _
  | map key value =>
    refine (acyclic.ended_keysFrozen frozen key).bind fun hashes _ => ?_
    refine (below key (by simp [Resolved.held]) _).bind fun _ _ => ?_
    exact (below value (by simp [Resolved.held]) _).bind fun _ _ => ended_ok _
  | record r => exact (g.ended_companionRef r.name _).bind fun _ _ => ended_ok _
  | enum e => exact (g.ended_classRef e.name).bind fun _ _ => ended_ok _
  | constant c | service s => exact ended_error (by simp)

/-- A search that asks for less deep parts at each level ends. -/
theorem ended_search {α : Type} {search : Nat → FieldType → Bool → Except Fault α}
    (step : ∀ fuel node frozen,
      (∀ part, g.Holds node part → ∀ frozen, Ended (search fuel part frozen)) →
        Ended (search (fuel + 1) node frozen))
    (same : ∀ fuel more, fuel ≤ more → ∀ node frozen,
      KeptBut (.endlessType = ·) (search fuel node frozen) (search more node frozen))
    (member : node ∈ g.nodes type) (frozen : Bool) :
    Ended (search (g.depth type node + 1) node frozen) := by
  induction levels : g.depth type node using Nat.strongRecOn generalizing node frozen with
  | ind n ih =>
    subst levels
    refine step _ node frozen fun part holds frozen => ?_
    have inside : part ∈ g.nodes type := by
      obtain ⟨resolved, resolves, held⟩ := holds
      exact mem_nodes_of_held member resolves held
    have below := acyclic.depth_lt inside holds
    exact (ih _ below inside frozen rfl).kept (same _ _ below part frozen)

theorem ended_hintWithin (member : node ∈ g.nodes type) (frozen : Bool) :
    Ended (g.hintWithin (g.depth type node + 1) node frozen).outcome := by
  refine acyclic.ended_search (fun fuel node frozen below => ?_)
    (fun _ _ le node frozen => (same_hintWithin le node frozen).outcome) member frozen
  rw [outcome_hintWithin_succ]
  exact (g.ended_follow _ _ node).bind fun resolved resolves =>
    acyclic.ended_hintStep fun part held => below part ⟨resolved, resolves, held⟩

theorem ended_drawWithin (member : node ∈ g.nodes type) (frozen : Bool) :
    Ended (g.drawWithin (g.depth type node + 1) node frozen) := by
  refine acyclic.ended_search (fun fuel node frozen below => ?_)
    (fun _ _ le => same_drawWithin le) member frozen
  rw [drawWithin_succ]
  exact (g.ended_follow _ _ node).bind fun resolved resolves =>
    acyclic.ended_drawStep fun part held => below part ⟨resolved, resolves, held⟩

end NoHoldingCycle

/-- If no cycle of aliases passes through a container, hashability, annotations and strategies of
    all types have an outcome that is no lack of fuel, and any more fuel gives the same. -/
theorem searches_end (g : Group) (type : FieldType) (frozen : Bool) (acyclic : g.NoHoldingCycle) :
    (∀ fuel, g.aliasCount + 1 ≤ fuel → g.follow fuel [] type = g.resolveType type) ∧
      (Ended (g.isHashable type frozen) ∧ ∀ fuel, g.hashableFuel type ≤ fuel →
        g.hashableWithin fuel [] frozen type = g.isHashable type frozen) ∧
      (Ended (g.hint type frozen).outcome ∧ ∀ fuel, g.typeFuel type ≤ fuel →
        g.hintWithin fuel type frozen = g.hint type frozen) ∧
      (∀ d : Draft, d.group = g → Ended (ExceptT.run (Drafting.annotate type frozen) d).1) ∧
      Ended (g.draw type frozen) ∧ ∀ fuel, g.typeFuel type ≤ fuel →
        g.drawWithin fuel type frozen = g.draw type frozen := by
  have member : type ∈ g.nodes type := List.mem_append_left _ type.mem_nodes_self
  have enough : g.depth type type + 1 ≤ g.typeFuel type := by
    have few := g.depth_le type type
    rw [typeFuel]
    omega
  have hashableEnded := acyclic.ended_isHashable type frozen
  have hintEnded : Ended (g.hint type frozen).outcome :=
    (acyclic.ended_hintWithin member frozen).kept (same_hintWithin enough type frozen).outcome
  have drawEnded : Ended (g.draw type frozen) :=
    (acyclic.ended_drawWithin member frozen).kept (same_drawWithin enough type frozen)
  refine ⟨fun fuel => follow_of_le, ⟨hashableEnded, fun fuel le => ?_⟩,
    ⟨hintEnded, fun fuel le => ?_⟩, fun d same => ?_, drawEnded, fun fuel le => ?_⟩
  · exact same_hashableWithin le [] frozen type hashableEnded.strong
  · exact same_hintWithin le type frozen hintEnded.strong
  · rw [outcome_annotate, same]
    exact hintEnded
  · exact same_drawWithin le type frozen drawEnded.strong

/-- Two structs that hold each other, two aliases of each other, and an alias of a list. -/
def knotGroup : Group where
  schemas := [(.text "m", {
    module := .text "m"
    structs := [
      ("Left", {
        kind := .struct, name := "m.Left"
        fields := [{ name := .text "right", type := .ref "m.Right" }] }),
      ("Right", {
        kind := .struct, name := "m.Right"
        fields := [{ name := .text "left", type := .ref "m.Left" }] })]
    typedefs := [
      ("There", { name := "m.There", type := .ref "m.Back" }),
      ("Back", { name := "m.Back", type := .ref "m.There" }),
      ("Lefts", { name := "m.Lefts", type := .list (.ref "m.Left") })] })]

theorem knotGroup_noHoldingCycle : knotGroup.NoHoldingCycle := by
  have listed {a : String} {t : Typedef} (known : knotGroup.resolve a = .ok (.typedef t)) :
      t.name ∈ ["m.There", "m.Back"] ∧ (∀ b, .ref b ∈ t.type.nodes → t.type = .ref b) ∨
        t.name = "m.Lefts" ∧ t.type = .list (.ref "m.Left") := by
    have known := mem_aliases_of_resolve known
    simp only [aliases, knotGroup, Table.values, List.flatMap_singleton, List.map_cons,
      List.map_nil, List.mem_cons, List.not_mem_nil, or_false] at known
    rcases known with rfl | rfl | rfl <;> simp [FieldType.nodes]
  have noAlias (t : Typedef) : knotGroup.resolve "m.Left" ≠ .ok (.typedef t) := by
    intro found
    have named : (knotGroup.resolve "m.Left").toOption.map Entity.name = some "m.Left" := by
      decide +kernel
    rw [found] at named
    have same : t.name = "m.Left" := Option.some.inj named
    simpa [same] using listed found
  rintro a b ⟨t, known, mentioned, inside⟩ path
  rcases listed known with ⟨-, direct⟩ | ⟨-, lefts⟩
  · exact inside (direct b mentioned)
  · -- What `Lefts` holds is no alias, so no path leads on from there.
    obtain rfl : b = "m.Left" := by simpa [lefts, FieldType.nodes] using mentioned
    rcases path.cases_head with rfl | ⟨next, ⟨other, found, -⟩, -⟩
    · exact noAlias t known
    · exact noAlias other found

theorem knot_searches_end :
    knotGroup.NoHoldingCycle ∧
      (∀ fuel, knotGroup.hashableFuel (.ref "m.Lefts") ≤ fuel →
        knotGroup.hashableWithin fuel [] true (.ref "m.Lefts") = .ok true) ∧
      Ended (knotGroup.draw (.set (.ref "m.There")) false) ∧
      ∀ fuel, knotGroup.typeFuel (.set (.ref "m.There")) ≤ fuel →
        (knotGroup.drawWithin fuel (.set (.ref "m.There")) false).toOption = none := by
  have acyclic := knotGroup_noHoldingCycle
  have yes : knotGroup.isHashable (.ref "m.Lefts") true = .ok true :=
    toOption_eq_some.mp (by decide +kernel)
  have fails : (knotGroup.draw (.set (.ref "m.There")) false).toOption = none := by decide +kernel
  obtain ⟨-, ⟨-, hashable⟩, -, -, -⟩ := searches_end knotGroup (.ref "m.Lefts") true acyclic
  obtain ⟨-, -, -, -, ended, drawn⟩ := searches_end knotGroup (.set (.ref "m.There")) false acyclic
  refine ⟨acyclic, fun fuel le => (hashable fuel le).trans yes, ended, fun fuel le => ?_⟩
  rw [drawn fuel le, fails]

end Group
end IdlGen
