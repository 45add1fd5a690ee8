import IdlGen.Proofs.Annotations

/-!
Searches over types end within their fuel. A search that asks only about finitely many questions
answers one with as much fuel as there are questions, if it answers it at all (`ok_within`).
-/
namespace IdlGen

open Outcome

theorem countP_lt {α : Type} {strong weak : α → Bool} {items : List α}
    (weaker : ∀ a ∈ items, strong a → weak a) {item : α} (member : item ∈ items)
    (passes : weak item) (fails : ¬ strong item) : items.countP strong < items.countP weak := by
  obtain ⟨before, after, rfl⟩ := List.append_of_mem member
  have first : before.countP strong ≤ before.countP weak :=
    List.countP_mono_left fun a known => weaker a (List.mem_append_left _ known)
  have later : after.countP strong ≤ after.countP weak :=
    List.countP_mono_left fun a known =>
      weaker a (List.mem_append_right _ (List.mem_cons_of_mem _ known))
  rw [List.countP_append, List.countP_append, List.countP_cons_of_pos passes,
    List.countP_cons_of_neg fails]
  omega

section
variable {ε α β : Type} {search : Nat → α → Except ε β} {questions : List α}

def FuelGrows (search : Nat → α → Except ε β) : Prop :=
  ∀ fuel more q, fuel ≤ more → Kept (search fuel q) (search more q)

def AsksWithin (search : Nat → α → Except ε β) (questions : List α) : Prop :=
  ∀ fuel other, (∀ q ∈ questions, Kept (search fuel q) (search other q)) →
    ∀ q ∈ questions, Kept (search (fuel + 1) q) (search (other + 1) q)

def answers (search : Nat → α → Except ε β) (questions : List α) (fuel : Nat) : Nat :=
  questions.countP fun q => (search fuel q).toOption.isSome

theorem ok_answers (grows : FuelGrows search) (asks : AsksWithin search questions) {fuel : Nat}
    {q : α} {b : β} (member : q ∈ questions) (answered : search fuel q = .ok b) :
    search (answers search questions fuel) q = .ok b := by
  induction fuel generalizing q b with
  | zero => exact (grows _ _ q (Nat.zero_le _)).ok answered
  | succ fuel ih =>
    have kept {q : α} (answered : (search fuel q).toOption.isSome) :
        (search (fuel + 1) q).toOption.isSome := by
      obtain ⟨b, answered⟩ := isSome_toOption.mp answered
      exact isSome_toOption.mpr ⟨b, (grows _ _ q (Nat.le_succ fuel)).ok answered⟩
    by_cases before : (search fuel q).toOption.isSome
    · obtain ⟨b', earlier⟩ := isSome_toOption.mp before
      cases ((grows _ _ q (Nat.le_succ fuel)).ok earlier).symm.trans answered
      exact (grows _ _ q (List.countP_mono_left fun _ _ => kept)).ok (ih member earlier)
    · have more : answers search questions fuel < answers search questions (fuel + 1) :=
        countP_lt (fun _ _ => kept) member (isSome_toOption.mpr ⟨b, answered⟩) before
      have below (q : α) (known : q ∈ questions) := kept_of_ok fun _ => ih known
      exact (grows _ _ q more).ok ((asks fuel _ below q member).ok answered)

theorem ok_within (grows : FuelGrows search) (asks : AsksWithin search questions) {fuel : Nat}
    {q : α} {b : β} (member : q ∈ questions) (answered : search fuel q = .ok b) :
    search questions.length q = .ok b :=
  (grows _ _ q List.countP_le_length).ok (ok_answers grows asks member answered)

end

def FieldType.nodes : FieldType → List FieldType
  | .primitive p => [.primitive p]
  | .list element => .list element :: element.nodes
  | .set element => .set element :: element.nodes
  | .map key value => .map key value :: (key.nodes ++ value.nodes)
  | .ref name => [.ref name]

namespace FieldType

theorem length_nodes (type : FieldType) : type.nodes.length = type.size := by
  induction type with
  | map key value keyLength valueLength => simp [nodes, size, keyLength, valueLength]
  | _ => simp_all [nodes, size]

@[simp] theorem mem_nodes_self (type : FieldType) : type ∈ type.nodes := by
  cases type <;> simp [nodes]

theorem nodes_subset {type node : FieldType} (member : node ∈ type.nodes) :
    node.nodes ⊆ type.nodes := by
  induction type with
  | primitive p | ref name =>
    cases List.mem_singleton.mp member
    exact List.Subset.refl _
  | list element ih | set element ih =>
    rcases List.mem_cons.mp member with rfl | below
    · exact List.Subset.refl _
    · exact List.subset_cons_of_subset _ (ih below)
  | map key value keySubset valueSubset =>
    rcases List.mem_cons.mp member with rfl | below
    · exact List.Subset.refl _
    · apply List.subset_cons_of_subset
      rcases List.mem_append.mp below with inKey | inValue
      · exact List.subset_append_of_subset_left _ (keySubset inKey)
      · exact List.subset_append_of_subset_right _ (valueSubset inValue)

end FieldType

namespace Group

variable {g : Group} {type : FieldType}

def nodes (g : Group) (type : FieldType) : List FieldType :=
  type.nodes ++ g.aliases.flatMap fun t => t.type.nodes

theorem length_nodes (g : Group) (type : FieldType) :
    (g.nodes type).length = type.size + g.aliasNodes := by
  have sum (aliases : List Typedef) (start : Nat) :
      aliases.foldl (fun nodes t => nodes + t.type.size) start =
        start + (aliases.flatMap fun t => t.type.nodes).length := by
    induction aliases generalizing start with
    | nil => rfl
    | cons t rest ih =>
      rw [List.foldl_cons, ih, List.flatMap_cons, List.length_append, t.type.length_nodes]
      omega
  rw [nodes, List.length_append, type.length_nodes, aliasNodes, sum, Nat.zero_add]

variable {node container part : FieldType} {fuel : Nat} {seen : List String} {resolved : Resolved}
  {r : Record} {b frozen : Bool} {hint : TypeHint}

theorem nodes_closed (member : node ∈ g.nodes type) : node.nodes ⊆ g.nodes type := by
  rcases List.mem_append.mp member with inType | inAliases
  · exact List.subset_append_of_subset_left _ (FieldType.nodes_subset inType)
  · apply List.subset_append_of_subset_right
    obtain ⟨t, known, inAlias⟩ := List.mem_flatMap.mp inAliases
    exact fun part below => List.mem_flatMap.mpr ⟨t, known, FieldType.nodes_subset inAlias below⟩

theorem container_of_follow (follows : g.follow fuel seen type = .ok resolved)
    (is : resolved.container? = some container) :
    container = type ∨ ∃ t ∈ g.aliases, t.type = container := by
  induction fuel generalizing seen type with
  | zero =>
    cases type with
    | ref name =>
      rcases follow_ref follows with ⟨-, no⟩ | ⟨less, t, -, impossible, -⟩
      · cases no.symm.trans is
      · cases impossible
    | _ =>
      cases follows
      cases is <;> exact .inl rfl
  | succ fuel ih =>
    cases type with
    | ref name =>
      rcases follow_ref follows with ⟨-, no⟩ | ⟨less, t, known, same, follows⟩
      · cases no.symm.trans is
      · cases same
        rcases ih follows with rfl | other
        · exact .inr ⟨t, known, rfl⟩
        · exact .inr other
    | _ =>
      cases follows
      cases is <;> exact .inl rfl

theorem mem_nodes_of_resolveType (member : node ∈ g.nodes type)
    (resolves : g.resolveType node = .ok resolved) (is : resolved.container? = some container)
    (below : part ∈ container.nodes) : part ∈ g.nodes type := by
  rcases container_of_follow resolves is with rfl | ⟨t, known, rfl⟩
  · exact nodes_closed member below
  · exact List.mem_append_right _ (List.mem_flatMap.mpr ⟨t, known, below⟩)

def unseen (g : Group) (seen : List String) : Nat :=
  g.records.countP fun r => !seen.contains r.name

theorem unseen_lt (declared : r ∈ g.records) (fresh : r.name ∉ seen) :
    g.unseen (r.name :: seen) < g.unseen seen := by
  refine countP_lt (fun other _ => ?_) declared ?_ ?_
  · simp only [List.contains_cons, Bool.not_eq_true', Bool.or_eq_false_iff]
    exact And.right
  · simpa using fresh
  · simp

theorem unseen_le (g : Group) (seen : List String) : g.unseen seen ≤ g.recordCount :=
  List.countP_le_length

theorem hashableWithin_unseen (g : Group) (fuel : Nat) (seen : List String) (type : FieldType) :
    Kept (g.hashableWithin fuel seen false type)
      (g.hashableWithin (g.unseen seen + 1) seen false type) := by
  induction fuel generalizing seen type with
  | zero => exact kept_fault trivial _
  | succ fuel ih =>
    rw [hashableWithin_succ, hashableWithin_succ]
    refine (kept_refl _).bind fun resolved resolves => ?_
    refine kept_hashableStep fun seen' frozen' type' asked => kept_of_ok fun b once => ?_
    cases asked with
    | field plain fresh member =>
      have fewer := unseen_lt (declared_of_resolveType resolves) fresh
      exact hashableWithin_mono fewer ((ih _ _).ok once)

def hashableAbove (g : Group) (fuel : Nat) (node : FieldType) : Except Fault Bool :=
  g.hashableWithin (g.recordCount + 1 + fuel) [] true node

theorem asksWithin_hashableAbove (g : Group) (type : FieldType) :
    AsksWithin g.hashableAbove (g.nodes type) := by
  intro fuel other below node member
  rw [hashableAbove, hashableAbove, ← Nat.add_assoc, ← Nat.add_assoc, hashableWithin_succ,
    hashableWithin_succ]
  refine (kept_refl _).bind fun resolved resolves => ?_
  refine kept_hashableStep fun seen' frozen' part asked => ?_
  have inside {container : FieldType} (is : resolved.container? = some container)
      (within : part ∈ container.nodes) : part ∈ g.nodes type :=
    mem_nodes_of_resolveType member resolves is within
  cases asked with
  | list | set | key | value => exact below _ (inside rfl (by simp [FieldType.nodes]))
  | @field _ r field plain fresh known =>
    have few := g.unseen_le [r.name]
    exact kept_of_ok fun b once =>
      hashableWithin_mono (by omega) ((hashableWithin_unseen g _ _ _).ok once)

theorem isHashable_of_within (answered : g.hashableWithin fuel [] frozen type = .ok b) :
    g.isHashable type frozen = .ok b := by
  cases frozen with
  | false =>
    have few := g.unseen_le []
    refine hashableWithin_mono ?_ ((hashableWithin_unseen g _ _ _).ok answered)
    rw [hashableFuel]
    omega
  | true =>
    have member : type ∈ g.nodes type := List.mem_append_left _ type.mem_nodes_self
    have grows : FuelGrows g.hashableAbove := fun _ _ _ more =>
      kept_of_ok fun _ => hashableWithin_mono (Nat.add_le_add_left more _)
    have enough : g.hashableAbove (g.nodes type).length type = .ok b :=
      ok_within grows (g.asksWithin_hashableAbove type) member
        (hashableWithin_mono (Nat.le_add_left fuel (g.recordCount + 1)) answered)
    refine hashableWithin_mono ?_ enough
    rw [hashableFuel, length_nodes]
    omega

theorem Hashes.isHashable (hashes : Hashes g [] frozen type) :
    g.isHashable type frozen = .ok true := by
  obtain ⟨fuel, answered⟩ := hashes
  exact isHashable_of_within answered

/-- The types of what a container holds. -/
def Resolved.held : Resolved → List FieldType
  | .list element => [element]
  | .set element => [element]
  | .map key value => [key, value]
  | _ => []

theorem mem_nodes_of_held (member : node ∈ g.nodes type)
    (resolves : g.resolveType node = .ok resolved) (held : part ∈ resolved.held) :
    part ∈ g.nodes type := by
  cases resolved with
  | list element | set element =>
    cases List.mem_singleton.mp held
    exact mem_nodes_of_resolveType member resolves rfl (by simp [FieldType.nodes])
  | map key value =>
    rcases List.mem_pair.mp held with rfl | rfl
    · exact mem_nodes_of_resolveType member resolves rfl (by simp [FieldType.nodes])
    · exact mem_nodes_of_resolveType member resolves rfl (by simp [FieldType.nodes])
  | _ => cases held

theorem kept_hintStep {ask ask' : FieldType → Bool → Except Fault TypeHint}
    (below : ∀ part ∈ resolved.held, ∀ frozen, Kept (ask part frozen) (ask' part frozen)) :
    Kept (g.hintStep ask frozen resolved) (g.hintStep ask' frozen resolved) := by
  cases resolved with
  | list element =>
    exact (below element (by simp [Resolved.held]) _).bind fun _ _ => kept_refl _
  | set element =>
    refine (kept_refl _).bind fun hashes _ => ?_
    exact (below element (by simp [Resolved.held]) _).bind fun _ _ => kept_refl _
  | map key value =>
    refine (below value (by simp [Resolved.held]) _).bind fun _ _ => ?_
    refine (kept_refl _).bind fun hashes _ => ?_
    exact (below key (by simp [Resolved.held]) _).bind fun _ _ => kept_refl _
  | _ => exact kept_refl _

theorem hintWithin_mono {more : Nat} (enough : fuel ≤ more)
    (hinted : (g.hintWithin fuel type frozen).outcome = .ok hint) :
    (g.hintWithin more type frozen).outcome = .ok hint := by
  have kept : Trail.KeptBut (fun _ => True) (g.hintWithin fuel type frozen) _ :=
    kept_hintWithin trivial (fun _ => kept_refl _) (fun _ => kept_refl _) (fun _ _ _ _ _ => rfl)
      enough type frozen
  exact kept.outcome.ok hinted

def placedNodes (g : Group) (type : FieldType) : List (FieldType × Bool) :=
  (g.nodes type).map (·, false) ++ (g.nodes type).map (·, true)

theorem mem_placedNodes : (node, frozen) ∈ g.placedNodes type ↔ node ∈ g.nodes type := by
  cases frozen <;> simp [placedNodes]

def placedHint (g : Group) (fuel : Nat) (placed : FieldType × Bool) : Except Fault TypeHint :=
  (g.hintWithin fuel placed.1 placed.2).outcome

theorem asksWithin_placedHint (g : Group) (type : FieldType) :
    AsksWithin g.placedHint (g.placedNodes type) := by
  rintro fuel other below ⟨node, frozen⟩ member
  rw [placedHint, placedHint, outcome_hintWithin_succ, outcome_hintWithin_succ]
  refine (kept_refl _).bind fun resolved resolves => kept_hintStep fun part held frozen => ?_
  have inside : part ∈ g.nodes type :=
    mem_nodes_of_held (mem_placedNodes.mp member) resolves held
  exact below (part, frozen) (mem_placedNodes.mpr inside)

theorem hint_of_within (hinted : (g.hintWithin fuel type frozen).outcome = .ok hint) :
    (g.hint type frozen).outcome = .ok hint := by
  have grows : FuelGrows g.placedHint := fun _ _ _ more =>
    kept_of_ok fun _ => hintWithin_mono more
  have member : (type, frozen) ∈ g.placedNodes type :=
    mem_placedNodes.mpr (List.mem_append_left _ type.mem_nodes_self)
  have enough : g.placedHint (g.placedNodes type).length (type, frozen) = .ok hint :=
    ok_within grows (g.asksWithin_placedHint type) member hinted
  refine hintWithin_mono ?_ enough
  simp only [placedNodes, List.length_append, List.length_map, length_nodes, typeFuel]
  omega

/-! ### Types of data -/

/-- A type that ends in primitives, enums and records, through aliases and containers. -/
inductive DataType (g : Group) : FieldType → Prop where
  | primitive {type : FieldType} {p : Primitive}
      (resolves : g.resolveType type = .ok (.primitive p)) (known : ∀ name, p ≠ .other name) :
      DataType g type
  | enum {type : FieldType} {e : Enum} (resolves : g.resolveType type = .ok (.enum e)) :
      DataType g type
  | record {type : FieldType} {r : Record} (resolves : g.resolveType type = .ok (.record r)) :
      DataType g type
  | list {type element : FieldType} (resolves : g.resolveType type = .ok (.list element))
      (inner : DataType g element) : DataType g type
  | set {type element : FieldType} (resolves : g.resolveType type = .ok (.set element))
      (inner : DataType g element) : DataType g type
  | map {type key value : FieldType} (resolves : g.resolveType type = .ok (.map key value))
      (keys : DataType g key) (values : DataType g value) : DataType g type

/-- The types that a type reaches, in the containers and records that it names. -/
inductive Reaches (g : Group) (type : FieldType) : FieldType → Prop where
  | self : Reaches g type type
  | held {node part : FieldType} {resolved : Resolved} (reached : Reaches g type node)
      (resolves : g.resolveType node = .ok resolved) (member : part ∈ resolved.held) :
      Reaches g type part
  | field {node : FieldType} {r : Record} {f : Field} (reached : Reaches g type node)
      (resolves : g.resolveType node = .ok (.record r)) (member : f ∈ r.fields) :
      Reaches g type f.type

/-- Every type that values of a type can hold is one of data. -/
def ReachesData (g : Group) (type : FieldType) : Prop :=
  ∀ part, g.Reaches type part → g.DataType part

theorem ReachesData.trans (data : g.ReachesData type) (reached : g.Reaches type part) :
    g.ReachesData part := by
  intro other below
  refine data other ?_
  induction below with
  | self => exact reached
  | held _ resolves member ih => exact ih.held resolves member
  | field _ resolves member ih => exact ih.field resolves member

theorem ReachesData.dataType (data : g.ReachesData type) : g.DataType type := data type .self

theorem ReachesData.held (data : g.ReachesData type)
    (resolves : g.resolveType type = .ok resolved) (member : part ∈ resolved.held) :
    g.ReachesData part :=
  data.trans (.held .self resolves member)

theorem ReachesData.entries {key value : FieldType} (data : g.ReachesData type)
    (resolves : g.resolveType type = .ok (.map key value)) :
    g.ReachesData key ∧ g.ReachesData value :=
  ⟨data.held resolves (by simp [Resolved.held]), data.held resolves (by simp [Resolved.held])⟩

theorem ReachesData.field {f : Field} (data : g.ReachesData type)
    (resolves : g.resolveType type = .ok (.record r)) (member : f ∈ r.fields) :
    g.ReachesData f.type :=
  data.trans (.field .self resolves member)

theorem DataType.resolves (dataType : g.DataType type) :
    ∃ resolved, g.resolveType type = .ok resolved := by
  cases dataType with
  | _ => exact ⟨_, by assumption⟩

theorem andThen_answers {first second : Except Fault Bool} (left : ∃ b, first = .ok b)
    (right : ∃ b, second = .ok b) : ∃ b, andThen first second = .ok b := by
  obtain ⟨yes, rfl⟩ := left
  cases yes
  · exact ⟨false, rfl⟩
  · exact right

theorem allYes_answers {α : Type} {ask : α → Except Fault Bool} {items : List α}
    (each : ∀ a ∈ items, ∃ b, ask a = .ok b) : ∃ b, allYes ask items = .ok b := by
  induction items with
  | nil => exact ⟨true, rfl⟩
  | cons item rest ih =>
    obtain ⟨first, later⟩ := List.forall_mem_cons.mp each
    exact andThen_answers first (ih later)

theorem hashableWithin_of_step (resolves : g.resolveType type = .ok resolved)
    (answered : hashableStep (g.hashableWithin fuel) seen frozen resolved = .ok b) :
    g.hashableWithin (fuel + 1) seen frozen type = .ok b := by
  rw [hashableWithin_succ, resolves]
  exact answered

theorem hashableWithin_record_answers {fuel : Nat} {seen : List String} {r : Record} (frozen : Bool)
    (resolves : g.resolveType type = .ok (.record r))
    (each : r.name ∉ seen →
      ∀ f ∈ r.fields, ∃ b, g.hashableWithin fuel (r.name :: seen) false f.type = .ok b) :
    ∃ b, g.hashableWithin (fuel + 1) seen frozen type = .ok b := by
  suffices step : ∃ b, hashableStep (g.hashableWithin fuel) seen frozen (.record r) = .ok b by
    obtain ⟨b, answered⟩ := step
    exact ⟨b, hashableWithin_of_step resolves answered⟩
  rw [hashableStep]
  split
  · exact ⟨false, rfl⟩
  · split
    · exact ⟨true, rfl⟩
    · rename_i fresh
      exact allYes_answers (each fun member => fresh (List.contains_iff_mem.mpr member))

theorem ReachesData.unseen_answers (data : g.ReachesData type) (seen : List String) :
    ∃ b, g.hashableWithin (g.unseen seen + 1) seen false type = .ok b := by
  induction few : g.unseen seen using Nat.strongRecOn generalizing seen type with
  | ind n ih =>
    subst few
    cases data.dataType with
    | record resolves =>
      refine hashableWithin_record_answers false resolves fun fresh f member => ?_
      have fewer := unseen_lt (declared_of_resolveType resolves) fresh
      obtain ⟨b, answered⟩ := ih _ fewer (data.field resolves member) _ rfl
      exact ⟨b, hashableWithin_mono fewer answered⟩
    | primitive resolves known => exact ⟨true, hashableWithin_of_step resolves rfl⟩
    | enum resolves => exact ⟨true, hashableWithin_of_step resolves rfl⟩
    | list resolves inner => exact ⟨false, hashableWithin_of_step resolves rfl⟩
    | set resolves inner => exact ⟨false, hashableWithin_of_step resolves rfl⟩
    | map resolves keys values => exact ⟨false, hashableWithin_of_step resolves rfl⟩

theorem ReachesData.isHashable_answers (data : g.ReachesData type) :
    ∃ b, g.isHashable type true = .ok b := by
  suffices some : ∃ fuel b, g.hashableWithin fuel [] true type = .ok b by
    obtain ⟨fuel, b, answered⟩ := some
    exact ⟨b, isHashable_of_within answered⟩
  have dataType := data.dataType
  induction dataType with
  | primitive resolves known | enum resolves => exact ⟨1, true, hashableWithin_of_step resolves rfl⟩
  | @record type r resolves =>
    exact ⟨_, hashableWithin_record_answers true resolves fun _ f member =>
      (data.field resolves member).unseen_answers [r.name]⟩
  | list resolves _ ih | set resolves _ ih =>
    obtain ⟨fuel, b, answered⟩ := ih (data.held resolves (by simp [Resolved.held]))
    exact ⟨fuel + 1, b, hashableWithin_of_step resolves answered⟩
  | map resolves _ _ keysAnswer valuesAnswer =>
    obtain ⟨keys, values⟩ := data.entries resolves
    obtain ⟨keyFuel, keyHashes, keyAnswered⟩ := keysAnswer keys
    obtain ⟨valueFuel, valueHashes, valueAnswered⟩ := valuesAnswer values
    obtain ⟨b, answered⟩ := andThen_answers
      ⟨keyHashes, hashableWithin_mono (Nat.le_max_left keyFuel valueFuel) keyAnswered⟩
      ⟨valueHashes, hashableWithin_mono (Nat.le_max_right keyFuel valueFuel) valueAnswered⟩
    exact ⟨_, b, hashableWithin_of_step resolves answered⟩

theorem hintWithin_of_step (resolves : g.resolveType type = .ok resolved)
    (hinted : g.hintStep (fun t f => (g.hintWithin fuel t f).outcome) frozen resolved = .ok hint) :
    (g.hintWithin (fuel + 1) type frozen).outcome = .ok hint := by
  rw [outcome_hintWithin_succ, resolves]
  exact hinted

theorem exists_step_of_hintWithin (resolves : g.resolveType type = .ok resolved)
    (hinted : (g.hintWithin fuel type frozen).outcome = .ok hint) :
    ∃ below, g.hintStep (fun t f => (g.hintWithin below t f).outcome) frozen resolved =
      .ok hint := by
  cases fuel with
  | zero => cases hinted
  | succ below =>
    rw [outcome_hintWithin_succ, resolves] at hinted
    exact ⟨below, hinted⟩

theorem ReachesData.hint_exists (data : g.ReachesData type)
    (records : ∀ r ∈ g.records, ∃ cls, g.classRef r.name = .ok cls)
    (enums : ∀ e ∈ g.enums, ∃ cls, g.classRef e.name = .ok cls) (frozen : Bool) :
    ∃ hint, (g.hint type frozen).outcome = .ok hint := by
  suffices some : ∃ fuel hint, (g.hintWithin fuel type frozen).outcome = .ok hint by
    obtain ⟨fuel, hint, hinted⟩ := some
    exact ⟨hint, hint_of_within hinted⟩
  have dataType := data.dataType
  induction dataType generalizing frozen with
  | @primitive type p resolves known =>
    obtain ⟨hint, hinted⟩ : ∃ hint, p.hint = .ok hint := by
      cases p with
      | other name => exact absurd rfl (known name)
      | _ => exact ⟨_, rfl⟩
    exact ⟨1, hint, hintWithin_of_step resolves hinted⟩
  | enum resolves =>
    obtain ⟨cls, named⟩ := enums _ (declared_of_resolveType resolves)
    exact ⟨1, _, hintWithin_of_step resolves (map_eq_ok.mpr ⟨cls, named, rfl⟩)⟩
  | record resolves =>
    obtain ⟨cls, named⟩ := records _ (declared_of_resolveType resolves)
    exact ⟨1, _, hintWithin_of_step resolves (map_eq_ok.mpr ⟨cls, named, rfl⟩)⟩
  | list resolves _ ih =>
    obtain ⟨fuel, hint, hinted⟩ := ih (data.held resolves (by simp [Resolved.held])) frozen
    exact ⟨fuel + 1, _, hintWithin_of_step resolves (bind_eq_ok.mpr ⟨hint, hinted, rfl⟩)⟩
  | @set type element resolves _ ih =>
    have inner : g.ReachesData element := data.held resolves (by simp [Resolved.held])
    obtain ⟨hashes, answered⟩ := inner.isHashable_answers
    obtain ⟨fuel, hint, hinted⟩ := ih inner hashes
    exact ⟨fuel + 1, _, hintWithin_of_step resolves
      (bind_eq_ok.mpr ⟨hashes, answered, bind_eq_ok.mpr ⟨hint, hinted, rfl⟩⟩)⟩
  | @map type key value resolves _ _ keysHint valuesHint =>
    obtain ⟨keys, values⟩ := data.entries resolves
    obtain ⟨hashes, answered⟩ : ∃ hashes, g.keysFrozen frozen key = .ok hashes := by
      cases frozen
      · exact keys.isHashable_answers
      · exact ⟨true, rfl⟩
    obtain ⟨keyFuel, keyHint, keyHinted⟩ := keysHint keys hashes
    obtain ⟨valueFuel, valueHint, valueHinted⟩ := valuesHint values frozen
    have keyMore := hintWithin_mono (Nat.le_max_left keyFuel valueFuel) keyHinted
    have valueMore := hintWithin_mono (Nat.le_max_right keyFuel valueFuel) valueHinted
    exact ⟨_, _, hintWithin_of_step resolves (bind_eq_ok.mpr ⟨valueHint, valueMore,
      bind_eq_ok.mpr ⟨hashes, answered, bind_eq_ok.mpr ⟨keyHint, keyMore, rfl⟩⟩⟩)⟩

end Group
end IdlGen
