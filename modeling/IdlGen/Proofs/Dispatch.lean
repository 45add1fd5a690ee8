import IdlGen.Proofs.Companions

/-!
Declared defaults in running programs.
-/
namespace IdlGen

open Run Outcome

variable {items : List Value} {entries : List (Value × Value)} {fields : List (String × Value)}

namespace Value

variable {v w : Value}

theorem height_le_heightList (member : v ∈ items) : v.height ≤ heightList items := by
  induction items with
  | nil => cases member
  | cons first rest ih =>
    rw [heightList]
    rcases List.mem_cons.mp member with rfl | later
    · exact Nat.le_max_left ..
    · exact (ih later).trans (Nat.le_max_right ..)

theorem height_le_heightEntries (member : v ∈ entries.map (·.1) ++ entries.map (·.2)) :
    v.height ≤ heightEntries entries := by
  induction entries with
  | nil => cases member
  | cons entry rest ih =>
    obtain ⟨key, value⟩ := entry
    rw [heightEntries]
    have cases : v = key ∨ v = value ∨ v ∈ rest.map (·.1) ++ rest.map (·.2) := by
      simp only [List.map_cons, List.cons_append, List.mem_cons, List.mem_append] at member ⊢
      tauto
    rcases cases with rfl | rfl | later
    · omega
    · omega
    · have := ih later
      omega

theorem height_le_heightFields (member : v ∈ fields.map (·.2)) :
    v.height ≤ heightFields fields := by
  induction fields with
  | nil => cases member
  | cons field rest ih =>
    obtain ⟨name, value⟩ := field
    rw [heightFields]
    rcases List.mem_cons.mp member with rfl | later
    · exact Nat.le_max_left ..
    · exact (ih later).trans (Nat.le_max_right ..)

theorem height_part (member : w ∈ v.parts) : w.height < v.height := by
  cases v with
  | list items | tuple items | set items | frozenset items =>
    rw [height]
    exact Nat.lt_succ_of_le (height_le_heightList member)
  | dict entries =>
    rw [height]
    exact Nat.lt_succ_of_le (height_le_heightEntries member)
  | record cls fields =>
    rw [height]
    exact Nat.lt_succ_of_le (height_le_heightFields member)
  | _ => cases member

end Value

/-- A module has the function that applies the defaults of an output, and sees what the function
    refers to, whatever its arguments are. -/
structure Run.Machine.HoldsDefaults (m : Machine) (s : Surroundings) (id : Nat)
    (home param : String) (result : Expr) : Prop where
  bound : ∃ body, (m.modules.getD id default).attribute? "apply_defaults" =
      some (.routine { home := id, params := [param, "context"], body }) ∧
    resultOf body = some (result.term home)
  sees : ∀ v c, m.Sees { home := id, inner := [(param, v), ("context", c)] } home s result

/-- References mean the classes of the group and the functions of the libraries, every companion
    of a record can be imported, and its module then holds the function that its output
    declares, whatever companions are imported later. -/
structure Run.Program.Serves (p : Program) (g : Group) (s : Surroundings) (m : Machine) : Prop where
  classes : s.FindsClasses g
  support : s.FindsSupport
  companion : ∀ before, p.Imports g m before → ∀ output r, g.recordOf? output = some r →
    ∀ fuel, p.importable < fuel → ∃ id after,
      ((p.hooks fuel).require (Program.companionPath output)).run before = (.ok id, after) ∧
      ∀ o, p.output? (Program.companionPath output) = some o →
        ∀ type param result, .defaults type param result ∈ o.body →
          ∀ later, p.Imports g after later → later.HoldsDefaults s id o.home param result

/-- Companions can also be imported by their paths alone, and the instances of all classes carry the
    output names of their records. -/
structure Run.Program.Offers (p : Program) (g : Group) (s : Surroundings) (m : Machine) : Prop
    extends p.Serves g s m where
  named : ∀ output r, g.recordOf? output = some r → Program.companionPath output ≠ ""
  absolute : ∀ output r, g.recordOf? output = some r →
    Text.hasStart "." (Program.companionPath output) = false
  labels : ∀ r ∈ g.records, ∀ cls t, g.classRef r.name = .ok cls → s.ref cls = .ok (.record t) →
    g.Instance t.cls (t.fields.map (·.1))

namespace Run.Program

variable {p : Program} {g : Group} {s : Surroundings} {m after : Machine}

theorem Serves.later (serves : p.Serves g s m) (imports : p.Imports g m after) :
    p.Serves g s after :=
  ⟨serves.classes, serves.support, fun before reached => serves.companion before (imports.trans reached)⟩

section
variable {h : Hooks} {c : Object} {default : Field → Value}

theorem gives_defaultAll (each : ∀ u ∈ items, p.Applies g m h c default u) :
    p.Gives g m (defaultAll h c items) (g.defaultedAll default items) := by
  induction items with
  | nil =>
    rw [Group.defaultedAll]
    exact gives_pure []
  | cons v rest ih =>
    obtain ⟨first, later⟩ := List.forall_mem_cons.mp each
    rw [defaultAll]
    refine (first.bind fun o _ => (ih later).bind fun rest _ => gives_pure (o.toValue :: rest)).congr ?_
    rw [Group.defaultedAll]
    cases g.defaulted default v <;> rfl

theorem gives_items (make : List Value → Value) (each : ∀ u ∈ items, p.Applies g m h c default u) :
    p.Gives g m (do return Object.value (make (← defaultAll h c items)))
      (Object.value <$> do return make (← g.defaultedAll default items)) := by
  refine ((gives_defaultAll each).bind fun items _ => gives_pure (Object.value (make items))).congr ?_
  cases g.defaultedAll default items <;> rfl

theorem gives_setItems (make : List Value → Value)
    (each : ∀ u ∈ items, p.Applies g m h c default u) :
    p.Gives g m (do return Object.value (make (← Running.of (setItems (← defaultAll h c items)))))
      (Object.value <$> do return make (← setItems (← g.defaultedAll default items))) := by
  refine ((gives_defaultAll each).bind fun items _ => (gives_of (setItems items)).bind
    fun items _ => gives_pure (Object.value (make items))).congr ?_
  cases g.defaultedAll default items with
  | error fault => rfl
  | ok results =>
    change setItems results >>= _ = Object.value <$> (setItems results >>= _)
    cases setItems results <;> rfl

theorem gives_defaultEntries
    (each : ∀ u ∈ entries.map (·.1) ++ entries.map (·.2), p.Applies g m h c default u) :
    p.Gives g m (defaultEntries h c entries) (g.defaultedEntries default entries) := by
  induction entries with
  | nil =>
    rw [Group.defaultedEntries]
    exact gives_pure []
  | cons entry rest ih =>
    obtain ⟨k, v⟩ := entry
    have key := each k (by simp)
    have value := each v (by simp)
    have later := ih fun u member => each u (by
      simp only [List.map_cons, List.cons_append, List.mem_cons, List.mem_append] at member ⊢
      tauto)
    rw [defaultEntries]
    refine (key.bind fun key _ => value.bind fun value _ => later.bind fun rest _ =>
      gives_pure ((key.toValue, value.toValue) :: rest)).congr ?_
    rw [Group.defaultedEntries]
    cases g.defaulted default k with
    | error fault => rfl
    | ok key => cases g.defaulted default v <;> rfl

theorem gives_dictEntries
    (each : ∀ u ∈ entries.map (·.1) ++ entries.map (·.2), p.Applies g m h c default u) :
    p.Gives g m
      (do return Object.value (.dict (← Running.of (dictEntries (← defaultEntries h c entries)))))
      (Object.value <$> do
        return Value.dict (← dictEntries (← g.defaultedEntries default entries))) := by
  refine ((gives_defaultEntries each).bind fun entries _ => (gives_of (dictEntries entries)).bind
    fun entries _ => gives_pure (Object.value (.dict entries))).congr ?_
  cases g.defaultedEntries default entries with
  | error fault => rfl
  | ok results =>
    change dictEntries results >>= _ = Object.value <$> (dictEntries results >>= _)
    cases dictEntries results <;> rfl

end

def HoldsCompanions (p : Program) (g : Group) : Prop :=
  ∀ output r, g.recordOf? output = some r → ∃ o type result,
    p.output? (companionPath output) = some o ∧
      .defaults type Companion.recordParam result ∈ o.body ∧
      Companion.applyDefaults g r = .ok result

theorem holdsCompanions {raw streams : Streams} (program : IsProgram g raw streams) :
    (Program.ofStreams streams).HoldsCompanions g := by
  intro output r known
  obtain ⟨declared, outputName⟩ := Group.recordOf?_eq_some known
  obtain ⟨named, member, home, module, cls, strategy, type, subject, result, -, -, made, body⟩ :=
    program.companion_of_output declared outputName
  obtain ⟨number, located⟩ := program.located_companion member
  refine ⟨named.2, type, result, ?_, ?_, ?_⟩
  · rw [companionPath, ← home, output?_eq_located?, located]
    rfl
  · simp [body]
  · rwa [Companion.applyDefaults_seenFrom] at made

section
variable {default : Field → Value} {cls : RecordClass}

variable {r : Record} {c : Object} (holds : p.HoldsCompanions g) (attributes : g.AttributesApart)
  (evaluates : ∀ r ∈ g.records, ∀ f ∈ r.fields, f.declares →
    Companion.DefaultMeans g s f (default f))
include holds attributes evaluates

/-- Importing the companion of a record gives a function, which applies the declared defaults of
    the record to its instances once those inside them are applied. -/
theorem exists_function (first fuel : Nat) (serves : p.Serves g s m)
    (known : g.recordOf? cls.name = some r)
    (names : fields.map (·.1) = r.fields.map fun f => Name.attributeName f.name)
    (enough : p.importable < first)
    (applied : ∀ field ∈ fields, p.Applies g m (p.hooks fuel) c default field.2) :
    ∃ id after function,
      ((p.hooks first).require (companionPath cls.name)).run m = (.ok id, after) ∧
      p.Imports g m after ∧ Returns after (attributeOf (.module id) "apply_defaults") function ∧
      p.Gives g after (call (p.hooks (fuel + 1)) function [.value (.record cls fields), c] [])
        (Object.value <$> g.defaulted default (.record cls fields)) := by
  obtain ⟨declared, -⟩ := Group.recordOf?_eq_some known
  obtain ⟨o, type, result, located, inBody, made⟩ := holds _ r known
  obtain ⟨id, after, ran, bound⟩ := serves.companion m (.refl m) _ r known first enough
  have bound := bound o located type _ result inBody
  have imports : p.Imports g m after := .step (.refl m) known enough ran
  obtain ⟨body, has, returned⟩ := (bound after (.refl after)).bound
  refine ⟨id, after, _, ran, imports, returns_attributeOf_module has, ?_⟩
  have called : call (p.hooks (fuel + 1))
      (.routine { home := id, params := [Companion.recordParam, "context"], body })
      [.value (.record cls fields), c] [] =
        eval (p.hooks fuel) (inner id cls fields c) (result.term o.home) := by
    simp only [call, hooks, invokeWith, returned]
    rfl
  rw [called]
  exact gives_result (fun later reached => (bound later reached).sees _ _) serves.support names
    (attributes r declared) (fun field member => (applied field member).later imports)
    serves.classes.frozenset known made (evaluates r declared)

theorem gives_applyDefaults {v : Value} (built : v.Built g.Instance) {fuel : Nat}
    (enough : p.importable + 2 * v.height + 2 ≤ fuel) (serves : p.Serves g s m) :
    p.Applies g m (p.hooks fuel) c default v := by
  induction built generalizing fuel m with
  | @mk v form each ih =>
    obtain ⟨fuel, rfl⟩ : ∃ below, fuel = below + 1 := ⟨fuel - 1, by omega⟩
    change Gives _ g m (Program.defaulted (p.hooks fuel) (.value v) c) _
    have inside (u : Value) (member : u ∈ v.parts) : p.Applies g m (p.hooks fuel) c default u := by
      have lower := Value.height_part member
      exact ih u member (by omega) serves
    cases v with
    | list items | tuple items =>
      rw [Group.defaulted]
      exact gives_items _ inside
    | set items | frozenset items =>
      rw [Group.defaulted]
      exact gives_setItems _ inside
    | dict entries =>
      rw [Group.defaulted]
      exact gives_dictEntries inside
    | record cls fields =>
      obtain ⟨label, r, known, names⟩ := form
      obtain ⟨fuel, rfl⟩ : ∃ below, fuel = below + 1 := ⟨fuel - 1, by omega⟩
      intro before reached
      obtain ⟨id, after, function, ran, imports, has, gives⟩ :=
        exists_function holds attributes evaluates (fuel + 1) fuel (serves.later reached) known
          names (by omega) fun field member => by
          have inParts : field.2 ∈ (Value.record cls fields).parts := List.mem_map_of_mem member
          have lower := Value.height_part inParts
          exact (ih field.2 inParts (by omega) serves).later reached
      obtain ⟨last, called, others⟩ := gives after (.refl after)
      refine ⟨last, ?_, imports.trans others⟩
      simp only [Program.defaulted, label]
      rw [run_bind, ran]
      dsimp only
      rw [run_bind, has]
      exact called
    | object _ => cases form
    | ref _ => cases form
    | _ => exact gives_pure _

end

end Run.Program

end IdlGen
