import IdlGen.Proofs.DrawnForms
import IdlGen.Proofs.LiteralRuns

/-!
Set elements and keys of drawn values are all hashable exactly if no constant with other items
stands in the place of an enum class (`drawn_keys_hashed_iff`).
-/
namespace IdlGen

open Run Outcome

namespace Linking

/-- Where a constant stands in the place of an enum class, its items are hashable. -/
def SamplesHashed (l : Linking) (g : Group) : Prop := l.Samples g fun _ item => item.Hashed

section
variable {l : Linking} {g : Group} {c : Context} {v : Value} {frozen : Bool} {type : FieldType}

theorem hashed_of_holds {p : Primitive} (holds : p.Holds c v) : v.Hashed := by
  rcases holds.scalar with ⟨n, rfl⟩ | ⟨b, rfl⟩ | ⟨x, rfl⟩ | ⟨t, rfl⟩ | ⟨data, rfl⟩
  · exact .int n
  · exact .bool b
  · exact .float x
  · exact .text t
  · exact .bytes data

theorem hashed_of_lacks {r : Record} (lacks : r.Lacks v) : v.Hashed := by
  rcases lacks.leaf with rfl | ⟨n, rfl⟩ | ⟨t, rfl⟩ | ⟨name, rfl⟩
  · exact .null
  · exact .int n
  · exact .text t
  · exact .object name

variable {e : Enum} {cls : Ref}

theorem hashed_of_sampled (sound : l.SamplesHashed g)
    (resolves : g.resolveType type = .ok (.enum e)) (names : g.classRef e.name = .ok cls)
    (sampled : l.Sampled cls v) : v.Hashed := by
  rcases sampled with ⟨t, -, m, -, rfl⟩ | ⟨sequence, items, found, known, member⟩
  · exact .member ..
  · exact sound type e cls resolves names sequence items found known v member

variable {raw streams : Streams}

theorem laidOut_drawn (program : IsProgram g raw streams)
    (linked : l.program = Program.ofStreams streams) (sound : l.SamplesHashed g) :
    g.LaidOut fun type frozen v => ∃ c, l.Drawn g c type frozen v := by
  rintro type frozen v ⟨c, drawn⟩
  obtain ⟨resolved, resolves, form⟩ := drawn.form program linked
  refine ⟨resolved, resolves, ?_⟩
  cases resolved with
  | primitive p => exact hashed_of_holds form
  | enum e =>
    obtain ⟨cls, names, sampled⟩ := form
    exact hashed_of_sampled sound resolves names sampled
  | list element =>
    obtain ⟨items, same, -, each⟩ := form
    exact ⟨items, same, fun w member => ⟨c, each w member⟩⟩
  | set element =>
    obtain ⟨hashes, items, answered, same, -, each⟩ := form
    exact ⟨hashes, items, answered, same, fun w member => ⟨c, each w member⟩⟩
  | map key value =>
    obtain ⟨hashes, entries, answered, same, -, each⟩ := form
    refine ⟨hashes, entries, ?_, same, fun entry member => ?_⟩
    · cases frozen with
      | true =>
        cases answered
        rfl
      | false => exact answered
    · obtain ⟨keyDrawn, valueDrawn⟩ := each entry member
      exact ⟨⟨c, keyDrawn⟩, ⟨c, valueDrawn⟩⟩
  | record r =>
    intro other declared sameName
    obtain ⟨cls, fields, same, hashable, each⟩ := form other declared sameName
    refine ⟨cls, fields, same, hashable, fun field member => ?_⟩
    rcases each field member with lacks | ⟨f, inFields, drawn⟩
    · exact .inl (hashed_of_lacks lacks)
    · exact .inr ⟨f, inFields, _, drawn⟩
  | constant _ => cases form
  | service _ => cases form

theorem keysHashed_of_drawn (program : IsProgram g raw streams)
    (linked : l.program = Program.ofStreams streams) (sound : l.SamplesHashed g)
    (drawn : l.Drawn g c type false v) : v.KeysHashed :=
  (laidOut_drawn program linked sound).keysHashed ⟨c, drawn⟩

theorem isHashable_enum (resolves : g.resolveType type = .ok (.enum e)) :
    g.isHashable type true = .ok true := by
  rw [Group.isHashable, Group.hashableFuel, Group.hashableWithin_succ, resolves]
  rfl

theorem draw_set_enum (resolves : g.resolveType type = .ok (.enum e))
    (names : g.classRef e.name = .ok cls) :
    g.draw (.set type) false =
      .ok (.support "set_of" [.apply (Ref.strategy "sampled_from") [.ref cls], .context]) := by
  obtain ⟨fuel, enough⟩ : ∃ fuel, g.typeFuel (.set type) = fuel + 2 :=
    ⟨g.typeFuel (.set type) - 2, by simp only [Group.typeFuel, FieldType.size]; omega⟩
  have resolvesSet : g.resolveType (.set type) = .ok (.set type) := rfl
  rw [Group.draw, enough, Group.drawWithin, resolvesSet]
  simp [bind, Except.bind, isHashable_enum resolves, drawWithin_enum resolves names, pure,
    Except.pure]

theorem draws_set_item {sequence item : Value} {items : List Value}
    (found : l.object cls = .ok (.value sequence)) (known : sequence.items? = some items)
    (member : item ∈ items) :
    l.DrawsFrom {} (.support "set_of" [.apply (Ref.strategy "sampled_from") [.ref cls], .context])
      (.set [item]) := by
  obtain ⟨part, means, drawn⟩ := draws_item found known member
  refine ⟨_, (meaning_unary setOf fun _ => rfl).mpr ⟨_, means, rfl⟩, ?_⟩
  have room : ((1 : Nat) : Int) ≤ Context.size {} := by decide
  exact .set room (by simpa using drawn) (by simp)

theorem samplesHashed_of_keysHashed
    (all : ∀ type e, g.draw type false = .ok e → ∀ c v, l.DrawsFrom c e v → v.KeysHashed) :
    l.SamplesHashed g := by
  intro type e cls resolves names sequence items found known item member
  have drawn := draws_set_item found known member
  have keys := all _ _ (draw_set_enum resolves names) _ _ drawn
  exact keys _ (.self _) item (List.mem_singleton_self item)

theorem samplesHashed_of_classesApart (program : IsProgram g raw streams)
    (linked : l.program = Program.ofStreams streams) (apart : streams.ClassesApart) :
    l.SamplesHashed g :=
  samples_of_classesApart program linked apart

/-- In the program of an accepted group, all elements and keys of all drawn values are hashable
    exactly if no constant with other items stands in the place of an enum class. -/
theorem drawn_keys_hashed_iff {directories : List String} {format : Bool} {world : World}
    {written : List String}
    (returned : ((Session.generate g directories format).run world).1 = .ok written) :
    ∃ streams, Stream.resolved g = .ok streams ∧ ∀ constants,
      ((∀ type e, g.draw type false = .ok e →
          ∀ c v, (streams.linked constants).DrawsFrom c e v → v.KeysHashed) ↔
        (streams.linked constants).SamplesHashed g) ∧
      (streams.ClassesApart → (streams.linked constants).SamplesHashed g) := by
  obtain ⟨streams, raw, accepted, program⟩ := isProgram_of_generate returned
  refine ⟨streams, accepted.resolved, fun constants => ⟨⟨samplesHashed_of_keysHashed, ?_⟩, ?_⟩⟩
  · intro sound type e made c v drawn
    exact keysHashed_of_drawn program rfl sound ⟨_, e, made, drawn⟩
  · exact samplesHashed_of_classesApart program rfl

end

/-- A struct that holds itself in the values of a map, whose keys are frozen sets of tuples of enum
    members. -/
def nestedGroup : Group where
  schemas := [(.text "m", {
    module := .text "m"
    enums := [("E", { name := "m.E", values := [("A", 1)] })]
    structs := [("S", {
      kind := .struct, name := "m.S"
      fields := [{
        name := .text "f", required := true
        type := .map (.set (.list (.ref "m.E"))) (.ref "m.S") }] })] })]

theorem nested_keys_hashed :
    ∃ streams, Stream.resolved nestedGroup = .ok streams ∧
      (∃ e, nestedGroup.draw (.set (.ref "m.S")) false = .ok e) ∧
      ∀ constants type e, nestedGroup.draw type false = .ok e →
        ∀ c v, (streams.linked constants).DrawsFrom c e v → v.KeysHashed := by
  obtain ⟨returns, apart, drawable⟩ : ((Session.generate nestedGroup ["a", "b"] false).run
        { working := "/" }).1.toOption.isSome ∧
      (∀ streams ∈ (Stream.resolved nestedGroup).toOption, streams.ClassesApart) ∧
      (nestedGroup.draw (.set (.ref "m.S")) false).toOption.isSome := by
    decide +kernel
  obtain ⟨written, returned⟩ := isSome_toOption.mp returns
  obtain ⟨streams, resolved, keys⟩ := drawn_keys_hashed_iff returned
  refine ⟨streams, resolved, isSome_toOption.mp drawable, fun constants => ?_⟩
  obtain ⟨exactly, sound⟩ := keys constants
  exact exactly.mpr (sound (apart streams (toOption_eq_some.mpr resolved)))

def holdsLists : Except Fault Run.Object → Bool
  | .ok (.value (.list [.list [.int 1], .list [.int 2]])) => true
  | _ => false

theorem eq_of_holdsLists {found : Except Fault Run.Object} (holds : holdsLists found) :
    found = .ok (.value (.list [.list [.int 1], .list [.int 2]])) := by
  unfold holdsLists at holds
  split at holds
  · rfl
  · cases holds

/-- The group is accepted and all its names differ, but the module has the constant where sets of
    the enum look for its class. The lists that are sampled there are not hashable. -/
theorem shadowed_sets_hold_lists :
    ((Session.generate tintGroup ["a", "b"] false).run { working := "/" }).1.toOption.isSome ∧
    (∀ e ∈ tintGroup.enums, ∀ entry ∈ tintGroup.schemas, ∀ c ∈ entry.2.constants.values,
      e.name ≠ c.name) ∧
    ∃ streams, Stream.resolved tintGroup = .ok streams ∧
      ∃ colors, (((Program.ofStreams streams).classOf "Art.Color").run {}).1 = .ok (.value colors) ∧
      ∃ e v, tintGroup.draw (.set (.ref "paint.Color")) false = .ok e ∧
        (streams.linked fun _ => .ok colors).DrawsFrom {} e v ∧ ¬ v.KeysHashed := by
  obtain ⟨accepted, streams, generated, runs, finds⟩ :
      ((Session.generate tintGroup ["a", "b"] false).run { working := "/" }).1.toOption.isSome ∧
      ∃ streams ∈ (Stream.resolved tintGroup).toOption,
        holdsLists (((Program.ofStreams streams).classOf "Art.Color").run {}).1 ∧
        holdsLists ((streams.linked fun _ => .ok (.list [.list [.int 1], .list [.int 2]])).object
          { module := "art.color", attr := "Color" }) := by
    decide +kernel
  have apart : ∀ e ∈ tintGroup.enums, ∀ entry ∈ tintGroup.schemas,
      ∀ c ∈ entry.2.constants.values, e.name ≠ c.name := by
    decide
  have named : (tintGroup.resolveType (.ref "paint.Color")).toOption.bind
      (fun resolved => (resolvedEnum resolved).map (·.name)) = some "paint.Color" := by
    decide +kernel
  have names : (tintGroup.classRef "paint.Color").toOption =
      some { module := "art.color", attr := "Color" } := by
    decide +kernel
  obtain ⟨declaration, resolves, named⟩ := Option.bind_eq_some_iff.mp named
  obtain ⟨e, isEnum, named⟩ := Option.map_eq_some_iff.mp named
  rw [toOption_eq_some, eq_of_resolvedEnum isEnum] at resolves
  rw [toOption_eq_some, ← named] at names
  refine ⟨accepted, apart, streams, toOption_eq_some.mp generated, _, eq_of_holdsLists runs, _, _,
    draw_set_enum resolves names,
    draws_set_item (eq_of_holdsLists finds) rfl (List.mem_cons_self ..), fun keys => ?_⟩
  cases keys _ (.self _) _ (List.mem_singleton_self _)

end Linking
end IdlGen
