import IdlGen.Proofs.DrawnForms

/-!
How deep instances are nested in drawn values. Every step into a record uses up one level of the
room that a context leaves (`Context.room`); then only chains of forced records go on
(`levels_drawn`).
-/
namespace IdlGen

open Run Outcome

variable {n : Nat} {r : Record} {streams raw : Streams}

namespace Value

mutual

def levels : Value → Nat
  | list items => levelsList items
  | tuple items => levelsList items
  | set items => levelsList items
  | frozenset items => levelsList items
  | dict entries => levelsEntries entries
  | record _ fields => levelsFields fields + 1
  | _ => 0

def levelsList : List Value → Nat
  | [] => 0
  | v :: rest => max (levels v) (levelsList rest)

def levelsEntries : List (Value × Value) → Nat
  | [] => 0
  | (k, v) :: rest => max (max (levels k) (levels v)) (levelsEntries rest)

def levelsFields : List (String × Value) → Nat
  | [] => 0
  | (_, v) :: rest => max (levels v) (levelsFields rest)

end

variable {v : Value}

theorem levelsList_le (items : List Value) (each : ∀ v ∈ items, v.levels ≤ n) :
    levelsList items ≤ n := by
  induction items with
  | nil => exact Nat.zero_le n
  | cons v rest ih =>
    obtain ⟨first, later⟩ := List.forall_mem_cons.mp each
    exact Nat.max_le.mpr ⟨first, ih later⟩

theorem levelsEntries_le (entries : List (Value × Value))
    (each : ∀ entry ∈ entries, entry.1.levels ≤ n ∧ entry.2.levels ≤ n) :
    levelsEntries entries ≤ n := by
  induction entries with
  | nil => exact Nat.zero_le n
  | cons entry rest ih =>
    obtain ⟨first, later⟩ := List.forall_mem_cons.mp each
    exact Nat.max_le.mpr ⟨Nat.max_le.mpr first, ih later⟩

theorem levelsFields_le (fields : List (String × Value))
    (each : ∀ field ∈ fields, field.2.levels ≤ n) : levelsFields fields ≤ n := by
  induction fields with
  | nil => exact Nat.zero_le n
  | cons field rest ih =>
    obtain ⟨first, later⟩ := List.forall_mem_cons.mp each
    exact Nat.max_le.mpr ⟨first, ih later⟩

theorem Collects.levels_le {items : List Value} (collects : v.Collects items)
    (each : ∀ w ∈ items, w.levels ≤ n) : v.levels ≤ n := by
  rcases collects with rfl | rfl | rfl | rfl
  all_goals exact levelsList_le items each

theorem Maps.levels_le {entries : List (Value × Value)} (maps : v.Maps entries)
    (each : ∀ entry ∈ entries, entry.1.levels ≤ n ∧ entry.2.levels ≤ n) : v.levels ≤ n := by
  have paired : levelsList (pairs entries) ≤ n := by
    refine levelsList_le _ fun pair member => ?_
    obtain ⟨entry, known, rfl⟩ := List.mem_map.mp member
    have both := each entry known
    exact levelsList_le _ (by simpa using both)
  rcases maps with rfl | rfl | rfl
  · exact levelsEntries_le entries each
  · exact paired
  · exact paired

end Value

namespace Group

/-- Drawing an instance of the first record can take an instance of the second, however little
    room there is: some field that is forced has exactly the second one as its type. -/
def Forces (g : Group) (r s : Record) : Prop :=
  r ∈ g.records ∧ ∃ f ∈ r.fields, r.Forces f ∧ g.resolveType f.type = .ok (.record s)

/-- Chains of forced records have at most so many edges. -/
def ForcedWithin (g : Group) (edges : Nat) : Prop :=
  ∀ path : List Record, path.IsChain g.Forces → path.length ≤ edges + 1

def PathsFrom (g : Group) (r : Record) (records : Nat) : Prop :=
  ∀ path : List Record, (r :: path).IsChain g.Forces → path.length + 1 ≤ records

variable {g : Group} {s : Record}

theorem ForcedWithin.pathsFrom (short : g.ForcedWithin n) (r : Record) : g.PathsFrom r (n + 1) :=
  fun path chain => short (r :: path) chain

theorem PathsFrom.pos (short : g.PathsFrom r n) : 1 ≤ n := short [] (.singleton r)

theorem PathsFrom.step (short : g.PathsFrom r n) (forces : g.Forces r s) :
    g.PathsFrom s (n - 1) := by
  intro path chain
  have longer := short (s :: path) (.cons_cons forces chain)
  rw [List.length_cons] at longer
  omega

theorem forcedWithin_of_rank (rank : Record → Nat) (low : ∀ r, rank r ≤ n)
    (falls : ∀ r s, g.Forces r s → rank s < rank r) : g.ForcedWithin n := by
  have general : ∀ (path : List Record) (r : Record), (r :: path).IsChain g.Forces →
      path.length ≤ rank r := by
    intro path
    induction path with
    | nil => exact fun _ _ => Nat.zero_le _
    | cons s rest ih =>
      intro r chain
      obtain ⟨forces, later⟩ := List.isChain_cons_cons.mp chain
      have shorter := ih s later
      have lower := falls r s forces
      rw [List.length_cons]
      omega
  intro path chain
  cases path with
  | nil => simp
  | cons r rest =>
    have short := general rest r chain
    have bound := low r
    rw [List.length_cons]
    omega

end Group

namespace Run.Context

def room (c : Context) : Nat := (c.maxDepth - c.depth).toNat

theorem exhausted_iff {c : Context} : c.exhausted ↔ c.room = 0 := by
  rw [exhausted, room, decide_eq_true_iff]
  omega

theorem room_descend (c : Context) : c.descend.room = c.room - 1 := by
  simp only [room, descend]
  omega

theorem eq_nil_of_size {α : Type} {c : Context} {items : List α} (noRoom : c.room = 0)
    (size : items.length ≤ c.size) : items = [] := by
  rw [Context.size, if_pos (exhausted_iff.mpr noRoom)] at size
  exact List.eq_nil_of_length_eq_zero (by omega)

end Run.Context

/-! ### Drawn values -/

namespace Linking

/-- The items of constants in the place of enum classes have at most so many levels. -/
def SamplesWithin (l : Linking) (g : Group) (levels : Nat) : Prop :=
  l.Samples g fun _ item => item.levels ≤ levels

def FewLevels (l : Linking) (g : Group) (edges sampled : Nat) (v : Value) : Prop :=
  ∀ c type frozen n, l.Drawn g c type frozen v →
    (∀ s, g.resolveType type = .ok (.record s) → g.PathsFrom s n) →
    v.levels ≤ (if c.room = 0 then n else c.room + edges) + sampled

variable {l : Linking} {g : Group} {c : Context} {v : Value} {edges sampled : Nat}

theorem levels_of_holds {p : Primitive} (holds : p.Holds c v) : v.levels = 0 := by
  rcases holds.scalar with ⟨_, rfl⟩ | ⟨_, rfl⟩ | ⟨_, rfl⟩ | ⟨_, rfl⟩ | ⟨_, rfl⟩
  all_goals rfl

theorem levels_of_lacks (lacks : r.Lacks v) : v.levels = 0 := by
  rcases lacks.leaf with rfl | ⟨_, rfl⟩ | ⟨_, rfl⟩ | ⟨_, rfl⟩
  all_goals rfl

theorem levels_populated (short : g.ForcedWithin edges) (declared : r ∈ g.records)
    (paths : g.PathsFrom r n) (populated : l.Populated g c r v)
    (parts : ∀ w ∈ v.parts, l.FewLevels g edges sampled w) :
    v.levels ≤ (if c.room = 0 then n else c.room + edges + 1) + sampled := by
  obtain ⟨cls, fields, -, -, -, rfl, -⟩ := id populated
  have inner : Value.levelsFields fields ≤
      (if c.room = 0 then n - 1 else c.room + edges) + sampled := by
    refine Value.levelsFields_le fields fun field member => ?_
    rcases populated.field member with lacks | ⟨f, inFields, forced, drawn⟩
    · rw [levels_of_lacks lacks]
      exact Nat.zero_le _
    · have few := parts field.2 (List.mem_map_of_mem member) c f.type false
      by_cases noRoom : c.room = 0
      · -- The field is forced, so the record of its type comes next on a path.
        have forces := forced.resolve_right (not_not_intro (Context.exhausted_iff.mpr noRoom))
        exact few _ drawn fun s resolves => paths.step ⟨declared, f, inFields, forces, resolves⟩
      · have bound := few _ drawn fun s _ => short.pathsFrom s
        rwa [if_neg noRoom] at bound ⊢
  have positive := paths.pos
  rw [Value.levels]
  split <;> simp_all only [↓reduceIte] <;> omega

theorem levels_drawn (program : IsProgram g raw streams)
    (linked : l.program = Program.ofStreams streams) (short : g.ForcedWithin edges)
    (samples : l.SamplesWithin g sampled) (v : Value) : l.FewLevels g edges sampled v := by
  induction v using Value.induction_on_size with
  | step v ih =>
    intro c type frozen n drawn paths
    obtain ⟨resolved, resolves, form⟩ := drawn.form program linked
    -- The parts of a container are drawn with the same room, and there are none without room.
    have within {α : Type} {items : List α} (size : items.length ≤ c.size) {item : α}
        (member : item ∈ items) : c.room ≠ 0 := by
      intro noRoom
      rw [Context.eq_nil_of_size noRoom size] at member
      cases member
    have part {w : Value} {element : FieldType} {hashes : Bool} (room : c.room ≠ 0)
        (smaller : sizeOf w < sizeOf v) (drawn : l.Drawn g c element hashes w) :
        w.levels ≤ (if c.room = 0 then n else c.room + edges) + sampled := by
      have bound := ih w smaller c element hashes _ drawn fun s _ => short.pathsFrom s
      rwa [if_neg room] at bound ⊢
    cases resolved with
    | primitive p =>
      rw [levels_of_holds form]
      exact Nat.zero_le _
    | enum e =>
      obtain ⟨cls, names, sampled⟩ := form
      rcases sampled with ⟨t, -, m, -, rfl⟩ | ⟨sequence, items, found, known, member⟩
      · exact Nat.zero_le _
      · exact Nat.le_add_left_of_le
          (samples type e cls resolves names sequence items found known v member)
    | list element =>
      obtain ⟨items, same, size, each⟩ := form
      have collects := Value.collects_list same
      exact collects.levels_le fun w member =>
        part (within size member) (collects.sizeOf_lt member) (each w member)
    | set element =>
      obtain ⟨hashes, items, -, same, size, each⟩ := form
      have collects := Value.collects_set same
      exact collects.levels_le fun w member =>
        part (within size member) (collects.sizeOf_lt member) (each w member)
    | map key value =>
      obtain ⟨hashes, entries, -, same, size, each⟩ := form
      have maps := Value.maps_map same
      refine maps.levels_le fun entry known => ?_
      obtain ⟨keySmaller, valueSmaller⟩ := maps.sizeOf_lt known
      obtain ⟨keyDrawn, valueDrawn⟩ := each entry known
      exact ⟨part (within size known) keySmaller keyDrawn,
        part (within size known) valueSmaller valueDrawn⟩
    | record r =>
      have populated := drawn.populated program linked resolves
      have declared := Group.declared_of_resolveType resolves
      have parts : ∀ w ∈ v.parts, l.FewLevels g edges sampled w := fun w member =>
        ih w (Value.sizeOf_part member)
      by_cases noRoom : c.room = 0
      · have bound := levels_populated short declared (paths r resolves) populated parts
        rw [Context.room_descend, if_pos (by omega)] at bound
        rwa [if_pos noRoom]
      · have bound := levels_populated short declared (short.pathsFrom r) populated parts
        rw [Context.room_descend] at bound
        rw [if_neg noRoom]
        split at bound <;> omega
    | constant _ => cases form
    | service _ => cases form

/-- What the companion of a record draws has at most as many levels as there is room for, one for
    the instance itself, and a path along forced records. -/
theorem levels_generated (program : IsProgram g raw streams)
    (linked : l.program = Program.ofStreams streams) (short : g.ForcedWithin edges)
    (samples : l.SamplesWithin g sampled) (declared : r ∈ g.records) {output : String}
    (named : g.outputName r.name = .ok output) (generated : l.Generates output c v) :
    v.levels ≤ c.room + 1 + edges + sampled := by
  have populated := populated_of_generates program linked declared named generated
  have parts : ∀ w ∈ v.parts, l.FewLevels g edges sampled w := fun w _ =>
    levels_drawn program linked short samples w
  have bound := levels_populated short declared (short.pathsFrom r) populated parts
  split at bound <;> omega

end Linking

/-- In the program of an accepted group whose paths along forced records are short, what a companion
    draws has no more nested instances than there is room for, one, the longest path, and what is
    sampled where a constant stands in the place of an enum class. -/
theorem generated_levels_le {g : Group} {directories : List String} {format : Bool} {world : World}
    {written : List String} {edges : Nat}
    (returned : ((Session.generate g directories format).run world).1 = .ok written)
    (short : g.ForcedWithin edges) :
    ∃ streams, Stream.resolved g = .ok streams ∧ ∀ constants,
      (∀ sampled, (streams.linked constants).SamplesWithin g sampled →
        ∀ r ∈ g.records, ∀ output, g.outputName r.name = .ok output →
          ∀ c v, (streams.linked constants).Generates output c v →
            v.levels ≤ c.room + 1 + edges + sampled) ∧
      (streams.ClassesApart → (streams.linked constants).SamplesWithin g 0) := by
  obtain ⟨streams, raw, accepted, program⟩ := isProgram_of_generate returned
  refine ⟨streams, accepted.resolved, fun constants => ⟨?_, ?_⟩⟩
  · intro sampled samples r declared output named c v generated
    exact Linking.levels_generated program rfl short samples declared named generated
  · intro apart
    have linked : (streams.linked constants).program = Program.ofStreams streams := rfl
    exact Linking.samples_of_classesApart program linked apart

/-- Trips to a stop, which may go on. A stop has a number, or is a list of trips on the way. -/
def tripGroup : Group where
  schemas := [(.text "m", {
    module := .text "m"
    structs := [("Trip", {
      kind := .struct, name := "m.Trip"
      fields := [
        { name := .text "to", type := .ref "m.Stop", required := true },
        { name := .text "on", type := .ref "m.Trip" }] })]
    unions := [("Stop", {
      kind := .union, name := "m.Stop"
      fields := [
        { name := .text "no", type := .primitive .i32 },
        { name := .text "by", type := .list (.ref "m.Trip") }] })] })]

theorem tripGroup_checked :
    ((Session.generate tripGroup ["", ""] false).run { working := "/" }).1.toOption.isSome ∧
      ∀ streams ∈ (Stream.resolved tripGroup).toOption, streams.ClassesApart := by
  decide +kernel

theorem tripGroup_accepted : ∃ written,
    ((Session.generate tripGroup ["", ""] false).run { working := "/" }).1 = .ok written :=
  isSome_toOption.mp tripGroup_checked.1

theorem tripGroup_classesApart (resolved : Stream.resolved tripGroup = .ok streams) :
    streams.ClassesApart :=
  tripGroup_checked.2 streams (toOption_eq_some.mpr resolved)

def resolvedRecord? : Group.Resolved → Option Record
  | .record r => some r
  | _ => none

theorem tripGroup_forcedWithin : tripGroup.ForcedWithin 1 := by
  have edges : ∀ r ∈ tripGroup.records, ∀ f ∈ r.fields, r.Forces f →
      ∀ s ∈ (tripGroup.resolveType f.type).toOption.bind resolvedRecord?,
        r.name = "m.Trip" ∧ s.name = "m.Stop" := by
    decide +kernel
  refine Group.forcedWithin_of_rank (fun r => if r.name = "m.Trip" then 1 else 0) ?_ ?_
  · intro r
    split <;> decide
  · rintro r s ⟨declared, f, inFields, forced, resolves⟩
    obtain ⟨fromTrip, toStop⟩ := edges r declared f inFields forced s (by
      rw [resolves]
      rfl)
    simp [fromTrip, toStop]

theorem trip_levels_le :
    ∃ streams, Stream.resolved tripGroup = .ok streams ∧
      ∀ constants c v, (streams.linked constants).Generates "Trip" c v → v.levels ≤ c.room + 2 := by
  have named : ∃ r ∈ tripGroup.records,
      (tripGroup.outputName r.name).toOption = some "Trip" := by
    decide +kernel
  obtain ⟨written, returned⟩ := tripGroup_accepted
  obtain ⟨streams, resolved, levels⟩ := generated_levels_le returned tripGroup_forcedWithin
  obtain ⟨r, declared, outputName⟩ := named
  refine ⟨streams, resolved, fun constants c v generated => ?_⟩
  obtain ⟨bound, nothing⟩ := levels constants
  have samples := nothing (tripGroup_classesApart resolved)
  exact bound 0 samples r declared "Trip" (toOption_eq_some.mp outputName) c v generated

/-- Pots of a color, and a constant that is written to the module of the colors, under the name of
    their class. It holds a pot. -/
def potGroup : Group where
  schemas := [(.text "color", {
    module := .text "color"
    enums := [("color", { name := "color.color", values := [("RED", 1)] })]
    structs := [("Pot", {
      kind := .struct, name := "color.Pot"
      fields := [{ name := .text "of", type := .ref "color.color", required := true }] })]
    constants := [("Color", {
      name := "color.Color", type := .list (.ref "color.Pot"), value := .list [.dict []] })] })]

def potType : RecordType := { cls := { name := "Pot" }, fields := [("of", .null)] }

def potOf (v : Value) : Value := .record potType.cls [("of", v)]

def holdsPot : Except Fault Run.Object → Bool
  | .ok (.value (.list [.record { name := "Pot", hashable := true, label := .output }
      [("of", .null)]])) => true
  | _ => false

variable {found : Except Fault Run.Object}

theorem eq_of_holdsPot (holds : holdsPot found) : found = .ok (.value (.list [potOf .null])) := by
  unfold holdsPot at holds
  split at holds
  · rfl
  · cases holds

def isPot : RecordType → Bool
  | ⟨{ name := "Pot", hashable := true, label := .output }, [("of", .null)], [], none⟩ => true
  | _ => false

theorem eq_of_isPot {t : RecordType} (holds : isPot t) : t = potType := by
  unfold isPot at holds
  split at holds
  · rfl
  · cases holds

def foundRecord? : Except Fault Run.Object → Option RecordType
  | .ok (.record t) => some t
  | _ => none

theorem eq_of_foundRecord? {t : RecordType} (known : foundRecord? found = some t) :
    found = .ok (.record t) := by
  unfold foundRecord? at known
  split at known <;> cases known
  rfl

def buildsSampled (cls : Ref) (attr : String) (owner : Ref) : Expr → Bool
  | .letAll (.ref r) [(name, .call (.ref s) [.ref o] [])] =>
    r = cls && name = attr && s = Ref.strategy "sampled_from" && o = owner
  | _ => false

theorem eq_of_buildsSampled {cls owner : Ref} {attr : String} {e : Expr}
    (holds : buildsSampled cls attr owner e) :
    e = .letAll (.ref cls) [(attr, .apply (Ref.strategy "sampled_from") [.ref owner])] := by
  unfold buildsSampled at holds
  split at holds
  · simp only [Bool.and_eq_true, decide_eq_true_eq] at holds
    obtain ⟨⟨⟨rfl, rfl⟩, rfl⟩, rfl⟩ := holds
    rfl
  · cases holds

theorem potGroup_checked :
    ((Session.generate potGroup ["", ""] false).run { working := "/" }).1.toOption.isSome ∧
      ∃ streams ∈ (Stream.resolved potGroup).toOption,
        holdsPot (((Program.ofStreams streams).classOf "Color").run {}).1 ∧
        holdsPot ((streams.linked fun _ => .ok (.list [potOf .null])).object
          { module := "color", attr := "Color" }) ∧
        (foundRecord? ((streams.linked fun _ => .ok (.list [potOf .null])).object
          { module := "pot", attr := "Pot" })).any isPot ∧
        ((streams.linked fun _ => .ok (.list [potOf .null])).recordType? potType.cls).any isPot ∧
        ((Program.ofStreams streams).located? (Program.companionPath "Pot")).any fun found =>
          found.1.strategy?.any (buildsSampled { module := "pot", attr := "Pot" } "of"
            { module := "color", attr := "Color" }) := by
  decide +kernel

/-- The constant is found in the place of the class of colors, so pots are drawn with pots. -/
theorem pot_generates :
    ∃ streams, Stream.resolved potGroup = .ok streams ∧
      (((Program.ofStreams streams).classOf "Color").run {}).1 =
        .ok (.value (.list [potOf .null])) ∧
      ∀ c, (streams.linked fun _ => .ok (.list [potOf .null])).Generates "Pot" c
        (potOf (potOf .null)) := by
  obtain ⟨-, streams, generated, runs, color, cls, type, located⟩ := potGroup_checked
  refine ⟨streams, toOption_eq_some.mp generated, eq_of_holdsPot runs, fun c => ?_⟩
  obtain ⟨t, isRecord, isClass⟩ := (Option.any_eq_true ..).mp cls
  obtain ⟨own, recordType, isType⟩ := (Option.any_eq_true ..).mp type
  obtain ⟨⟨o, id⟩, here, strategy⟩ := (Option.any_eq_true ..).mp located
  obtain ⟨e, returned, builds⟩ := (Option.any_eq_true ..).mp strategy
  rw [eq_of_isPot isClass] at isRecord
  rw [eq_of_isPot isType] at recordType
  rw [eq_of_buildsSampled builds] at returned
  have item := Linking.draws_item (c := c) (eq_of_holdsPot color) rfl (List.mem_singleton_self _)
  exact ⟨o, id, _, here, returned, Linking.draws_builds_one (eq_of_foundRecord? isRecord)
    (by decide) recordType item rfl⟩

/-- No record of the group forces another, but a pot in a pot can be drawn where there is no
    room. -/
theorem pot_exceeds_levels :
    ((Session.generate potGroup ["", ""] false).run { working := "/" }).1.toOption.isSome ∧
    potGroup.ForcedWithin 0 ∧
    ∃ streams, Stream.resolved potGroup = .ok streams ∧
      ∃ colors, (((Program.ofStreams streams).classOf "Color").run {}).1 = .ok (.value colors) ∧
      ∃ v, (streams.linked fun _ => .ok colors).Generates "Pot" { maxDepth := 0 } v ∧
        ¬ v.levels ≤ Context.room { maxDepth := 0 } + 1 + 0 := by
  have free : ∀ r ∈ potGroup.records, ∀ f ∈ r.fields, r.Forces f →
      ((potGroup.resolveType f.type).toOption.bind resolvedRecord?).isNone := by
    decide +kernel
  obtain ⟨streams, resolved, colors, draws⟩ := pot_generates
  refine ⟨potGroup_checked.1, ?_, streams, resolved, _, colors, _, draws _, by decide⟩
  refine Group.forcedWithin_of_rank (fun _ => 0) (fun _ => le_rfl) ?_
  rintro r s ⟨declared, f, inFields, forced, resolves⟩
  have none := free r declared f inFields forced
  rw [resolves] at none
  cases none

end IdlGen
