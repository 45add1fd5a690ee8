import IdlGen.Proofs.Tables
import IdlGen.Stream.Collision

/-!
Resolving a stream. The table of a stream holds under each name the fold of the outputs of that
name alone (`Folded`), for every interleaving, so a stream is resolved or refused name by name.
-/
namespace IdlGen

def Output.isType (o : Output) : Bool := !o.isConstant

namespace Stream

/-- The outputs of a stream that have a name, in their order. -/
def under (name : String) (stream : List Named) : List Output :=
  (stream.filter fun named => named.1 = name).map (·.2)

/-- Outputs of one name that can be one output: a single one, or exactly one that declares
    types, which is the first or the second. -/
def Mergeable (outputs : List Output) : Prop :=
  outputs.length = 1 ∨
    (outputs.countP Output.isType = 1 ∧ ∃ o ∈ outputs.take 2, o.isType)

/-- The outputs under each name can be merged into one. -/
def Resolvable (stream : List Named) : Prop :=
  ∀ name ∈ stream.map (·.1), Mergeable (under name stream)

/-- The outputs merged one after another, if they can be. -/
def mergeAll? : List Output → Option Output
  | [] => none
  | first :: rest => rest.foldlM Output.merge? first

variable {first second merged : Output} {outputs : List Output} {name : String}
  {stream : List Named} {done : Table Output}

theorem merge?_of_type (type : first.isType) :
    first.merge? second = if second.isType then none else
      some { first with
        imports := (first.imports ++ second.imports).eraseDups
        typeImports := (first.typeImports ++ second.typeImports).eraseDups
        body := first.body ++ second.body } := by
  have constant : first.isConstant = false := by simpa [Output.isType] using type
  by_cases other : second.isConstant
  · simp [Output.merge?, Output.isType, constant, other, firstOccurrences_eq]
  · simp [Output.merge?, Output.isType, constant, other]

theorem merge?_of_constant (constant : first.isType = false) :
    first.merge? second = if second.isType then
      some { second with
        imports := (first.imports ++ second.imports).eraseDups
        typeImports := (first.typeImports ++ second.typeImports).eraseDups
        body := first.body ++ second.body }
      else none := by
  have declares : first.isConstant = true := by simpa [Output.isType] using constant
  by_cases other : second.isConstant
  · simp [Output.merge?, Output.isType, declares, other]
  · simp [Output.merge?, Output.isType, declares, other, firstOccurrences_eq]

/-- If only one of several outputs declares types, all that no other output has is its own. -/
theorem flatMap_of_isType {β : Type} {part : Output → List β} {type : Output}
    (types : outputs.filter Output.isType = [type])
    (plain : ∀ o ∈ outputs, o.isType ∨ part o = []) : outputs.flatMap part = part type := by
  have general : outputs.flatMap part = (outputs.filter Output.isType).flatMap part := by
    clear types
    induction outputs with
    | nil => rfl
    | cons o rest ih =>
      have later := ih fun o member => plain o (List.mem_cons_of_mem _ member)
      by_cases isType : o.isType
      · simp [isType, later]
      · simp [isType, later, (plain o (List.mem_cons_self ..)).resolve_left isType]
  rw [general, types, List.flatMap_singleton]

def gathered (type : Output) (outputs : List Output) : Output :=
  { type with
    imports := (outputs.flatMap (·.imports)).eraseDups
    typeImports := (outputs.flatMap (·.typeImports)).eraseDups
    body := outputs.flatMap (·.body) }

theorem foldlM_merge?_of_type {type : Output} (isType : type.isType) (rest : List Output) :
    rest.foldlM Output.merge? type =
      if rest.any Output.isType then none
      else if rest = [] then some type
      else some (gathered type (type :: rest)) := by
  induction rest generalizing type with
  | nil => simp
  | cons next rest ih =>
    rw [List.foldlM_cons, merge?_of_type isType]
    by_cases nextType : next.isType
    · simp [nextType]
    · have merged := @ih { type with
        imports := (type.imports ++ next.imports).eraseDups
        typeImports := (type.typeImports ++ next.typeImports).eraseDups
        body := type.body ++ next.body } isType
      simp only [nextType, Bool.false_eq_true, ↓reduceIte, Option.bind_eq_bind, Option.bind_some,
        merged, List.any_cons, Bool.false_or, reduceCtorEq]
      by_cases later : rest.any Output.isType
      · simp [later]
      · by_cases last : rest = []
        · simp [last, gathered]
        · simp [later, last, gathered, eraseDups_eraseDups_append]

theorem mergeAll?_of_type {type : Output} (isType : type.isType) (rest : List Output) :
    mergeAll? (type :: rest) =
      if rest.any Output.isType then none
      else if rest = [] then some type
      else some (gathered type (type :: rest)) :=
  foldlM_merge?_of_type isType rest

theorem mergeAll?_of_constant (constant : first.isType = false) (rest : List Output) :
    mergeAll? (first :: second :: rest) =
      if second.isType ∧ ¬ rest.any Output.isType then
        some (gathered second (first :: second :: rest))
      else none := by
  rw [mergeAll?, List.foldlM_cons, merge?_of_constant constant]
  by_cases secondType : second.isType
  · have merged := @foldlM_merge?_of_type { second with
      imports := (first.imports ++ second.imports).eraseDups
      typeImports := (first.typeImports ++ second.typeImports).eraseDups
      body := first.body ++ second.body } secondType rest
    simp only [secondType, ↓reduceIte, Option.bind_eq_bind, Option.bind_some, merged, true_and]
    by_cases later : rest.any Output.isType
    · simp [later]
    · by_cases last : rest = []
      · simp [last, gathered]
      · simp [later, last, gathered, eraseDups_eraseDups_append]
  · simp [secondType]

theorem countP_isType_eq_zero_iff (outputs : List Output) :
    outputs.countP Output.isType = 0 ↔ ¬ outputs.any Output.isType := by
  simp [List.countP_eq_zero]

theorem mergeAll?_isSome_iff (outputs : List Output) :
    (mergeAll? outputs).isSome ↔ Mergeable outputs := by
  match outputs with
  | [] => simp [mergeAll?, Mergeable]
  | [only] => simp [mergeAll?, Mergeable]
  | first :: second :: rest =>
    have several : (first :: second :: rest).length ≠ 1 := by simp
    by_cases firstType : first.isType
    · rw [mergeAll?_of_type firstType, Mergeable, List.countP_cons_of_pos firstType,
        Nat.add_eq_right, countP_isType_eq_zero_iff]
      by_cases others : (second :: rest).any Output.isType
      · simp [others]
      · simp [others, firstType]
    · have constant : first.isType = false := by simpa using firstType
      rw [mergeAll?_of_constant constant, Mergeable, List.countP_cons_of_neg firstType]
      by_cases secondType : second.isType
      · rw [List.countP_cons_of_pos secondType, Nat.add_eq_right, countP_isType_eq_zero_iff]
        by_cases others : rest.any Output.isType
        · simp [others]
        · simp [others, secondType]
      · simp [firstType, secondType]

/-- The fold of several outputs is known as the only one that declares types, and holds the
    imports and declarations of all of them. -/
theorem mergeAll?_eq (folds : mergeAll? outputs = some merged) :
    outputs = [merged] ∨
      (2 ≤ outputs.length ∧ ∃ type, outputs.filter Output.isType = [type] ∧
        merged = gathered type outputs) := by
  have noTypes {rest : List Output} (none : ¬ rest.any Output.isType) :
      rest.filter Output.isType = [] := by simpa using none
  match outputs with
  | [] => simp [mergeAll?] at folds
  | [only] =>
    left
    simpa [mergeAll?] using folds
  | first :: second :: rest =>
    right
    refine ⟨by simp, ?_⟩
    by_cases firstType : first.isType
    · rw [mergeAll?_of_type firstType] at folds
      by_cases others : (second :: rest).any Output.isType
      · simp [others] at folds
      · rw [if_neg others, if_neg (List.cons_ne_nil second rest), Option.some_inj] at folds
        refine ⟨first, ?_, folds.symm⟩
        rw [List.filter_cons_of_pos firstType, noTypes others]
    · have constant : first.isType = false := by simpa using firstType
      rw [mergeAll?_of_constant constant] at folds
      by_cases accepted : second.isType ∧ ¬ rest.any Output.isType
      · rw [if_pos accepted, Option.some_inj] at folds
        refine ⟨second, ?_, folds.symm⟩
        rw [List.filter_cons_of_neg firstType, List.filter_cons_of_pos accepted.1,
          noTypes accepted.2]
      · rw [if_neg accepted] at folds
        cases folds

theorem mergeAll?_concat (nonempty : outputs ≠ []) (last : Output) :
    mergeAll? (outputs ++ [last]) = (mergeAll? outputs).bind (·.merge? last) := by
  obtain ⟨first, rest, rfl⟩ := List.exists_cons_of_ne_nil nonempty
  simp [mergeAll?]

theorem mergeable_of_append {more : List Output} (nonempty : outputs ≠ [])
    (mergeable : Mergeable (outputs ++ more)) : Mergeable outputs := by
  rw [← mergeAll?_isSome_iff] at mergeable ⊢
  obtain ⟨first, rest, rfl⟩ := List.exists_cons_of_ne_nil nonempty
  rw [List.cons_append, mergeAll?, List.foldlM_append] at mergeable
  exact Option.isSome_of_isSome_bind mergeable

/-! ### Folding a stream -/

theorem under_append (name : String) (stream more : List Named) :
    under name (stream ++ more) = under name stream ++ under name more := by
  simp [under]

theorem under_concat_self (name : String) (stream : List Named) (output : Output) :
    under name (stream ++ [(name, output)]) = under name stream ++ [output] := by
  simp [under]

theorem under_concat_other {other : String} (away : name ≠ other) (stream : List Named)
    (output : Output) : under other (stream ++ [(name, output)]) = under other stream := by
  simp [under, away]

theorem under_eq_nil_iff (name : String) (stream : List Named) :
    under name stream = [] ↔ name ∉ stream.map (·.1) := by
  simp only [under, List.map_eq_nil_iff, List.filter_eq_nil_iff, decide_eq_true_eq, List.mem_map,
    not_exists, not_and]

theorem mem_under_iff {output : Output} : output ∈ under name stream ↔ (name, output) ∈ stream := by
  simp [under]

structure Folded (stream : List Named) (done : Table Output) : Prop where
  keys : done.keys = (stream.map (·.1)).eraseDups
  values : ∀ name, done.get? name = mergeAll? (under name stream)

theorem Folded.nil : Folded [] [] := ⟨rfl, fun _ => rfl⟩

theorem Folded.mem_keys (folded : Folded stream done) (name : String) :
    name ∈ done.keys ↔ name ∈ stream.map (·.1) := by
  rw [folded.keys, List.mem_eraseDups]

theorem Folded.distinct (folded : Folded stream done) : done.keys.Nodup := by
  rw [folded.keys]
  exact nodup_eraseDups _

theorem Folded.fold_of_mem (folded : Folded stream done) {unit : Output}
    (member : (name, unit) ∈ done) : mergeAll? (under name stream) = some unit := by
  rw [← folded.values]
  exact Table.get?_of_mem folded.distinct member

theorem Folded.resolvable (folded : Folded stream done) : Resolvable stream := by
  intro name member
  rw [← mergeAll?_isSome_iff, ← folded.values, Table.get?_isSome_iff, folded.mem_keys]
  exact member

theorem Folded.put (folded : Folded stream done) {output : Output}
    (fold : mergeAll? (under name stream ++ [output]) = some merged) :
    Folded (stream ++ [(name, output)]) (done.put name merged) := by
  constructor
  · rw [List.map_append, List.map_singleton]
    by_cases known : name ∈ stream.map (·.1)
    · rw [Table.keys_put_of_mem _ ((folded.mem_keys name).mpr known), folded.keys,
        eraseDups_concat_of_mem known]
    · rw [Table.keys_put_of_not_mem _ (mt (folded.mem_keys name).mp known), folded.keys,
        eraseDups_concat_of_not_mem known]
  · intro other
    rw [Table.get?_put]
    by_cases same : other = name
    · subst same
      rw [if_pos rfl, under_concat_self, fold]
    · rw [if_neg same, under_concat_other (Ne.symm same), folded.values]

def Answers (stream : List Named) : Except Collision (Table Output) → Prop
  | .ok done => Folded stream done
  | .error c => ∃ before after done, stream = before ++ (c.name, c.second) :: after ∧
      Folded before done ∧ done.get? c.name = some c.first ∧ c.first.merge? c.second = none

theorem resolveFrom_answers (rest : List Named) {seen : List Named} (folded : Folded seen done) :
    Answers (seen ++ rest) (resolveFrom done rest) := by
  induction rest generalizing seen done with
  | nil => simpa [resolveFrom, Answers] using folded
  | cons named rest ih =>
    obtain ⟨name, output⟩ := named
    have moved : seen ++ (name, output) :: rest = (seen ++ [(name, output)]) ++ rest := by simp
    rw [resolveFrom]
    cases found : done.get? name with
    | none =>
      have first : under name seen = [] := by
        rwa [under_eq_nil_iff, ← folded.mem_keys, ← Table.get?_eq_none_iff]
      rw [moved]
      exact ih (folded.put (by rw [first]; rfl))
    | some existing =>
      have fold : mergeAll? (under name seen) = some existing := by rw [← folded.values, found]
      simp only
      cases merges : existing.merge? output with
      | none => exact ⟨seen, rest, done, rfl, folded, found, merges⟩
      | some merged =>
        have nonempty : under name seen ≠ [] := by
          intro empty
          rw [empty] at fold
          cases fold
        rw [moved]
        exact ih (folded.put (by rw [mergeAll?_concat nonempty, fold, Option.bind_some, merges]))

theorem resolve_answers (stream : List Named) : Answers stream (resolve stream) :=
  resolveFrom_answers stream Folded.nil

theorem Resolvable.of_append {more : List Named} (resolvable : Resolvable (stream ++ more)) :
    Resolvable stream := by
  intro name member
  have nonempty : under name stream ≠ [] :=
    mt (under_eq_nil_iff name stream).mp (not_not.mpr member)
  have all := resolvable name (by rw [List.map_append]; exact List.mem_append_left _ member)
  rw [under_append] at all
  exact mergeable_of_append nonempty all

theorem Resolvable.take (resolvable : Resolvable stream) (n : Nat) :
    Resolvable (stream.take n) := by
  have whole : Resolvable (stream.take n ++ stream.drop n) := by rwa [List.take_append_drop]
  exact whole.of_append

theorem not_resolvable_concat {before : List Named}
    (fold : mergeAll? (under name before) = some first) (clash : first.merge? second = none) :
    ¬ Resolvable (before ++ [(name, second)]) := by
  intro resolvable
  have nonempty : under name before ≠ [] := by
    intro empty
    rw [empty] at fold
    cases fold
  have mergeable := resolvable name (by simp)
  rw [under_concat_self, ← mergeAll?_isSome_iff, mergeAll?_concat nonempty, fold, Option.bind_some,
    clash] at mergeable
  cases mergeable

theorem resolve_isOk_iff (stream : List Named) :
    (∃ units, resolve stream = .ok units) ↔ Resolvable stream := by
  have answers := resolve_answers stream
  constructor
  · rintro ⟨units, done⟩
    rw [done] at answers
    exact Folded.resolvable answers
  · intro resolvable
    cases outcome : resolve stream with
    | ok units => exact ⟨units, rfl⟩
    | error c =>
      rw [outcome] at answers
      obtain ⟨before, after, done, split, folded, found, clash⟩ := answers
      rw [folded.values] at found
      have whole : Resolvable ((before ++ [(c.name, c.second)]) ++ after) := by
        simpa [split] using resolvable
      exact absurd whole.of_append (not_resolvable_concat found clash)

/-- The generator of a fold is that of its only output of types, or of the single output of
    constants. -/
theorem generator_of_fold (fold : mergeAll? outputs = some merged) :
    (∃ type, outputs.filter Output.isType = [type] ∧ merged.generator = type.generator) ∨
      ∃ constants, outputs = [constants] ∧ constants.isConstant ∧
        merged.generator = constants.generator := by
  rcases mergeAll?_eq fold with only | ⟨-, type, types, rfl⟩
  · by_cases constant : merged.isConstant
    · exact .inr ⟨merged, only, constant, rfl⟩
    · exact .inl ⟨merged, by simp [only, Output.isType, constant], rfl⟩
  · exact .inl ⟨type, types, rfl⟩

/-- A stream is resolved exactly if the outputs of every name are mergeable. Otherwise no
    outputs are given, and the collision is found at the earliest position whose prefix is not
    resolvable: between the output there and the fold of those of its name before it. -/
theorem resolve_stops_at_first_violation (stream : List Named) :
    ((∃ units, resolve stream = .ok units) ↔ Resolvable stream) ∧
    ∀ c, resolve stream = .error c →
      (resolve stream).toOption = none ∧
      ∃ i, stream[i]? = some (c.name, c.second) ∧
        (∀ n ≤ i, Resolvable (stream.take n)) ∧ ¬ Resolvable (stream.take (i + 1)) ∧
        mergeAll? (under c.name (stream.take i)) = some c.first ∧
        ((∃ type, (under c.name (stream.take i)).filter Output.isType = [type] ∧
            c.first.generator = type.generator) ∨
          ∃ constants, under c.name (stream.take i) = [constants] ∧ constants.isConstant ∧
            c.first.generator = constants.generator) := by
  refine ⟨resolve_isOk_iff stream, fun c failed => ⟨by rw [failed]; rfl, ?_⟩⟩
  have answers := resolve_answers stream
  rw [failed] at answers
  obtain ⟨before, after, done, split, folded, found, clash⟩ := answers
  have fold : mergeAll? (under c.name before) = some c.first := by rw [← folded.values, found]
  have prior : stream.take before.length = before := by simp [split]
  have here : stream.take (before.length + 1) = before ++ [(c.name, c.second)] := by
    rw [split, List.take_length_add_append, List.take_succ_cons, List.take_zero]
  refine ⟨before.length, by simp [split], ?_, ?_, ?_, ?_⟩
  · intro n bound
    have nested : stream.take n = before.take n := by
      rw [← prior, List.take_take, Nat.min_eq_left bound]
    rw [nested]
    exact folded.resolvable.take n
  · rw [here]
    exact not_resolvable_concat fold clash
  · rw [prior]
    exact fold
  · rw [prior]
    exact generator_of_fold fold

/-- Constants and a struct of one name around another struct, then more constants and a union
    of the first name. -/
def clashing : List Named :=
  [("Geo.Point", { name := "Geo.Point", kind := .constants, generator := "constant" }),
    ("Geo.Line", { name := "Geo.Line" }),
    ("Geo.Point", { name := "Geo.Point" }),
    ("Geo.Point", { name := "Geo.Point", kind := .constants, generator := "constant" }),
    ("Geo.Point", { name := "Geo.Point", generator := "union" })]

/-- The union is refused against the struct into which the constants before it were merged. -/
theorem clashing_stops_at_union :
    ¬ Resolvable clashing ∧
    ∃ c, resolve clashing = .error c ∧ ∃ i, clashing[i]? = some (c.name, c.second) ∧
      (∀ n ≤ i, Resolvable (clashing.take n)) ∧ ¬ Resolvable (clashing.take (i + 1)) ∧
      mergeAll? (under c.name (clashing.take i)) = some c.first := by
  obtain ⟨accepts, stops⟩ := resolve_stops_at_first_violation clashing
  have failed : resolve clashing = .error {
      name := "Geo.Point"
      first := { name := "Geo.Point" }
      second := { name := "Geo.Point", generator := "union" } } := by rfl
  obtain ⟨-, i, here, earlier, violated, fold, -⟩ := stops _ failed
  refine ⟨?_, _, failed, i, here, earlier, violated, fold⟩
  rintro resolvable
  obtain ⟨units, done⟩ := accepts.mpr resolvable
  rw [failed] at done
  cases done

/-- The resolved outputs have each name once, in order of first occurrence. The output of a name
    depends on the outputs of that name alone: it is the single one, or the only one that
    declares types with the imports of all of them, each once; no declaration is lost, repeated
    or moved. -/
theorem resolve_gathers_each_name (stream units : List Named)
    (resolved : resolve stream = .ok units) :
    (units.map (·.1)).Nodup ∧ units.map (·.1) = (stream.map (·.1)).eraseDups ∧
    ∀ name unit, (name, unit) ∈ units →
      mergeAll? (under name stream) = some unit ∧
      unit.body = (under name stream).flatMap (·.body) ∧
      (2 ≤ (under name stream).length →
        unit.imports = ((under name stream).flatMap (·.imports)).eraseDups ∧
        unit.typeImports = ((under name stream).flatMap (·.typeImports)).eraseDups ∧
        ∃ type, (under name stream).filter Output.isType = [type] ∧ unit.name = type.name ∧
          unit.kind = type.kind ∧ unit.generator = type.generator ∧
          unit.docstring = type.docstring) ∧
      ∀ only, under name stream = [only] → unit = only := by
  have folded : Folded stream units := by
    have answers := resolve_answers stream
    rwa [resolved] at answers
  refine ⟨folded.distinct, folded.keys, fun name unit member => ?_⟩
  have fold := folded.fold_of_mem member
  refine ⟨fold, ?_⟩
  rcases mergeAll?_eq fold with single | ⟨several, type, types, rfl⟩
  · rw [single]
    refine ⟨by simp, fun several => absurd several (by simp), ?_⟩
    intro only same
    exact (List.singleton_inj.mp same)
  · refine ⟨rfl, fun _ => ⟨rfl, rfl, type, types, rfl, rfl, rfl, rfl⟩, ?_⟩
    intro only single
    rw [single] at several
    simp at several

/-- A stream whose names alternate, with constants before and after a struct that shares
    imports with them. -/
def alternating : List Named :=
  [("Geo.Point", { name := "Geo.Geo", kind := .constants, imports := ["import a", "import b"]
                   body := [.source "X = 1"] }),
    ("Geo.Line", { name := "Geo.Line" }),
    ("Geo.Point", { name := "Geo.Point", imports := ["import b", "import c"]
                    body := [.source "class Point: ..."] }),
    ("Geo.Point", { name := "Geo.Geo", kind := .constants, imports := ["import a"]
                    body := [.source "Y = 2"] })]

theorem alternating_gathers_each_name :
    ∃ units, resolve alternating = .ok units ∧ units.map (·.1) = ["Geo.Point", "Geo.Line"] ∧
      ∃ point, ("Geo.Point", point) ∈ units ∧ point.name = "Geo.Point" ∧
        point.imports = ["import a", "import b", "import c"] ∧
        point.body = (under "Geo.Point" alternating).flatMap (·.body) := by
  have done : resolve alternating = .ok
      [("Geo.Point", { name := "Geo.Point", imports := ["import a", "import b", "import c"]
                       body := [.source "X = 1", .source "class Point: ...", .source "Y = 2"] }),
        ("Geo.Line", { name := "Geo.Line" })] := by rfl
  obtain ⟨-, -, gathers⟩ := resolve_gathers_each_name alternating _ done
  obtain ⟨-, body, -, -⟩ := gathers "Geo.Point" _ (List.mem_cons_self ..)
  exact ⟨_, done, rfl, _, List.mem_cons_self .., rfl, rfl, body⟩

end Stream
end IdlGen
