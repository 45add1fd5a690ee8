import IdlGen.Proofs.Dispatch
import IdlGen.Proofs.LiteralRuns

/-!
Programs whose companions are loaded. Whether companions are served by a machine can be computed
(`servesLoaded`, `serves_of_loaded`): importing them again changes nothing.
-/
namespace IdlGen

open Run Outcome

def Value.sameScalar : Value → Value → Bool
  | .null, .null => true
  | .bool a, .bool b => a == b
  | .int a, .int b => a == b
  | .text a, .text b => a == b
  | _, _ => false

theorem Value.eq_of_sameScalar {v w : Value} (same : v.sameScalar w) : v = w := by
  unfold sameScalar at same
  split at same
  · rfl
  · rw [eq_of_beq same]
  · rw [eq_of_beq same]
  · rw [eq_of_beq same]
  · cases same

namespace Code.Term

mutual

/-- Whether two terms are the same, as far as they are made of names, attributes, scalars, lists
    and calls. -/
def same : Term → Term → Bool
  | name a, name b => a == b
  | attr t a, attr u b => same t u && a == b
  | literal v, literal w => v.sameScalar w
  | list ts, list us => sameAll ts us
  | call f ts ks, call g us ls => same f g && sameAll ts us && sameKeywords ks ls
  | _, _ => false

def sameAll : List Term → List Term → Bool
  | [], [] => true
  | t :: ts, u :: us => same t u && sameAll ts us
  | _, _ => false

def sameKeywords : List (String × Term) → List (String × Term) → Bool
  | [], [] => true
  | (a, t) :: ts, (b, u) :: us => a == b && same t u && sameKeywords ts us
  | _, _ => false

end

mutual

theorem eq_of_same {t u : Term} (equal : same t u) : t = u := by
  cases t with
  | name a =>
    cases u with
    | name b =>
      rw [same] at equal
      rw [eq_of_beq equal]
    | _ => cases equal
  | attr t a =>
    cases u with
    | attr u b =>
      rw [same] at equal
      obtain ⟨value, read⟩ := Bool.and_eq_true_iff.mp equal
      rw [eq_of_same value, eq_of_beq read]
    | _ => cases equal
  | literal v =>
    cases u with
    | literal w =>
      rw [same] at equal
      rw [Value.eq_of_sameScalar equal]
    | _ => cases equal
  | list ts =>
    cases u with
    | list us =>
      rw [same] at equal
      rw [eq_of_sameAll equal]
    | _ => cases equal
  | call f ts ks =>
    cases u with
    | call g us ls =>
      rw [same] at equal
      obtain ⟨equal, keywords⟩ := Bool.and_eq_true_iff.mp equal
      obtain ⟨func, args⟩ := Bool.and_eq_true_iff.mp equal
      rw [eq_of_same func, eq_of_sameAll args, eq_of_sameKeywords keywords]
    | _ => cases equal
  | _ => cases equal

theorem eq_of_sameAll {ts us : List Term} (equal : sameAll ts us) : ts = us := by
  cases ts with
  | nil =>
    cases us with
    | nil => rfl
    | cons u us => cases equal
  | cons t ts =>
    cases us with
    | nil => cases equal
    | cons u us =>
      rw [sameAll] at equal
      obtain ⟨first, rest⟩ := Bool.and_eq_true_iff.mp equal
      rw [eq_of_same first, eq_of_sameAll rest]

theorem eq_of_sameKeywords {ts us : List (String × Term)} (equal : sameKeywords ts us) :
    ts = us := by
  cases ts with
  | nil =>
    cases us with
    | nil => rfl
    | cons u us => cases equal
  | cons t ts =>
    cases us with
    | nil => cases equal
    | cons u us =>
      obtain ⟨a, t⟩ := t
      obtain ⟨b, u⟩ := u
      rw [sameKeywords] at equal
      obtain ⟨equal, rest⟩ := Bool.and_eq_true_iff.mp equal
      obtain ⟨name, first⟩ := Bool.and_eq_true_iff.mp equal
      rw [eq_of_beq name, eq_of_same first, eq_of_sameKeywords rest]

end

end Code.Term

namespace Run

def Machine.linked (m : Machine) : Surroundings where
  ref r :=
    match m.loaded.get? r.module with
    | some id => (((Text.split '.' r.attr).foldlM attributeOf (.module id)).run m).1
    | none => .error (.missingModule r.module)

def Machine.readsModule (m : Machine) (id : Nat) (home : String) (locals : List String) (r : Ref) :
    Bool :=
  let segments := Text.split '.' (r.lower (some home))
  let attributes := Text.split '.' r.attr
  match segments.take (segments.length - attributes.length) with
  | [] => false
  | first :: rest =>
    segments == first :: (rest ++ attributes) && !locals.contains first &&
      match ((Scope.name { home := id } first >>= fun o => rest.foldlM attributeOf o).run m).1 with
      | .ok (.module found) => m.loaded.get? r.module == some found
      | _ => false

variable {m : Machine} {id : Nat} {home : String} {inner : List (String × Object)}

theorem run_name_of_new {name : String} (new : name ∉ inner.map (·.1)) :
    (Scope.name { home := id, inner } name).run m = (Scope.name { home := id } name).run m := by
  have unbound : inner.lookup name = none := by
    rw [List.lookup_eq_none_iff]
    intro entry member
    exact bne_iff_ne.mpr fun same => new (same ▸ List.mem_map_of_mem member)
  simp [Scope.name, unbound]

theorem ref_of_readsModule {r : Ref} (reads : m.readsModule id home (inner.map (·.1)) r) :
    (m.around { home := id, inner } home).ref r = m.linked.ref r := by
  unfold Machine.readsModule at reads
  dsimp only at reads
  split at reads
  · cases reads
  · rename_i first rest before
    simp only [Bool.and_eq_true, beq_iff_eq, Bool.not_eq_true', List.contains_eq_mem,
      decide_eq_false_iff_not] at reads
    obtain ⟨⟨segments, new⟩, reads⟩ := reads
    have start : (Scope.name { home := id, inner } first >>= fun o =>
        rest.foldlM attributeOf o).run m =
          (Scope.name { home := id } first >>= fun o => rest.foldlM attributeOf o).run m := by
      rw [run_bind, run_bind, run_name_of_new new]
    have whole : Scope.read { home := id, inner } home r =
        (Scope.name { home := id, inner } first >>= fun o => rest.foldlM attributeOf o) >>=
          fun o => (Text.split '.' r.attr).foldlM attributeOf o := by
      simp only [Scope.read, segments, List.foldlM_append, bind_assoc]
    have kept : ((Scope.name { home := id } first >>= fun o =>
        rest.foldlM attributeOf o).run m).2 = m := keeps_dotted first rest m
    change ((Scope.read { home := id, inner } home r).run m).1 = _
    rw [whole, run_bind, start]
    cases ran : (Scope.name { home := id } first >>= fun o => rest.foldlM attributeOf o).run m with
    | mk outcome after =>
      rw [ran] at reads kept
      subst kept
      cases outcome with
      | error fault => cases reads
      | ok found =>
        cases found with
        | module found => simp only [Machine.linked, eq_of_beq reads]
        | _ => cases reads

theorem name_of_new {name : String} (new : name ∉ inner.map (·.1)) :
    (m.around { home := id, inner } home).name name = (m.around { home := id } home).name name := by
  have same : (Scope.name { home := id, inner } name).run m =
      (Scope.name { home := id } name).run m := run_name_of_new new
  rw [Scope.run_name home, Scope.run_name home] at same
  exact congrArg Prod.fst same

def Machine.holdsLoaded (m : Machine) (id : Nat) (home param : String) (result : Expr) : Bool :=
  (match (m.modules.getD id default).attribute? "apply_defaults" with
    | some (.routine r) =>
      r.home == id && r.params == [param, "context"] &&
        (resultOf r.body).any fun t => t.same (result.term home)
    | _ => false) &&
  result.refs.all (m.readsModule id home [param, "context"]) &&
  ((m.around { home := id } home).showsBuiltins &&
    (m.around { home := id } home).showsNative "frozenset" .frozenset) &&
  ["float", "set", "frozenset"].all fun name => !List.contains [param, "context"] name

theorem holdsDefaults_of_loaded {param : String} {result : Expr}
    (holds : m.holdsLoaded id home param result) :
    m.HoldsDefaults m.linked id home param result := by
  simp only [Machine.holdsLoaded, Bool.and_eq_true, List.all_eq_true] at holds
  obtain ⟨⟨⟨function, refs⟩, builtins, frozenset⟩, new⟩ := holds
  refine ⟨?_, fun v c => ?_⟩
  · split at function
    · rename_i routine found
      simp only [Bool.and_eq_true, beq_iff_eq, Option.any_eq_true] at function
      obtain ⟨⟨rfl, params⟩, t, returned, same⟩ := function
      refine ⟨routine.body, ?_, ?_⟩
      · rw [found, ← params]
      · rw [returned, Code.Term.eq_of_same same]
    · cases function
  · have unchanged (name : String) (member : name ∈ ["float", "set", "frozenset"]) :
        (m.around { home := id, inner := [(param, v), ("context", c)] } home).name name =
          (m.around { home := id } home).name name := by
      refine name_of_new ?_
      simpa using new name member
    obtain ⟨float, set⟩ := Surroundings.builtins_of_shows builtins
    refine ⟨fun r node => ?_, ⟨?_, ?_⟩, ?_⟩
    · exact ref_of_readsModule (refs r (List.mem_filterMap.mpr ⟨_, node, rfl⟩))
    · rw [unchanged "float" (by simp), float]
    · rw [unchanged "set" (by simp), set]
    · rw [unchanged "frozenset" (by simp), Surroundings.name_of_showsNative frozenset]

end Run

def Group.isInstance (g : Group) (cls : RecordClass) (names : List String) : Bool :=
  cls.label == .output && (g.recordOf? cls.name).any fun r =>
    names == r.fields.map fun f => Name.attributeName f.name

theorem Group.instance_of_isInstance {g : Group} {cls : RecordClass} {names : List String}
    (is : g.isInstance cls names) : g.Instance cls names := by
  simp only [isInstance, Bool.and_eq_true, beq_iff_eq, Option.any_eq_true] at is
  exact is

namespace Value

def hasFormIn (g : Group) : Value → Bool
  | record cls fields => g.isInstance cls (fields.map (·.1))
  | object _ => false
  | ref _ => false
  | _ => true

def isBuiltWithin (g : Group) : Nat → Value → Bool
  | 0, _ => false
  | fuel + 1, v => v.hasFormIn g && v.parts.all (isBuiltWithin g fuel)

theorem built_of_isBuiltWithin {g : Group} {v : Value} (fuel : Nat) (is : v.isBuiltWithin g fuel) :
    v.Built g.Instance := by
  induction fuel generalizing v with
  | zero => cases is
  | succ fuel ih =>
    obtain ⟨form, parts⟩ := Bool.and_eq_true_iff.mp is
    refine .mk ?_ fun part member => ih (List.all_eq_true.mp parts part member)
    cases v with
    | record cls fields => exact Group.instance_of_isInstance form
    | object | ref => cases form
    | _ => trivial

end Value

namespace Run

variable {m : Machine} {id : Nat}

namespace Program

def showsSupport (s : Surroundings) : Bool :=
  (match s.ref Ref.replace with
    | .ok (.native .replace) => true
    | _ => false) &&
  ["apply_defaults", "default_if_absent", "union_default"].all fun name =>
    match s.ref (Ref.support name) with
    | .ok (.support found) => found == name
    | _ => false

def companionLoaded (p : Program) (m : Machine) (output : String) : Bool :=
  (enclosing (companionPath output)).head? == some (companionPath output) &&
  (m.loaded.get? (companionPath output)).any fun id =>
    (p.output? (companionPath output)).all fun o => o.body.all fun d =>
      match d with
      | .defaults _ param result => m.holdsLoaded id o.home param result
      | _ => true

def servesLoaded (p : Program) (g : Group) (m : Machine) : Bool :=
  m.linked.showsClasses g && showsSupport m.linked &&
  g.records.all fun r => (g.outputName r.name).toOption.any (p.companionLoaded m)

variable {p : Program} {g : Group}

theorem findsSupport_of_shows {s : Surroundings} (shown : showsSupport s) : s.FindsSupport := by
  obtain ⟨replace, functions⟩ := Bool.and_eq_true_iff.mp shown
  refine ⟨?_, fun name member => ?_⟩
  · split at replace
    · rename_i found
      exact found
    · cases replace
  · have here := List.all_eq_true.mp functions name member
    split at here
    · rename_i found same
      rw [same, eq_of_beq here]
    · cases here

theorem require_of_loaded {path : String} {fuel : Nat} (enough : 0 < fuel)
    (here : (enclosing path).head? = some path) (loaded : m.loaded.get? path = some id) :
    ((p.hooks fuel).require path).run m = (.ok id, m) := by
  obtain ⟨fuel, rfl⟩ : ∃ below, fuel = below + 1 := ⟨fuel - 1, by omega⟩
  obtain ⟨around, same⟩ : ∃ around, enclosing path = path :: around := by
    cases segments : enclosing path with
    | nil =>
      rw [segments] at here
      cases here
    | cons first rest =>
      rw [segments] at here
      cases here
      exact ⟨rest, rfl⟩
  have found : (Running.loaded? path).run m = (.ok (some id), m) :=
    congrArg (fun found => (Except.ok found, m)) loaded
  change (p.requireChain (p.hooks fuel) (enclosing path)).run m = _
  rw [same, requireChain, run_bind, found]
  rfl

theorem loaded_of_record {r : Record} {output : String} (serves : p.servesLoaded g m)
    (known : g.recordOf? output = some r) : p.companionLoaded m output := by
  obtain ⟨declared, outputName⟩ := Group.recordOf?_eq_some known
  simp only [servesLoaded, Bool.and_eq_true, List.all_eq_true] at serves
  have each := serves.2 r declared
  simpa only [outputName, Except.toOption, Option.any_some] using each

theorem exists_loaded {r : Record} {output : String} (serves : p.servesLoaded g m)
    (known : g.recordOf? output = some r) :
    ∃ id, (∀ fuel, 0 < fuel →
        ((p.hooks fuel).require (companionPath output)).run m = (.ok id, m)) ∧
      ∀ o, p.output? (companionPath output) = some o →
        ∀ type param result, .defaults type param result ∈ o.body →
          m.HoldsDefaults m.linked id o.home param result := by
  have companion := loaded_of_record serves known
  simp only [companionLoaded, Bool.and_eq_true] at companion
  obtain ⟨here, loaded⟩ := companion
  obtain ⟨id, found, holds⟩ := (Option.any_eq_true ..).mp loaded
  refine ⟨id, fun fuel enough => require_of_loaded enough (eq_of_beq here) found, ?_⟩
  intro o located type param result inBody
  rw [located] at holds
  exact holdsDefaults_of_loaded (List.all_eq_true.mp holds _ inBody)

theorem eq_of_imports (serves : p.servesLoaded g m) {after : Machine} (imports : p.Imports g m after) :
    after = m := by
  induction imports with
  | refl => rfl
  | step _ known enough ran ih =>
    rw [ih] at ran
    obtain ⟨id, again, -⟩ := exists_loaded serves known
    rw [again _ (by omega)] at ran
    exact (congrArg Prod.snd ran).symm

theorem serves_of_loaded (serves : p.servesLoaded g m) : p.Serves g m.linked m := by
  have shown := serves
  simp only [servesLoaded, Bool.and_eq_true] at shown
  obtain ⟨⟨classes, support⟩, -⟩ := shown
  refine ⟨Surroundings.findsClasses_of_shows classes, findsSupport_of_shows support, ?_⟩
  intro before reached output r known fuel enough
  rw [eq_of_imports serves reached]
  obtain ⟨id, again, holds⟩ := exists_loaded serves known
  refine ⟨id, m, again fuel (by omega), fun o located type param result inBody later reached => ?_⟩
  rw [eq_of_imports serves reached]
  exact holds o located type param result inBody

def offersLoaded (p : Program) (g : Group) (m : Machine) : Bool :=
  p.servesLoaded g m && g.records.all fun r =>
    ((g.outputName r.name).toOption.any fun output =>
      companionPath output != "" && !Text.hasStart "." (companionPath output)) &&
    (g.classRef r.name).toOption.any fun cls =>
      match m.linked.ref cls with
      | .ok (.record t) => g.isInstance t.cls (t.fields.map (·.1))
      | _ => false

theorem offers_of_loaded (offers : p.offersLoaded g m) : p.Offers g m.linked m := by
  simp only [offersLoaded, Bool.and_eq_true, List.all_eq_true] at offers
  obtain ⟨serves, records⟩ := offers
  have path (output : String) (r : Record) (known : g.recordOf? output = some r) :
      companionPath output ≠ "" ∧ Text.hasStart "." (companionPath output) = false := by
    obtain ⟨declared, outputName⟩ := Group.recordOf?_eq_some known
    obtain ⟨path, -⟩ := records r declared
    simpa [outputName, Except.toOption] using path
  refine ⟨serves_of_loaded serves, fun output r known => (path output r known).1,
    fun output r known => (path output r known).2, fun r declared cls t named found => ?_⟩
  obtain ⟨-, labelled⟩ := records r declared
  rw [named] at labelled
  simp only [Except.toOption, Option.any_some, found] at labelled
  exact Group.instance_of_isInstance labelled

def afterImports (p : Program) (outputs : List String) : Machine :=
  ((outputs.mapM fun output => p.importPath (companionPath output)).run {}).2

end Program

end Run

end IdlGen
