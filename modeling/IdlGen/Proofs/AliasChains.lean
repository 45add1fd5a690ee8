import IdlGen.Proofs.Extensions
import IdlGen.Proofs.Termination

/-!
Chains of aliases. The chain of a type halts, or comes back to a name, within as many steps as
there are aliases (`follow_cases`), and the outcome of resolution tells exactly which
(`resolveType_exact`).
-/
namespace IdlGen

open Outcome

variable {name module rest : String} {fault : Fault}

/-- A module, a dot, and a name in the module. -/
def Name.Qualified (name : String) : Prop :=
  ∃ module rest : String, '.' ∉ module.toList ∧ rest ≠ "" ∧ name = module ++ "." ++ rest

theorem Name.split_eq_ok_iff :
    split name = .ok (module, rest) ↔
      '.' ∉ module.toList ∧ rest ≠ "" ∧ name = module ++ "." ++ rest := by
  constructor
  · intro done
    refine ⟨dot_not_mem_of_split done, ?_, eq_append_of_split done⟩
    simp only [split] at done
    split at done
    · cases done
    · rename_i nonempty
      cases done
      exact nonempty
  · rintro ⟨free, nonempty, rfl⟩
    simp [split, Text.partition_append_dot free, nonempty]

theorem Name.split_of_not_qualified (unqualified : ¬ Qualified name) :
    split name = .error (.unqualified name) := by
  cases done : split name with
  | ok parts => exact absurd ⟨parts.1, parts.2, split_eq_ok_iff.mp done⟩ unqualified
  | error fault =>
    simp only [split] at done
    split at done
    · exact done.symm
    · cases done

namespace Group

/-- A qualified name is that of a declaration: the schema of its module has the declaration under
    the local name. -/
def Names (g : Group) (name : String) (e : Entity) : Prop :=
  ∃ (module rest : String) (s : Schema), '.' ∉ module.toList ∧ rest ≠ "" ∧
    name = module ++ "." ++ rest ∧ g.schemaNamed? module = some s ∧ s.find? rest = some e

/-- A qualified name that nothing in the group has. -/
def Missing (g : Group) (name : String) : Prop := Name.Qualified name ∧ ∀ e, ¬ g.Names name e

variable {g : Group} {type u : FieldType} {outcome : Except Fault Resolved}

theorem resolve_of_split (parts : Name.split name = .ok (module, rest)) :
    g.resolve name =
      ((g.schemaNamed? module).bind (·.find? rest)).elim (.error (.unresolved name)) .ok := by
  rw [resolve, parts]
  cases found : (g.schemaNamed? module).bind (·.find? rest) <;>
  · simp only [bind, Except.bind, found]
    rfl

variable {e : Entity} {seen : List String}

theorem resolve_eq_ok_iff : g.resolve name = .ok e ↔ g.Names name e := by
  constructor
  · intro resolved
    obtain ⟨⟨module, rest⟩, parts, -⟩ := bind_eq_ok.mp resolved
    obtain ⟨free, nonempty, whole⟩ := Name.split_eq_ok_iff.mp parts
    rw [resolve_of_split parts] at resolved
    cases found : (g.schemaNamed? module).bind (·.find? rest) with
    | none =>
      rw [found] at resolved
      cases resolved
    | some entity =>
      rw [found] at resolved
      cases resolved
      obtain ⟨s, known, inSchema⟩ := Option.bind_eq_some_iff.mp found
      exact ⟨module, rest, s, free, nonempty, whole, known, inSchema⟩
  · rintro ⟨module, rest, s, free, nonempty, whole, known, inSchema⟩
    rw [resolve_of_split (Name.split_eq_ok_iff.mpr ⟨free, nonempty, whole⟩), known,
      Option.bind_some, inSchema]
    rfl

theorem resolve_eq_error (fails : g.resolve name = .error fault) :
    (fault = .unqualified name ∧ ¬ Name.Qualified name) ∨
      (fault = .unresolved name ∧ g.Missing name) := by
  by_cases qualified : Name.Qualified name
  · have unnamed (e : Entity) : ¬ g.Names name e := by
      intro names
      rw [resolve_eq_ok_iff.mpr names] at fails
      cases fails
    obtain ⟨module, rest, parts⟩ := qualified
    rw [resolve_of_split (Name.split_eq_ok_iff.mpr parts)] at fails
    cases found : (g.schemaNamed? module).bind (·.find? rest) with
    | none =>
      rw [found] at fails
      cases fails
      exact .inr ⟨rfl, ⟨module, rest, parts⟩, unnamed⟩
    | some entity =>
      rw [found] at fails
      cases fails
  · rw [resolve, Name.split_of_not_qualified qualified] at fails
    cases fails
    exact .inl ⟨rfl, qualified⟩

def next? (g : Group) : FieldType → Option FieldType
  | .ref name =>
    match g.resolve name with
    | .ok (.typedef t) => some t.type
    | _ => none
  | _ => none

/-- The type that is reached from a type in a number of steps, each to what an alias stands for. -/
def chain (g : Group) (type : FieldType) : Nat → Option FieldType
  | 0 => some type
  | n + 1 => (g.chain type n).bind g.next?

/-- Following aliases leads from one type to another. -/
def LeadsTo (g : Group) (type u : FieldType) : Prop := ∃ n, g.chain type n = some u

/-- The chain comes back to a name for the first time: no type before stands twice. -/
def ComesBackTo (g : Group) (type : FieldType) (name : String) : Prop :=
  ∃ i j, i < j ∧ g.chain type i = some (.ref name) ∧ g.chain type j = some (.ref name) ∧
    ∀ a b, a < b → b < j → g.chain type a ≠ g.chain type b

theorem next?_eq_some_iff : g.next? type = some u ↔
    ∃ name t, type = .ref name ∧ g.Names name (.typedef t) ∧ u = t.type := by
  constructor
  · intro steps
    cases type with
    | ref name =>
      cases resolved : g.resolve name with
      | error fault => simp [next?, resolved] at steps
      | ok e =>
        cases e with
        | typedef t =>
          refine ⟨name, t, rfl, resolve_eq_ok_iff.mp resolved, ?_⟩
          simpa [next?, resolved] using steps.symm
        | _ => simp [next?, resolved] at steps
    | _ => cases steps
  · rintro ⟨name, t, rfl, names, rfl⟩
    simp [next?, resolve_eq_ok_iff.mpr names]

theorem chain_add (g : Group) (type : FieldType) (n m : Nat) :
    g.chain type (n + m) = (g.chain type n).bind fun u => g.chain u m := by
  induction m with
  | zero => cases g.chain type n <;> rfl
  | succ m ih =>
    rw [← Nat.add_assoc, chain, ih, Option.bind_assoc]
    rfl

theorem chain_succ {next : FieldType} (steps : g.next? type = some next) (n : Nat) :
    g.chain type (n + 1) = g.chain next n := by
  rw [Nat.add_comm, chain_add]
  simp [chain, steps]

theorem chain_eq_none {n m : Nat} (reached : g.chain type n = some u) (last : g.next? u = none)
    (later : n < m) : g.chain type m = none := by
  obtain ⟨k, rfl⟩ : ∃ k, m = n + 1 + k := ⟨m - (n + 1), by omega⟩
  rw [chain_add, chain, reached, Option.bind_some, last]
  rfl

theorem next?_ne_none_of_repeats {i j n : Nat} {v : FieldType} (before : i < j)
    (first : g.chain type i = some v) (second : g.chain type j = some v)
    (reached : g.chain type n = some u) : g.next? u ≠ none := by
  intro last
  have notLater : j ≤ n := by
    by_contra later
    rw [chain_eq_none reached last (by omega)] at second
    cases second
  -- As far behind the first visit there is the same last type, with more of the chain after it.
  have shifted : g.chain type (i + (n - j)) = some u := by
    rw [chain_add, first, ← second, ← chain_add, Nat.add_sub_cancel' notLater, reached]
  rw [chain_eq_none shifted last (by omega)] at reached
  cases reached

def Resolved.source : Resolved → FieldType ⊕ Entity
  | .primitive p => .inl (.primitive p)
  | .list element => .inl (.list element)
  | .set element => .inl (.set element)
  | .map key value => .inl (.map key value)
  | .record r => .inr (.record r)
  | .enum e => .inr (.enum e)
  | .constant c => .inr (.constant c)
  | .service s => .inr (.service s)

theorem Resolved.source_injective {first second : Resolved} (same : first.source = second.source) :
    first = second := by
  cases first <;> cases second <;> cases same <;> rfl

inductive Halts (g : Group) : FieldType → Except Fault Resolved → Prop where
  | type {type : FieldType} {result : Resolved} (plain : ∀ name, type ≠ .ref name)
      (same : result.source = .inl type) : Halts g type (.ok result)
  | declaration {name : String} {e : Entity} {result : Resolved} (names : g.Names name e)
      (plain : ∀ t, e ≠ .typedef t) (same : result.source = .inr e) :
      Halts g (.ref name) (.ok result)
  | missing {name : String} (missing : g.Missing name) :
      Halts g (.ref name) (.error (.unresolved name))
  | unqualified {name : String} (unqualified : ¬ Name.Qualified name) :
      Halts g (.ref name) (.error (.unqualified name))

theorem Names.unique {e' : Entity} (names : g.Names name e) (others : g.Names name e') : e = e' :=
  Except.ok.inj ((resolve_eq_ok_iff.mpr names).symm.trans (resolve_eq_ok_iff.mpr others))

theorem Names.qualified (names : g.Names name e) : Name.Qualified name := by
  obtain ⟨module, rest, -, free, nonempty, whole, -, -⟩ := names
  exact ⟨module, rest, free, nonempty, whole⟩

theorem Halts.next?_eq_none (halts : g.Halts u outcome) : g.next? u = none := by
  rw [Option.eq_none_iff_forall_ne_some]
  intro next steps
  obtain ⟨name, t, rfl, names, -⟩ := next?_eq_some_iff.mp steps
  cases halts with
  | type plain _ => exact plain name rfl
  | declaration others plain _ => exact plain t (others.unique names)
  | missing missing => exact missing.2 _ names
  | unqualified unqualified => exact unqualified names.qualified

theorem Halts.unique {outcome' : Except Fault Resolved} (halts : g.Halts u outcome)
    (others : g.Halts u outcome') : outcome = outcome' := by
  cases halts with
  | type plain same =>
    cases others with
    | type _ same' => rw [Resolved.source_injective (same.trans same'.symm)]
    | declaration _ _ _ | missing _ | unqualified _ => exact absurd rfl (plain _)
  | declaration names _ same =>
    cases others with
    | type plain _ => exact absurd rfl (plain _)
    | declaration names' _ same' =>
      cases names.unique names'
      rw [Resolved.source_injective (same.trans same'.symm)]
    | missing missing => exact absurd names (missing.2 _)
    | unqualified unqualified => exact absurd names.qualified unqualified
  | missing missing =>
    cases others with
    | type plain _ => exact absurd rfl (plain _)
    | declaration names _ _ => exact absurd names (missing.2 _)
    | missing _ => rfl
    | unqualified unqualified => exact absurd missing.1 unqualified
  | unqualified unqualified =>
    cases others with
    | type plain _ => exact absurd rfl (plain _)
    | declaration names _ _ => exact absurd names.qualified unqualified
    | missing missing => exact absurd missing.1 unqualified
    | unqualified _ => rfl

theorem halts_ref (plain : ∀ t, g.resolve name ≠ .ok (.typedef t)) (fuel : Nat)
    (new : name ∉ seen) : g.Halts (.ref name) (g.follow fuel seen (.ref name)) := by
  have passes : seen.contains name = false := by simpa using new
  cases resolved : g.resolve name with
  | error fault =>
    have outcome : g.follow fuel seen (.ref name) = .error fault := by
      rw [follow, passes, resolved]
      rfl
    rw [outcome]
    rcases resolve_eq_error resolved with ⟨rfl, unqualified⟩ | ⟨rfl, missing⟩
    · exact .unqualified unqualified
    · exact .missing missing
  | ok e =>
    have names := resolve_eq_ok_iff.mp resolved
    rw [follow, passes, resolved]
    cases e with
    | typedef t => exact absurd resolved (plain t)
    | record r => exact .declaration names (by simp) rfl
    | enum e => exact .declaration names (by simp) rfl
    | constant c => exact .declaration names (by simp) rfl
    | service s => exact .declaration names (by simp) rfl

/-- Following a chain past the names in `seen` either comes to where it halts, or back to a name
    that is in `seen` or was passed. No alias is passed twice before. -/
theorem follow_cases (type : FieldType) {fuel : Nat} (enough : g.unpassed seen < fuel) :
    (∃ n ≤ g.unpassed seen, ∃ u, g.chain type n = some u ∧
      g.Halts u (g.follow fuel seen type)) ∨
    ∃ j ≤ g.unpassed seen, ∃ name, g.chain type j = some (.ref name) ∧
      g.follow fuel seen type = .error (.aliasCycle name) ∧
      (name ∈ seen ∨ ∃ i < j, g.chain type i = some (.ref name)) ∧
      (∀ i < j, ∀ passed ∈ seen, g.chain type i ≠ some (.ref passed)) ∧
      ∀ a b, a < b → b < j → g.chain type a ≠ g.chain type b := by
  induction fuel generalizing seen type with
  | zero => omega
  | succ fuel ih =>
    cases type with
    | ref name =>
      by_cases passed : name ∈ seen
      · have stops : g.follow (fuel + 1) seen (.ref name) = .error (.aliasCycle name) := by
          rw [follow, if_pos (by simpa using passed)]
          rfl
        exact .inr ⟨0, Nat.zero_le _, name, rfl, stops, .inl passed, by simp, by omega⟩
      · by_cases plain : ∀ t, g.resolve name ≠ .ok (.typedef t)
        · exact .inl ⟨0, Nat.zero_le _, _, rfl, halts_ref plain _ passed⟩
        · obtain ⟨t, resolved⟩ : ∃ t, g.resolve name = .ok (.typedef t) := by simpa using plain
          have steps : g.next? (.ref name) = some t.type := by simp [next?, resolved]
          have follows : g.follow (fuel + 1) seen (.ref name) =
              g.follow fuel (name :: seen) t.type := by
            rw [follow, if_neg (by simpa using passed), resolved]
            rfl
          have fewer : g.unpassed (name :: seen) < g.unpassed seen :=
            countP_lt (by simp) (mem_qualifiedAliases resolved) (by simpa using passed) (by simp)
          have still : g.unpassed (name :: seen) < fuel := by omega
          rw [follows]
          rcases ih t.type still with
            ⟨n, le, u, reached, halts⟩ | ⟨j, le, again, back, stops, known, away, apart⟩
          · exact .inl ⟨n + 1, by omega, u, (chain_succ steps n).trans reached, halts⟩
          · refine .inr ⟨j + 1, by omega, again, (chain_succ steps j).trans back, stops, ?_, ?_, ?_⟩
            · rcases known with inSeen | ⟨i, before, first⟩
              · rcases List.mem_cons.mp inSeen with rfl | earlier
                · exact .inr ⟨0, Nat.succ_pos j, rfl⟩
                · exact .inl earlier
              · exact .inr ⟨i + 1, by omega, (chain_succ steps i).trans first⟩
            · intro i before other inSeen
              cases i with
              | zero =>
                rintro same
                cases same
                exact passed inSeen
              | succ i =>
                rw [chain_succ steps]
                exact away i (by omega) other (List.mem_cons_of_mem _ inSeen)
            · intro a b before inside
              obtain ⟨b, rfl⟩ : ∃ k, b = k + 1 := ⟨b - 1, by omega⟩
              rw [chain_succ steps b]
              cases a with
              | zero => exact (away b (by omega) name (List.mem_cons_self ..)).symm
              | succ a =>
                rw [chain_succ steps a]
                exact apart a b (by omega) (by omega)
    | _ => exact .inl ⟨0, Nat.zero_le _, _, rfl, .type (by simp) rfl⟩

/-- The chain of a type halts with the outcome of resolution, or resolution stops with the first
    name that the chain comes back to. -/
theorem resolveType_cases (g : Group) (type : FieldType) :
    (∃ n ≤ g.aliasCount, ∃ u, g.chain type n = some u ∧ g.Halts u (g.resolveType type)) ∨
    ∃ i j name, i < j ∧ j ≤ g.aliasCount ∧ g.chain type i = some (.ref name) ∧
      g.chain type j = some (.ref name) ∧ g.resolveType type = .error (.aliasCycle name) ∧
      ∀ a b, a < b → b < j → g.chain type a ≠ g.chain type b := by
  have few : g.unpassed [] ≤ g.aliasCount := by
    rw [← length_qualifiedAliases]
    exact List.countP_le_length
  have enough : g.unpassed [] < g.aliasCount + 1 := by omega
  rcases follow_cases type enough with
    ⟨n, le, u, reached, halts⟩ | ⟨j, le, name, back, stops, known, -, apart⟩
  · exact .inl ⟨n, by omega, u, reached, halts⟩
  · rcases known with inSeen | ⟨i, before, first⟩
    · cases inSeen
    · exact .inr ⟨i, j, name, before, by omega, first, back, stops, apart⟩

theorem resolveType_of_halts (reached : g.LeadsTo type u) (halts : g.Halts u outcome) :
    g.resolveType type = outcome := by
  obtain ⟨n, reached⟩ := reached
  rcases g.resolveType_cases type with
    ⟨m, -, v, there, ends⟩ | ⟨i, j, name, before, -, first, back, -, -⟩
  · rcases Nat.lt_trichotomy n m with later | rfl | earlier
    · rw [chain_eq_none reached halts.next?_eq_none later] at there
      cases there
    · cases reached.symm.trans there
      exact ends.unique halts
    · rw [chain_eq_none there ends.next?_eq_none earlier] at reached
      cases reached
  · exact absurd halts.next?_eq_none (next?_ne_none_of_repeats before first back reached)

theorem resolveType_of_repeats {i j : Nat} (before : i < j)
    (first : g.chain type i = some (.ref name)) (back : g.chain type j = some (.ref name)) :
    ∃ again, g.ComesBackTo type again ∧ g.resolveType type = .error (.aliasCycle again) := by
  rcases g.resolveType_cases type with
    ⟨n, -, u, reached, halts⟩ | ⟨i, j, again, before, -, first, back, stops, apart⟩
  · exact absurd halts.next?_eq_none (next?_ne_none_of_repeats before first back reached)
  · exact ⟨again, ⟨i, j, before, first, back, apart⟩, stops⟩

theorem ComesBackTo.unique {other : String} (first : g.ComesBackTo type name)
    (second : g.ComesBackTo type other) : name = other := by
  obtain ⟨i, j, before, there, back, apart⟩ := first
  obtain ⟨i', j', before', there', back', apart'⟩ := second
  rcases Nat.lt_trichotomy j j' with earlier | rfl | later
  · exact absurd (there.trans back.symm) (apart' i j before earlier)
  · cases back.symm.trans back'
    rfl
  · exact absurd (there'.trans back'.symm) (apart i' j' before' later)

theorem halts_of_resolveType (resolved : g.resolveType type = outcome)
    (acyclic : ∀ name, outcome ≠ .error (.aliasCycle name)) :
    ∃ u, g.LeadsTo type u ∧ g.Halts u outcome := by
  rcases g.resolveType_cases type with
    ⟨n, -, u, reached, halts⟩ | ⟨i, j, name, -, -, -, -, stops, -⟩
  · exact ⟨u, ⟨n, reached⟩, resolved ▸ halts⟩
  · exact absurd (resolved.symm.trans stops) (acyclic name)

theorem resolveType_eq_ok_iff {result : Resolved} : g.resolveType type = .ok result ↔
    (∃ u, g.LeadsTo type u ∧ (∀ name, u ≠ .ref name) ∧ result.source = .inl u) ∨
    ∃ name e, g.LeadsTo type (.ref name) ∧ g.Names name e ∧ (∀ t, e ≠ .typedef t) ∧
      result.source = .inr e := by
  constructor
  · intro resolved
    obtain ⟨u, leads, halts⟩ := halts_of_resolveType resolved (by simp)
    cases halts with
    | type plain same => exact .inl ⟨u, leads, plain, same⟩
    | declaration names plain same => exact .inr ⟨_, _, leads, names, plain, same⟩
  · rintro (⟨u, leads, plain, same⟩ | ⟨name, e, leads, names, plain, same⟩)
    · exact resolveType_of_halts leads (.type plain same)
    · exact resolveType_of_halts leads (.declaration names plain same)

theorem resolveType_eq_unresolved_iff : g.resolveType type = .error (.unresolved name) ↔
    g.LeadsTo type (.ref name) ∧ g.Missing name := by
  constructor
  · intro resolved
    obtain ⟨u, leads, halts⟩ := halts_of_resolveType resolved (by simp)
    cases halts with | missing missing => exact ⟨leads, missing⟩
  · rintro ⟨leads, missing⟩
    exact resolveType_of_halts leads (.missing missing)

theorem resolveType_eq_unqualified_iff : g.resolveType type = .error (.unqualified name) ↔
    g.LeadsTo type (.ref name) ∧ ¬ Name.Qualified name := by
  constructor
  · intro resolved
    obtain ⟨u, leads, halts⟩ := halts_of_resolveType resolved (by simp)
    cases halts with | unqualified unqualified => exact ⟨leads, unqualified⟩
  · rintro ⟨leads, unqualified⟩
    exact resolveType_of_halts leads (.unqualified unqualified)

theorem resolveType_eq_aliasCycle_iff : g.resolveType type = .error (.aliasCycle name) ↔
    g.ComesBackTo type name := by
  constructor
  · intro resolved
    rcases g.resolveType_cases type with
      ⟨n, -, u, -, halts⟩ | ⟨i, j, again, before, -, first, back, stops, apart⟩
    · rw [resolved] at halts
      cases halts
    · cases resolved.symm.trans stops
      exact ⟨i, j, before, first, back, apart⟩
  · intro comesBack
    have ⟨i, j, before, first, back, _⟩ := comesBack
    obtain ⟨again, others, stops⟩ := resolveType_of_repeats before first back
    rw [stops, others.unique comesBack]

theorem resolveType_fails (fails : g.resolveType type = .error fault) :
    ∃ name, fault = .unresolved name ∨ fault = .unqualified name ∨ fault = .aliasCycle name := by
  rcases g.resolveType_cases type with ⟨n, -, u, -, halts⟩ | ⟨i, j, name, -, -, -, -, stops, -⟩
  · rw [fails] at halts
    cases halts with
    | missing _ => exact ⟨_, .inl rfl⟩
    | unqualified _ => exact ⟨_, .inr (.inl rfl)⟩
  · cases fails.symm.trans stops
    exact ⟨name, .inr (.inr rfl)⟩

theorem Resolved.source_ne (result : Resolved) :
    (∀ name, result.source ≠ .inl (.ref name)) ∧ ∀ t, result.source ≠ .inr (.typedef t) := by
  cases result <;> simp [source]

/-- Following aliases ends within as many steps as there are aliases, and its outcome is exact: the
    type or the declaration at the end of the chain, the name at its end if it names nothing, or the
    first name that the chain comes back to. So no result is a name or an alias. -/
theorem resolveType_exact (g : Group) (type : FieldType) :
    (∃ n ≤ g.aliasCount, g.chain type (n + 1) = none ∨ ∃ i < n, g.chain type i = g.chain type n) ∧
    (∀ fuel, g.aliasCount + 1 ≤ fuel → g.follow fuel [] type = g.resolveType type) ∧
    (∀ result, g.resolveType type = .ok result ↔
      (∃ u, g.LeadsTo type u ∧ (∀ name, u ≠ .ref name) ∧ result.source = .inl u) ∨
      ∃ name e, g.LeadsTo type (.ref name) ∧ g.Names name e ∧ (∀ t, e ≠ .typedef t) ∧
        result.source = .inr e) ∧
    (∀ name, g.resolveType type = .error (.unresolved name) ↔
      g.LeadsTo type (.ref name) ∧ g.Missing name) ∧
    (∀ name, g.resolveType type = .error (.unqualified name) ↔
      g.LeadsTo type (.ref name) ∧ ¬ Name.Qualified name) ∧
    (∀ name, g.resolveType type = .error (.aliasCycle name) ↔ g.ComesBackTo type name) ∧
    ((∃ name, g.resolveType type = .error (.aliasCycle name)) ↔
      ∃ i j name, i < j ∧ g.chain type i = some (.ref name) ∧ g.chain type j = some (.ref name)) ∧
    (∀ fault, g.resolveType type = .error fault → ∃ name,
      fault = .unresolved name ∨ fault = .unqualified name ∨ fault = .aliasCycle name) ∧
    ∀ result, g.resolveType type = .ok result →
      (∀ name, result.source ≠ .inl (.ref name)) ∧ ∀ t, result.source ≠ .inr (.typedef t) := by
  refine ⟨?_, fun fuel => follow_of_le, fun result => resolveType_eq_ok_iff,
    fun name => resolveType_eq_unresolved_iff, fun name => resolveType_eq_unqualified_iff,
    fun name => resolveType_eq_aliasCycle_iff, ⟨?_, ?_⟩,
    fun fault => resolveType_fails, fun result _ => result.source_ne⟩
  · rcases g.resolveType_cases type with
      ⟨n, le, u, reached, halts⟩ | ⟨i, j, name, before, le, first, back, -, -⟩
    · exact ⟨n, le, .inl (chain_eq_none reached halts.next?_eq_none (Nat.lt_succ_self n))⟩
    · exact ⟨j, le, .inr ⟨i, before, first.trans back.symm⟩⟩
  · rintro ⟨name, stops⟩
    obtain ⟨i, j, before, first, back, -⟩ := resolveType_eq_aliasCycle_iff.mp stops
    exact ⟨i, j, name, before, first, back⟩
  · rintro ⟨i, j, name, before, first, back⟩
    obtain ⟨again, -, stops⟩ := resolveType_of_repeats before first back
    exact ⟨again, stops⟩

end Group
end IdlGen
