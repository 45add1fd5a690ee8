import IdlGen.Code.Module
import IdlGen.Proofs.Outcomes
import IdlGen.Run.Eval

/-!
What expressions of the generated code mean, before they are terms of any module. Running the term
of an expression gives its meaning and changes nothing (`eval_term`).
-/
namespace IdlGen

open Run Outcome

/-- What an expression sees around it: what references name, and its local names. -/
structure Surroundings where
  ref : Ref → Except Fault Object
  names : List (String × Object) := []

def Surroundings.name (s : Surroundings) (id : String) : Except Fault Object :=
  match s.names.lookup id <|> builtin? id with
  | some o => .ok o
  | none => .error (.unboundName id)

def Run.Object.attribute? (o : Object) (name : String) : Option Object :=
  match o with
  | .enum t => t.attribute? name
  | .context c => c.attribute? name
  | .value (.record _ fields) => (fields.lookup name).map Object.value
  | .record t => (t.fields.lookup name).map Object.value
  | _ => none

/-- What calling an object gives, without the machine. -/
def Run.Object.apply (func : Object) (args : List Object) (kwargs : List (String × Object)) :
    Except Fault Object :=
  match func, args, kwargs with
  | .draw name, args, kwargs => .ok (.strategy (callStrategy name args kwargs))
  | .support name, args, kwargs => callSupport name args kwargs
  | .native n, args, kwargs => callNative n args kwargs
  | .record t, args, kwargs =>
    Object.value <$> t.make (args.map Object.toValue) (kwargs.map fun arg => (arg.1, arg.2.toValue))
  | .enum t, [.value v], [] => Object.value <$> t.make v
  | _, _, _ => .error (.notCallable "call")

namespace Expr

mutual

/-- What an expression evaluates to, without the machine. -/
def meaning (s : Surroundings) : Expr → Except Fault Object
  | blank => .error .noSource
  | name id => s.name id
  | ref r => s.ref r
  | attr value a => do
    match (← meaning s value).attribute? a with
    | some o => return o
    | none => throw (.missingAttribute a)
  | literal v => .ok (.value v)
  | list items => do return .value (.list ((← meanings s items).map Object.toValue))
  | tuple items => do return .value (.tuple ((← meanings s items).map Object.toValue))
  | set items => do
    return .value (.set (← setItems ((← meanings s items).map Object.toValue)))
  | dict entries => do return .value (.dict (← dictEntries (← entryMeanings s entries)))
  | call func args kwargs => do
    let func ← meaning s func
    let args ← meanings s args
    func.apply args (← keywordMeanings s kwargs)
  | letAll constructor bindings => do
    let builds ← s.ref (Ref.strategy "builds")
    let constructor ← meaning s constructor
    builds.apply [constructor] (← keywordMeanings s bindings)
  | rebuild target fields => do
    let replace ← s.ref Ref.replace
    let target ← meaning s target
    replace.apply [target] (← keywordMeanings s fields)

def meanings (s : Surroundings) : List Expr → Except Fault (List Object)
  | [] => .ok []
  | e :: rest => do
    let o ← meaning s e
    return o :: (← meanings s rest)

def entryMeanings (s : Surroundings) : List (Expr × Expr) → Except Fault (List (Value × Value))
  | [] => .ok []
  | (k, v) :: rest => do
    let key ← meaning s k
    let value ← meaning s v
    return (key.toValue, value.toValue) :: (← entryMeanings s rest)

def keywordMeanings (s : Surroundings) :
    List (String × Expr) → Except Fault (List (String × Object))
  | [] => .ok []
  | (key, e) :: rest => do
    let o ← meaning s e
    return (key, o) :: (← keywordMeanings s rest)

end

theorem meanings_eq_mapM (s : Surroundings) (es : List Expr) :
    meanings s es = es.mapM (meaning s) := by
  induction es with
  | nil => rfl
  | cons e rest ih => rw [meanings, List.mapM_cons, ih]

theorem entryMeanings_eq_mapM (s : Surroundings) (entries : List (Expr × Expr)) :
    entryMeanings s entries = entries.mapM fun entry => do
      return ((← entry.1.meaning s).toValue, (← entry.2.meaning s).toValue) := by
  induction entries with
  | nil => rfl
  | cons entry rest ih =>
    rw [entryMeanings, List.mapM_cons, ih]
    simp

theorem keywordMeanings_eq_mapM (s : Surroundings) (kwargs : List (String × Expr)) :
    keywordMeanings s kwargs = kwargs.mapM fun arg => do return (arg.1, ← arg.2.meaning s) := by
  induction kwargs with
  | nil => rfl
  | cons arg rest ih =>
    rw [keywordMeanings, List.mapM_cons, ih]
    simp

/-- Two surroundings give the same for what the nodes refer to. -/
def Agree (s other : Surroundings) (nodes : List Expr) : Prop :=
  (∀ r, ref r ∈ nodes → s.ref r = other.ref r) ∧ ∀ id, name id ∈ nodes → s.name id = other.name id

theorem Agree.mono {s other : Surroundings} {nodes part : List Expr} (agree : Agree s other nodes)
    (sub : ∀ e ∈ part, e ∈ nodes) : Agree s other part :=
  ⟨fun r member => agree.1 r (sub _ member), fun id member => agree.2 id (sub _ member)⟩

section
variable {s other : Surroundings}

mutual

theorem meaning_congr (e : Expr) (agree : Agree s other e.nodes) :
    e.meaning s = e.meaning other := by
  cases e with
  | blank => rfl
  | name id => exact agree.2 id (by simp [nodes])
  | ref r => exact agree.1 r (by simp [nodes])
  | attr value a =>
    rw [meaning, meaning, meaning_congr value (agree.mono fun _ member => by simp [nodes, member])]
  | literal v => rfl
  | list items | tuple items | set items =>
    rw [meaning, meaning,
      meanings_congr items (agree.mono fun _ member => by simp [nodes, member])]
  | dict entries =>
    rw [meaning, meaning,
      entryMeanings_congr entries (agree.mono fun _ member => by simp [nodes, member])]
  | call func args kwargs =>
    rw [meaning, meaning, meaning_congr func (agree.mono fun _ member => by simp [nodes, member]),
      meanings_congr args (agree.mono fun _ member => by simp [nodes, member]),
      keywordMeanings_congr kwargs (agree.mono fun _ member => by simp [nodes, member])]
  | letAll constructor bindings =>
    rw [meaning, meaning, agree.1 (Ref.strategy "builds") (by simp [nodes]),
      meaning_congr constructor (agree.mono fun _ member => by simp [nodes, member]),
      keywordMeanings_congr bindings (agree.mono fun _ member => by simp [nodes, member])]
  | rebuild target fields =>
    rw [meaning, meaning, agree.1 Ref.replace (by simp [nodes]),
      meaning_congr target (agree.mono fun _ member => by simp [nodes, member]),
      keywordMeanings_congr fields (agree.mono fun _ member => by simp [nodes, member])]

theorem meanings_congr (es : List Expr) (agree : Agree s other (nodesOfAll es)) :
    meanings s es = meanings other es := by
  cases es with
  | nil => rfl
  | cons e rest =>
    rw [meanings, meanings, meaning_congr e (agree.mono fun _ member => by simp [nodesOfAll, member]),
      meanings_congr rest (agree.mono fun _ member => by simp [nodesOfAll, member])]

theorem entryMeanings_congr (entries : List (Expr × Expr))
    (agree : Agree s other (nodesOfEntries entries)) :
    entryMeanings s entries = entryMeanings other entries := by
  match entries with
  | [] => rfl
  | (k, v) :: rest =>
    rw [entryMeanings, entryMeanings,
      meaning_congr k (agree.mono fun _ member => by simp [nodesOfEntries, member]),
      meaning_congr v (agree.mono fun _ member => by simp [nodesOfEntries, member]),
      entryMeanings_congr rest (agree.mono fun _ member => by simp [nodesOfEntries, member])]

theorem keywordMeanings_congr (kwargs : List (String × Expr))
    (agree : Agree s other (nodesOfKeywords kwargs)) :
    keywordMeanings s kwargs = keywordMeanings other kwargs := by
  match kwargs with
  | [] => rfl
  | (key, e) :: rest =>
    rw [keywordMeanings, keywordMeanings,
      meaning_congr e (agree.mono fun _ member => by simp [nodesOfKeywords, member]),
      keywordMeanings_congr rest (agree.mono fun _ member => by simp [nodesOfKeywords, member])]

end

end

end Expr

def Returns {α : Type} (m : Machine) (step : Running α) (a : α) : Prop :=
  step.run m = (.ok a, m)

section
variable {α β : Type} {m : Machine}

theorem Returns.bind {step : Running α} {next : α → Running β} {a : α} {b : β}
    (first : Returns m step a) (second : Returns m (next a) b) : Returns m (step >>= next) b := by
  rw [Returns, run_bind, first]
  exact second

theorem returns_pure (a : α) : Returns m (pure a : Running α) a := rfl

theorem returns_of {outcome : Except Fault α} {a : α} (done : outcome = .ok a) :
    Returns m (Running.of outcome) a := by
  rw [done]
  rfl

theorem returns_attributeOf_module {id : Nat} {name : String} {o : Object}
    (has : (m.modules.getD id default).attribute? name = some o) :
    Returns m (attributeOf (.module id) name) o := by
  have found : Returns m (Running.moduleAt id) (m.modules.getD id default) := rfl
  unfold attributeOf
  refine found.bind ?_
  rw [has]
  exact returns_pure o

end

structure Resolves (h : Hooks) (scope : Scope) (home : String) (m : Machine) (s : Surroundings) :
    Prop where
  ref : ∀ r o, s.ref r = .ok o → Returns m (eval h scope (r.term home)) o
  name : ∀ id o, s.name id = .ok o → Returns m (scope.name id) o
  float : Returns m (scope.name "float") (.native .float)
  set : Returns m (scope.name "set") (.native .set)

theorem returns_attributeOf {o found : Object} {name : String} {m : Machine}
    (has : o.attribute? name = some found) : Returns m (attributeOf o name) found := by
  have known : attributeOf o name = pure found := by
    unfold Object.attribute? at has
    split at has
    · simp [attributeOf, has]
    · simp [attributeOf, has]
    · simp [attributeOf, has]
    · simp [attributeOf, has]
    · cases has
  rw [known]
  exact returns_pure found

theorem call_support {name : String} (plain : name ≠ "apply_defaults") (h : Hooks)
    (args : List Object) (kwargs : List (String × Object)) :
    call h (.support name) args kwargs = Running.of (callSupport name args kwargs) := by
  simp only [call, plain, imp_false, not_false_eq_true, implies_true]

theorem returns_call {h : Hooks} {func result : Object} {args : List Object}
    {kwargs : List (String × Object)} {m : Machine}
    (called : func.apply args kwargs = .ok result) :
    Returns m (call h func args kwargs) result := by
  unfold Object.apply at called
  split at called
  · cases called
    exact returns_pure _
  · rename_i name
    have plain : name ≠ "apply_defaults" := by
      rintro rfl
      cases called
    rw [call_support plain]
    exact returns_of called
  · rename_i n
    have steps : call h (.native n) args kwargs = Running.of (callNative n args kwargs) := by
      cases n
      · cases called
      all_goals rfl
    rw [steps]
    exact returns_of called
  · exact returns_of called
  · exact returns_of called
  · cases called

namespace Expr

variable {h : Hooks} {scope : Scope} {home : String} {m : Machine} {s : Surroundings}

theorem returns_evalAll_single {t : Code.Term} {o : Object}
    (returns : Returns m (eval h scope t) o) :
    Returns m (evalAll h scope [t]) [o] :=
  returns.bind (Returns.bind (returns_pure []) (returns_pure [o]))

theorem eval_scalarTerm (resolves : Resolves h scope home m s) (v : Value) :
    Returns m (eval h scope v.scalarTerm) (.value v) := by
  have float := resolves.float
  unfold Value.scalarTerm
  split
  · split
    · exact returns_pure _
    · rename_i x infinite
      have converts : callNative .float [.value (.text x.text)] [] = .ok (.value (.float x)) := by
        match x with
        | .nan => rfl
        | .infinity true => rfl
        | .infinity false => rfl
        | .finite .. => exact absurd rfl infinite
      exact float.bind ((Returns.bind (returns_pure _) (returns_pure _)).bind (returns_of converts))
  · exact returns_pure _

mutual

theorem eval_term (resolves : Resolves h scope home m s) (e : Expr) {o : Object}
    (means : e.meaning s = .ok o) : Returns m (eval h scope (e.term home)) o := by
  cases e with
  | blank => cases means
  | name id => exact resolves.name id o means
  | ref r => exact resolves.ref r o means
  | attr value a =>
    rw [meaning] at means
    obtain ⟨v, valueMeans, has⟩ := bind_eq_ok.mp means
    cases found : v.attribute? a with
    | none =>
      rw [found] at has
      cases has
    | some other =>
      rw [found] at has
      cases has
      exact (eval_term resolves value valueMeans).bind (returns_attributeOf found)
  | literal v =>
    cases means
    exact eval_scalarTerm resolves v
  | list items | tuple items =>
    rw [meaning] at means
    obtain ⟨os, itemsMean, done⟩ := bind_eq_ok.mp means
    cases done
    exact (eval_terms resolves items itemsMean).bind (returns_pure _)
  | set items =>
    rw [meaning] at means
    obtain ⟨os, itemsMean, means⟩ := bind_eq_ok.mp means
    obtain ⟨vs, distinct, done⟩ := bind_eq_ok.mp means
    cases done
    rw [term]
    split
    · rename_i empty
      rw [List.isEmpty_iff.mp empty] at itemsMean
      cases itemsMean
      cases distinct
      exact resolves.set.bind (returns_pure _)
    · exact (eval_terms resolves items itemsMean).bind ((returns_of distinct).bind (returns_pure _))
  | dict entries =>
    rw [meaning] at means
    obtain ⟨pairs, entriesMean, means⟩ := bind_eq_ok.mp means
    obtain ⟨vs, distinct, done⟩ := bind_eq_ok.mp means
    cases done
    exact (eval_termEntries resolves entries entriesMean).bind
      ((returns_of distinct).bind (returns_pure _))
  | call func args kwargs =>
    rw [meaning] at means
    obtain ⟨f, funcMeans, means⟩ := bind_eq_ok.mp means
    obtain ⟨as, argsMean, means⟩ := bind_eq_ok.mp means
    obtain ⟨ks, kwargsMean, called⟩ := bind_eq_ok.mp means
    exact (eval_term resolves func funcMeans).bind ((eval_terms resolves args argsMean).bind
      ((eval_termKeywords resolves kwargs kwargsMean).bind (returns_call called)))
  | letAll constructor bindings =>
    rw [meaning] at means
    obtain ⟨builds, buildsMeans, means⟩ := bind_eq_ok.mp means
    obtain ⟨cls, clsMeans, means⟩ := bind_eq_ok.mp means
    obtain ⟨ks, bindingsMean, called⟩ := bind_eq_ok.mp means
    exact (resolves.ref _ _ buildsMeans).bind
      ((returns_evalAll_single (eval_term resolves constructor clsMeans)).bind
        ((eval_termKeywords resolves bindings bindingsMean).bind (returns_call called)))
  | rebuild target fields =>
    rw [meaning] at means
    obtain ⟨replace, replaceMeans, means⟩ := bind_eq_ok.mp means
    obtain ⟨record, targetMeans, means⟩ := bind_eq_ok.mp means
    obtain ⟨ks, fieldsMean, called⟩ := bind_eq_ok.mp means
    exact (resolves.ref _ _ replaceMeans).bind
      ((returns_evalAll_single (eval_term resolves target targetMeans)).bind
        ((eval_termKeywords resolves fields fieldsMean).bind (returns_call called)))

theorem eval_terms (resolves : Resolves h scope home m s) (es : List Expr) {os : List Object}
    (mean : meanings s es = .ok os) : Returns m (evalAll h scope (termAll home es)) os := by
  cases es with
  | nil =>
    cases mean
    exact returns_pure _
  | cons e rest =>
    rw [meanings] at mean
    obtain ⟨o, first, mean⟩ := bind_eq_ok.mp mean
    obtain ⟨others, later, done⟩ := bind_eq_ok.mp mean
    cases done
    exact (eval_term resolves e first).bind ((eval_terms resolves rest later).bind (returns_pure _))

theorem eval_termEntries (resolves : Resolves h scope home m s) (entries : List (Expr × Expr))
    {pairs : List (Value × Value)} (mean : entryMeanings s entries = .ok pairs) :
    Returns m (evalEntries h scope (termEntries home entries)) pairs := by
  match entries with
  | [] =>
    cases mean
    exact returns_pure _
  | (k, v) :: rest =>
    rw [entryMeanings] at mean
    obtain ⟨key, keyMeans, mean⟩ := bind_eq_ok.mp mean
    obtain ⟨value, valueMeans, mean⟩ := bind_eq_ok.mp mean
    obtain ⟨others, later, done⟩ := bind_eq_ok.mp mean
    cases done
    exact (eval_term resolves k keyMeans).bind ((eval_term resolves v valueMeans).bind
      ((eval_termEntries resolves rest later).bind (returns_pure _)))

theorem eval_termKeywords (resolves : Resolves h scope home m s) (kwargs : List (String × Expr))
    {os : List (String × Object)} (mean : keywordMeanings s kwargs = .ok os) :
    Returns m (evalKeywords h scope (termKeywords home kwargs)) os := by
  match kwargs with
  | [] =>
    cases mean
    exact returns_pure _
  | (key, e) :: rest =>
    rw [keywordMeanings] at mean
    obtain ⟨o, first, mean⟩ := bind_eq_ok.mp mean
    obtain ⟨others, later, done⟩ := bind_eq_ok.mp mean
    cases done
    exact (eval_term resolves e first).bind
      ((eval_termKeywords resolves rest later).bind (returns_pure _))

end

end Expr

namespace Run

variable {h : Hooks} {scope : Scope} {home : String} {m : Machine}

/-- What a reference finds in the module `home`: a name, and attributes of it. -/
def Scope.read (scope : Scope) (home : String) (r : Ref) : Running Object :=
  match Text.split '.' (r.lower (some home)) with
  | [] => scope.name ""
  | first :: rest => scope.name first >>= fun o => rest.foldlM attributeOf o

theorem eval_foldl_attr (t : Code.Term) (rest : List String) :
    eval h scope (rest.foldl Code.Term.attr t) = eval h scope t >>= fun o =>
      rest.foldlM attributeOf o := by
  induction rest generalizing t with
  | nil => simp
  | cons a rest ih =>
    rw [List.foldl_cons, ih, eval]
    simp only [bind_assoc, List.foldlM_cons]

theorem eval_ref (r : Ref) : eval h scope (r.term home) = scope.read home r := by
  unfold Ref.term Scope.read
  cases Text.split '.' (r.lower (some home)) with
  | nil => rw [eval]
  | cons first rest => simp only [Code.Term.dotted, eval_foldl_attr, eval]

/-- What a module of the machine sees from a scope. -/
def Machine.around (m : Machine) (scope : Scope) (home : String) : Surroundings where
  ref r := ((scope.read home r).run m).1
  names := scope.inner ++ (m.modules.getD scope.home default).names

theorem Scope.run_name (home id : String) :
    (scope.name id).run m = ((m.around scope home).name id, m) := by
  have found : (m.around scope home).names.lookup id =
      (scope.inner.lookup id <|> (m.modules.getD scope.home default).names.get? id) := by
    simp [Machine.around, List.lookup_append, Table.get?]
  rw [Surroundings.name, found]
  simp only [Scope.name, Running.moduleAt, Outcome.run_bind, Outcome.run_get, Outcome.run_pure]
  cases scope.inner.lookup id <;> cases (m.modules.getD scope.home default).names.get? id <;>
    cases builtin? id <;> rfl

theorem keeps_attributeOf (o : Object) (name : String) :
    Keeps (fun m : Machine => m) (attributeOf o name) := by
  unfold attributeOf
  split
  · refine (keeps_get.bind fun _ => keeps_pure _).bind fun _ => (keeps_pure _).bind fun found => ?_
    cases found with
    | some o => exact keeps_pure o
    | none => exact keeps_throw _
  all_goals
    refine (keeps_pure _).bind fun found => ?_
    cases found with
    | some o => exact keeps_pure o
    | none => exact keeps_throw _

theorem keeps_attributes (rest : List String) (o : Object) :
    Keeps (fun m : Machine => m) (rest.foldlM attributeOf o) := by
  induction rest generalizing o with
  | nil => exact keeps_pure o
  | cons a rest ih => exact (keeps_attributeOf o a).bind fun o => ih o

theorem keeps_dotted (first : String) (rest : List String) :
    Keeps (fun m : Machine => m) (scope.name first >>= fun o => rest.foldlM attributeOf o) :=
  Keeps.bind (fun _ => congrArg Prod.snd (Scope.run_name "" first)) fun o => keeps_attributes rest o

theorem keeps_read (r : Ref) : Keeps (fun m : Machine => m) (scope.read home r) := by
  unfold Scope.read
  split
  · exact fun _ => congrArg Prod.snd (Scope.run_name home "")
  · exact keeps_dotted _ _

/-- The built-ins that numbers and empty sets are written with are not hidden. -/
structure ShowsBuiltins (s : Surroundings) : Prop where
  float : s.name "float" = .ok (.native .float)
  set : s.name "set" = .ok (.native .set)

theorem resolves_around (shows : ShowsBuiltins (m.around scope home)) :
    Resolves h scope home m (m.around scope home) := by
  have name (id : String) (o : Object) (known : (m.around scope home).name id = .ok o) :
      Returns m (scope.name id) o := by
    rw [Returns, Scope.run_name, known]
  refine ⟨fun r o found => ?_, name, name _ _ shows.float, name _ _ shows.set⟩
  rw [Returns, eval_ref]
  exact Prod.ext found (keeps_read r m)

/-- A module in which the nodes of an expression mean what they mean elsewhere runs its term to
    what the expression means there. -/
theorem returns_of_meaning {s : Surroundings} {e : Expr} {o : Object}
    (means : e.meaning s = .ok o) (agree : Expr.Agree s (m.around scope home) e.nodes)
    (shows : ShowsBuiltins (m.around scope home)) : Returns m (eval h scope (e.term home)) o :=
  Expr.eval_term (resolves_around shows) e (Expr.meaning_congr e agree ▸ means)

end Run
end IdlGen
