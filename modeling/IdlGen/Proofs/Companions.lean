import IdlGen.Proofs.Defaults
import IdlGen.Proofs.Literals
import IdlGen.Proofs.Programs

/-!
Companions that apply declared defaults.
-/
namespace IdlGen

open Run Outcome

variable {g : Group} {home : String} {fields : List (String × Value)} {fs : List Field}

def Expr.NamesFreezing (e : Expr) : Prop := ∀ id, name id ∈ e.nodes → id = "frozenset"

theorem Group.namesFreezing_literalExpr {v : Value} {type : Option FieldType} {frozen : Bool}
    {e : Expr} (made : g.literalExpr v type frozen = .ok e) : e.NamesFreezing := by
  have classes : g.ClassesAllowed (fun _ => True) (· = "frozenset") :=
    ⟨fun _ _ _ _ => trivial, fun _ _ _ _ => trivial, rfl⟩
  intro id member
  exact (writtenWith_literalExpr classes (fun _ _ _ _ => trivial) made).of_name member

theorem forall₂_mem {α β : Type} {R : α → β → Prop} {as : List α} {bs : List β}
    (pairs : List.Forall₂ R as bs) : List.Forall₂ (fun a b => a ∈ as ∧ b ∈ bs ∧ R a b) as bs := by
  obtain ⟨size, each⟩ := List.forall₂_iff_zip.mp pairs
  refine List.forall₂_iff_zip.mpr ⟨size, fun member => ?_⟩
  exact ⟨(List.of_mem_zip member).1, (List.of_mem_zip member).2, each member⟩

/-- Imports of companions lead from one machine to the other. -/
inductive Run.Program.Imports (p : Program) (g : Group) : Machine → Machine → Prop where
  | refl (m : Machine) : Imports p g m m
  | step {m before after : Machine} {output : String} {r : Record} {fuel id : Nat}
      (earlier : Imports p g m before) (known : g.recordOf? output = some r)
      (enough : p.importable < fuel)
      (ran : ((p.hooks fuel).require (Program.companionPath output)).run before = (.ok id, after)) :
      Imports p g m after

/-- However many companions are imported before, a step has one outcome, and imports nothing but
    companions. -/
def Run.Program.Gives {α : Type} (p : Program) (g : Group) (m : Machine) (step : Running α)
    (outcome : Except Fault α) : Prop :=
  ∀ before, p.Imports g m before →
    ∃ after, step.run before = (outcome, after) ∧ p.Imports g before after

namespace Run.Program

variable {p : Program} {m after : Machine} {α β : Type}

theorem Imports.trans {last : Machine} (first : p.Imports g m after)
    (second : p.Imports g after last) : p.Imports g m last := by
  induction second with
  | refl => exact first
  | step _ known enough ran ih => exact .step ih known enough ran

variable {step : Running α} {outcome : Except Fault α} {next : α → Running β}

theorem Gives.later (gives : p.Gives g m step outcome) (imports : p.Imports g m after) :
    p.Gives g after step outcome :=
  fun before reached => gives before (imports.trans reached)

theorem Gives.congr {other : Except Fault α} (gives : p.Gives g m step outcome)
    (same : outcome = other) : p.Gives g m step other :=
  same ▸ gives

theorem gives_of_returns {a : α}
    (returns : ∀ before, p.Imports g m before → Returns before step a) : p.Gives g m step (.ok a) :=
  fun before reached => ⟨before, returns before reached, .refl before⟩

theorem gives_pure (a : α) : p.Gives g m (pure a : Running α) (.ok a) :=
  gives_of_returns fun _ _ => returns_pure a

theorem gives_of (outcome : Except Fault α) : p.Gives g m (Running.of outcome) outcome := by
  intro before _
  refine ⟨before, ?_, .refl before⟩
  cases outcome <;> rfl

theorem Gives.bind {rest : α → Except Fault β} (first : p.Gives g m step outcome)
    (second : ∀ a, outcome = .ok a → p.Gives g m (next a) (rest a)) :
    p.Gives g m (step >>= next) (outcome >>= rest) := by
  intro before reached
  obtain ⟨middle, ran, imports⟩ := first before reached
  rw [run_bind, ran]
  cases outcome with
  | error fault => exact ⟨middle, rfl, imports⟩
  | ok a =>
    obtain ⟨after, ran, later⟩ := second a rfl middle (reached.trans imports)
    exact ⟨after, ran, imports.trans later⟩

theorem Gives.andThen {a : α} {outcome : Except Fault β} (first : p.Gives g m step (.ok a))
    (second : p.Gives g m (next a) outcome) : p.Gives g m (step >>= next) outcome := by
  intro before reached
  obtain ⟨middle, ran, imports⟩ := first before reached
  obtain ⟨after, later, others⟩ := second middle (reached.trans imports)
  rw [run_bind, ran]
  exact ⟨after, later, imports.trans others⟩

end Run.Program

/-! ### Expressions inside companions -/

/-- References of an expression find the same as elsewhere, and no built-in that literals are
    written with is hidden. -/
structure Run.Machine.Sees (m : Machine) (scope : Scope) (home : String) (s : Surroundings)
    (e : Expr) : Prop where
  ref : ∀ r, .ref r ∈ e.nodes → (m.around scope home).ref r = s.ref r
  builtins : ShowsBuiltins (m.around scope home)
  frozenset : (m.around scope home).name "frozenset" = .ok (.native .frozenset)

/-- References find the library functions that companions apply defaults with. -/
structure Surroundings.FindsSupport (s : Surroundings) : Prop where
  replace : s.ref Ref.replace = .ok (.native .replace)
  function : ∀ name ∈ ["apply_defaults", "default_if_absent", "union_default"],
    s.ref (Ref.support name) = .ok (.support name)

def Companion.DefaultMeans (g : Group) (s : Surroundings) (f : Field) (v : Value) : Prop :=
  ∃ e, declaredDefault g f = .ok e ∧ e.meaning s = .ok (.value v)

namespace Run.Program

section
variable {p : Program} {m : Machine} {s : Surroundings} {h : Hooks} {scope : Scope}

variable {whole : Expr}

theorem gives_name (home : String) {id : String} {o : Object} (here : scope.inner.lookup id = some o) :
    p.Gives g m (eval h scope (.name id)) (.ok o) := by
  refine gives_of_returns fun before _ => ?_
  have means : (before.around scope home).name id = .ok o := by
    simp [Surroundings.name, Machine.around, List.lookup_append, here]
  rw [Returns, eval, Scope.run_name home, means]

section
variable (sees : ∀ before, p.Imports g m before → before.Sees scope home s whole)
include sees

theorem gives_ref {r : Ref} {o : Object} (node : .ref r ∈ whole.nodes) (found : s.ref r = .ok o) :
    p.Gives g m (eval h scope (r.term home)) (.ok o) := by
  refine gives_of_returns fun before reached => ?_
  rw [Returns, eval_ref]
  exact Prod.ext (((sees before reached).ref r node).trans found) (keeps_read r before)

theorem gives_literal (frozenset : s.name "frozenset" = .ok (.native .frozenset)) {e : Expr} {o : Object}
    (names : e.NamesFreezing) (part : ∀ node ∈ e.nodes, node ∈ whole.nodes)
    (means : e.meaning s = .ok o) : p.Gives g m (eval h scope (e.term home)) (.ok o) := by
  refine gives_of_returns fun before reached => ?_
  have seen := sees before reached
  refine returns_of_meaning means ⟨fun r node => ?_, fun id node => ?_⟩ seen.builtins
  · exact (seen.ref r (part _ node)).symm
  · rw [names id node, frozenset, seen.frozenset]

end

theorem gives_call {func : Code.Term} {args : List Code.Term} {kwargs : List (String × Code.Term)}
    {f : Object} {given : Except Fault (List Object)}
    {named : Except Fault (List (String × Object))}
    (outcome : List Object → List (String × Object) → Except Fault Object)
    (callee : p.Gives g m (eval h scope func) (.ok f))
    (arguments : p.Gives g m (evalAll h scope args) given)
    (keywords : p.Gives g m (evalKeywords h scope kwargs) named)
    (called : ∀ os ks, given = .ok os → named = .ok ks → p.Gives g m (call h f os ks) (outcome os ks)) :
    p.Gives g m (eval h scope (.call func args kwargs)) (do
      let os ← given
      let ks ← named
      outcome os ks) := by
  rw [eval]
  exact callee.andThen (arguments.bind fun os known =>
    keywords.bind fun ks keyed => called os ks known keyed)

theorem gives_noKeywords : p.Gives g m (evalKeywords h scope []) (.ok []) := by
  rw [evalKeywords]
  exact gives_pure []

theorem gives_support {name : String} (plain : name ≠ "apply_defaults") (os : List Object)
    (ks : List (String × Object)) :
    p.Gives g m (call h (.support name) os ks) (callSupport name os ks) := by
  rw [call_support plain]
  exact gives_of _

variable {a : Except Fault Object}

theorem gives_evalAll_single {only : Code.Term} (gives : p.Gives g m (eval h scope only) a) :
    p.Gives g m (evalAll h scope [only]) (do return [← a]) := by
  rw [evalAll]
  exact gives.bind fun o _ => Gives.andThen (gives_pure []) (gives_pure [o])

theorem gives_evalAll_pair {first second : Code.Term} {b : Object}
    (left : p.Gives g m (eval h scope first) a)
    (right : p.Gives g m (eval h scope second) (.ok b)) :
    p.Gives g m (evalAll h scope [first, second]) (do return [← a, b]) := by
  rw [evalAll]
  exact left.bind fun o _ => (gives_evalAll_single right).andThen (gives_pure [o, b])

def asArguments (given : List (String × Value)) : List (String × Object) :=
  given.map fun arg => (arg.1, .value arg.2)

theorem toValue_asArguments (given : List (String × Value)) :
    (asArguments given).map (fun arg => (arg.1, arg.2.toValue)) = given := by
  rw [asArguments, List.map_map]
  exact List.map_id given

theorem gives_keywords {α : Type} {items : List α} {name : α → String}
    {outcome : α → Except Fault Value} {kwargs : List (String × Expr)}
    (each : List.Forall₂ (fun a arg => arg.1 = name a ∧
      p.Gives g m (eval h scope (arg.2.term home)) (Object.value <$> outcome a)) items kwargs) :
    p.Gives g m (evalKeywords h scope (Expr.termKeywords home kwargs)) (do
      let given ← items.mapM fun a => do return (name a, ← outcome a)
      return asArguments given) := by
  induction each with
  | nil => exact gives_noKeywords
  | @cons a arg rest others first _ ih =>
    obtain ⟨key, e⟩ := arg
    obtain ⟨rfl, gives⟩ := first
    rw [Expr.termKeywords, evalKeywords]
    have total : (do
        let o ← Object.value <$> outcome a
        let others ← (do
          let given ← rest.mapM fun a => do return (name a, ← outcome a)
          return asArguments given)
        return (name a, o) :: others) = (do
        let given ← (a :: rest).mapM fun a => do return (name a, ← outcome a)
        return asArguments given) := by
      rw [List.mapM_cons]
      cases outcome a with
      | error fault => rfl
      | ok v =>
        cases rest.mapM fun a => do return (name a, ← outcome a) with
        | error fault => rfl
        | ok given => rfl
    rw [← total]
    exact gives.bind fun o _ => ih.bind fun ks _ => gives_pure ((name a, o) :: ks)

end

section
variable {p : Program} {m : Machine} {s : Surroundings} {h : Hooks} {id : Nat}

variable {whole : Expr} {cls : RecordClass}

variable {c : Object}

def inner (id : Nat) (cls : RecordClass) (fields : List (String × Value)) (c : Object) : Scope where
  home := id
  inner := [(Companion.recordParam, .value (.record cls fields)), ("context", c)]

variable
  (sees : ∀ before, p.Imports g m before → before.Sees (inner id cls fields c) home s whole)
  (support : s.FindsSupport)
include sees support

theorem gives_defaultedField {f : Field} {v : Value} {outcome : Except Fault Object}
    (part : ∀ node ∈ (Companion.defaultedField f).nodes, node ∈ whole.nodes)
    (has : fields.lookup (Name.attributeName f.name) = some v)
    (applied : p.Gives g m (h.applyDefaults (.value v) c) outcome) :
    p.Gives g m (eval h (inner id cls fields c) ((Companion.defaultedField f).term home))
      outcome := by
  have read : p.Gives g m (eval h (inner id cls fields c)
      (.attr (.name Companion.recordParam) (Name.attributeName f.name))) (.ok (.value v)) := by
    rw [eval]
    refine (gives_name home rfl).andThen (gives_of_returns fun _ _ => returns_attributeOf ?_)
    simp [Object.attribute?, has]
  have context : p.Gives g m (eval h (inner id cls fields c) (.name "context")) (.ok c) :=
    gives_name home rfl
  have callee := gives_ref (h := h) sees (part (.ref (Ref.support "apply_defaults")) (by
    simp [Companion.defaultedField, Companion.defaulted, Expr.support, Expr.apply, Expr.nodes]))
    (support.function _ (by simp))
  refine gives_call (fun _ _ => outcome) callee (gives_evalAll_pair read context) gives_noKeywords
    fun os ks known keyed => ?_
  cases known
  cases keyed
  exact applied

theorem gives_default (frozenset : s.name "frozenset" = .ok (.native .frozenset))
    {default : Field → Value} {f : Field} {e : Expr} {v : Value} {outcome : Except Fault Value}
    (made : Companion.default g f = .ok e)
    (evaluates : f.declares → Companion.DefaultMeans g s f (default f))
    (part : ∀ node ∈ e.nodes, node ∈ whole.nodes)
    (has : fields.lookup (Name.attributeName f.name) = some v)
    (applied : p.Gives g m (h.applyDefaults (.value v) c) (Object.value <$> outcome)) :
    p.Gives g m (eval h (inner id cls fields c) (e.term home))
      (Object.value <$> f.filled default <$> outcome) := by
  by_cases absent : f.default.isNull
  · have plain : f.declares = false := by simp [Field.declares, absent]
    have unfilled : f.filled default <$> outcome = outcome := by
      have same : f.filled default = fun v => v := by
        funext v
        simp [Field.filled, plain]
      rw [same]
      cases outcome <;> rfl
    simp only [Companion.default, absent, if_true] at made
    cases made
    rw [unfilled]
    exact gives_defaultedField sees support part has applied
  · have declares : f.declares := by simp [Field.declares, absent]
    obtain ⟨literal, written, means⟩ := evaluates declares
    simp only [Companion.default, absent, written] at made
    cases made
    have inField : ∀ node ∈ (Companion.defaultedField f).nodes, node ∈ whole.nodes :=
      fun node member => part node (by
        simp [Expr.support, Expr.apply, Expr.nodes, Expr.nodesOfAll, member])
    have inLiteral : ∀ node ∈ literal.nodes, node ∈ whole.nodes :=
      fun node member => part node (by
        simp [Expr.support, Expr.apply, Expr.nodes, Expr.nodesOfAll, member])
    have field := gives_defaultedField sees support inField has applied
    have value := gives_literal (h := h) sees frozenset
      (Group.namesFreezing_literalExpr written) inLiteral means
    have callee := gives_ref (h := h) sees (part (.ref (Ref.support "default_if_absent")) (by
      simp [Expr.support, Expr.apply, Expr.nodes])) (support.function _ (by simp))
    have run := gives_call (callSupport "default_if_absent") callee (gives_evalAll_pair field value)
      gives_noKeywords fun os ks _ _ => gives_support (by simp) os ks
    cases outcome with
    | error fault => exact run
    | ok w =>
      have chosen : callSupport "default_if_absent" [.value w, .value (default f)] [] =
          .ok (.value (f.filled default w)) := by
        rw [Field.filled, declares, Bool.true_and]
        rfl
      exact run.congr chosen

theorem gives_rebuild {α : Type} {items : List α} {name : α → String}
    {outcome : α → Except Fault Value} {kwargs : List (String × Expr)}
    (part : .ref Ref.replace ∈ whole.nodes) (names : items.map name = fields.map (·.1))
    (apart : (fields.map (·.1)).Nodup)
    (each : List.Forall₂ (fun a arg => arg.1 = name a ∧
      p.Gives g m (eval h (inner id cls fields c) (arg.2.term home)) (Object.value <$> outcome a))
      items kwargs) :
    p.Gives g m
      (eval h (inner id cls fields c)
        ((Expr.rebuild (.name Companion.recordParam) kwargs).term home)) (do
      let given ← items.mapM fun a => do return (name a, ← outcome a)
      return .value (.record cls given)) := by
  have callee := gives_ref (h := h) sees part support.replace
  have target : p.Gives g m
      (eval h (inner id cls fields c) (.name Companion.recordParam))
      (.ok (.value (.record cls fields))) := gives_name home rfl
  have run := gives_call (callNative .replace) callee (gives_evalAll_single target)
    (gives_keywords each) fun os ks _ _ => gives_of (callNative .replace os ks)
  cases made : items.mapM fun a => do return (name a, ← outcome a) with
  | error fault =>
    rw [made] at run
    exact run
  | ok given =>
    rw [made] at run
    have replaced : callNative .replace [.value (.record cls fields)] (asArguments given) =
        .ok (.value (.record cls given)) := by
      simp only [callNative, toValue_asArguments,
        replaceFields_all ((names_of_mapM made).trans names) apart]
      rfl
    exact run.congr replaced

end

def fieldValue (fields : List (String × Value)) (f : Field) : Value :=
  (fields.lookup (Name.attributeName f.name)).getD .null

section
variable {default : Field → Value}
  (names : fields.map (·.1) = fs.map fun f => Name.attributeName f.name)
  (apart : (fs.map fun f => Name.attributeName f.name).Nodup)
include names apart

theorem eq_map_fieldValue :
    fields = fs.map fun f => (Name.attributeName f.name, fieldValue fields f) :=
  calc fields
      = fields.map id := (List.map_id fields).symm
    _ = (fields.map (·.1)).map fun name => (name, (fields.lookup name).getD .null) := by
        rw [List.map_map]
        refine List.map_congr_left fun field member => ?_
        have looked : fields.lookup field.1 = some field.2 := lookup_of_mem (names ▸ apart) member
        simp [looked]
    _ = fs.map fun f => (Name.attributeName f.name, fieldValue fields f) := by
        rw [names, List.map_map]
        rfl

theorem lookup_fieldValue {f : Field} (member : f ∈ fs) :
    fields.lookup (Name.attributeName f.name) = some (fieldValue fields f) ∧
      (Name.attributeName f.name, fieldValue fields f) ∈ fields := by
  have here : (Name.attributeName f.name, fieldValue fields f) ∈ fields := by
    have inMap : (Name.attributeName f.name, fieldValue fields f) ∈
        fs.map fun f => (Name.attributeName f.name, fieldValue fields f) :=
      List.mem_map.mpr ⟨f, member, rfl⟩
    rwa [← eq_map_fieldValue names apart] at inMap
  exact ⟨lookup_of_mem (names ▸ apart) here, here⟩

theorem defaultedFields_eq :
    g.defaultedFields default fields = fs.mapM fun f => do
      return (Name.attributeName f.name, ← g.defaulted default (fieldValue fields f)) := by
  rw [Group.defaultedFields_eq_mapM]
  conv_lhs => rw [eq_map_fieldValue names apart]
  rw [List.mapM_map]
  rfl

omit names apart in
theorem filled_mapM {name : Field → String} {outcome : Field → Except Fault Value} :
    (do
      let given ← fs.mapM fun f => do return (name f, ← outcome f)
      return (fs.zip given).map fun pair => (pair.2.1, pair.1.filled default pair.2.2)) =
    fs.mapM fun f => do return (name f, ← f.filled default <$> outcome f) := by
  induction fs with
  | nil => rfl
  | cons f rest ih =>
    rw [List.mapM_cons, List.mapM_cons, ← ih]
    cases outcome f with
    | error fault => rfl
    | ok v =>
      cases rest.mapM fun f => do return (name f, ← outcome f) with
      | error fault => rfl
      | ok given => rfl

end

end Run.Program

namespace Companion

variable {r : Record} {result : Expr}

theorem applyDefaults_seenFrom (g : Group) (module : Value) (r : Record) :
    applyDefaults (g.seenFrom module) r = applyDefaults g r := by
  have field : field (g.seenFrom module) = field g := by
    funext f
    simp only [Companion.field, draw, Companion.default, declaredDefault, Group.draw_seenFrom,
      Group.literalExpr_seenFrom]
  simp only [applyDefaults, field, memberDefaults, declaredDefault, Group.literalExpr_seenFrom]

theorem applyDefaults_struct (made : applyDefaults g r = .ok result) (fields : r.fields ≠ [])
    (kind : r.kind ≠ .union) :
    ∃ kwargs, result = .rebuild (.name recordParam) kwargs ∧
      List.Forall₂ (fun f arg => arg.1 = Name.attributeName f.name ∧ default g f = .ok arg.2)
        r.fields kwargs := by
  simp only [applyDefaults, List.isEmpty_iff, fields, if_false, bne_iff_ne, ne_eq, kind,
    not_false_eq_true, if_true] at made
  obtain ⟨exprs, written, made⟩ := bind_eq_ok.mp made
  cases made
  refine ⟨_, rfl, ?_⟩
  rw [List.forall₂_map_right_iff]
  refine (mapM_eq_ok.mp written).imp fun f e made => ?_
  obtain ⟨drawn, -, made⟩ := bind_eq_ok.mp made
  obtain ⟨default, defaultMade, made⟩ := bind_eq_ok.mp made
  cases made
  exact ⟨rfl, defaultMade⟩

theorem applyDefaults_union (made : applyDefaults g r = .ok result) (fields : r.fields ≠ [])
    (kind : r.kind = .union) :
    ∃ defaults, List.Forall₂ (fun f arg => arg.1 = Name.attributeName f.name ∧
        declaredDefault g f = .ok arg.2) (r.fields.filter Field.declares) defaults ∧
      result = if defaults.isEmpty then
          .rebuild (.name recordParam)
            (r.fields.map fun f => (Name.attributeName f.name, defaultedField f))
        else .call (.ref (Ref.support "union_default"))
          [.rebuild (.name recordParam)
            (r.fields.map fun f => (Name.attributeName f.name, defaultedField f))] defaults := by
  have isUnion : (r.kind != .union) = false := by simp [kind]
  simp only [applyDefaults, List.isEmpty_iff, fields, if_false, isUnion] at made
  obtain ⟨defaults, written, made⟩ := bind_eq_ok.mp made
  refine ⟨defaults, (mapM_eq_ok.mp written).imp fun f arg made => ?_, ?_⟩
  · obtain ⟨e, known, made⟩ := bind_eq_ok.mp made
    cases made
    exact ⟨rfl, known⟩
  · split at made <;> cases made <;> simp_all

end Companion

namespace Run.Program

def Applies (p : Program) (g : Group) (m : Machine) (h : Hooks) (c : Object)
    (default : Field → Value) (v : Value) : Prop :=
  p.Gives g m (h.applyDefaults (.value v) c) (Object.value <$> g.defaulted default v)

section
variable {p : Program} {m : Machine} {s : Surroundings} {h : Hooks} {id : Nat}

variable {cls : RecordClass} {c : Object}

variable {default : Field → Value} {r : Record}

theorem callUnionDefault_eq {given : List (String × Value)}
    (names : given.map (·.1) = r.fields.map fun f => Name.attributeName f.name)
    (kind : r.kind = .union) :
    callSupport "union_default" [.value (.record cls given)] (asArguments
      ((r.fields.filter Field.declares).map fun f => (Name.attributeName f.name, default f))) =
      .ok (.value (.record cls (r.filled default given))) := by
  have first : r.firstDeclared? = (r.fields.filter Field.declares).head? :=
    List.head?_filter.symm
  change callUnionDefault (.value (.record cls given)) (asArguments _) = _
  simp only [callUnionDefault, toValue_asArguments, Record.filled, kind, if_true, first]
  cases declared : r.fields.filter Field.declares with
  | nil => rfl
  | cons f rest =>
    have inFields : f ∈ r.fields :=
      (List.mem_filter.mp (declared ▸ List.mem_cons_self .. : f ∈ r.fields.filter _)).1
    have present : given.any fun field => field.1 == Name.attributeName f.name := by
      have inNames : Name.attributeName f.name ∈ given.map (·.1) :=
        names ▸ List.mem_map.mpr ⟨f, inFields, rfl⟩
      simpa using inNames
    have replaced : replaceFields given [(Name.attributeName f.name, default f)] =
        .ok (setField (Name.attributeName f.name) (default f) given) := by
      simp [replaceFields, present, setField]
    have emptyIff : (given.any fun field => !field.2.isNull) =
        !given.all fun field => field.2.isNull := by
      simp [List.not_all_eq_any_not]
    simp only [List.map_cons, List.head?_cons, unionDefault?, emptyIff, replaced]
    cases given.all fun field => field.2.isNull <;> rfl

variable {whole : Expr}
  (sees : ∀ before, p.Imports g m before → before.Sees (inner id cls fields c) home s whole)
  (support : s.FindsSupport)
  (names : fields.map (·.1) = r.fields.map fun f => Name.attributeName f.name)
  (apart : (r.fields.map fun f => Name.attributeName f.name).Nodup)
  (applied : ∀ field ∈ fields, p.Applies g m h c default field.2)
include sees support names apart applied

theorem gives_members
    (part : ∀ node ∈ (Expr.rebuild (.name Companion.recordParam) (r.fields.map fun f =>
      (Name.attributeName f.name, Companion.defaultedField f))).nodes, node ∈ whole.nodes) :
    p.Gives g m (eval h (inner id cls fields c) ((Expr.rebuild (.name Companion.recordParam)
        (r.fields.map fun f =>
          (Name.attributeName f.name, Companion.defaultedField f))).term home)) (do
      let given ← g.defaultedFields default fields
      return .value (.record cls given)) := by
  rw [defaultedFields_eq names apart]
  refine gives_rebuild sees support (part _ (by simp [Expr.nodes])) names.symm (names ▸ apart) ?_
  rw [List.forall₂_map_right_iff, List.forall₂_same]
  intro f inFields
  obtain ⟨has, here⟩ := lookup_fieldValue names apart inFields
  refine ⟨rfl, gives_defaultedField sees support (fun node member => part node ?_) has
    (applied _ here)⟩
  have inKeywords := Expr.mem_nodesOfKeywords.mpr
    ⟨_, List.mem_map_of_mem (f := fun f => (Name.attributeName f.name, Companion.defaultedField f))
      inFields, member⟩
  simp [Expr.nodes, inKeywords]

variable (frozenset : s.name "frozenset" = .ok (.native .frozenset))
  (known : g.recordOf? cls.name = some r) (made : Companion.applyDefaults g r = .ok whole)
  (evaluates : ∀ f ∈ r.fields, f.declares → Companion.DefaultMeans g s f (default f))
include frozenset known made evaluates

theorem gives_struct (some : r.fields ≠ []) (kind : r.kind ≠ .union) :
    p.Gives g m (eval h (inner id cls fields c) (whole.term home))
      (Object.value <$> g.defaulted default (.record cls fields)) := by
  obtain ⟨kwargs, rfl, written⟩ := Companion.applyDefaults_struct made some kind
  have reference : Object.value <$> g.defaulted default (.record cls fields) = (do
      let given ← r.fields.mapM fun f => do
        return (Name.attributeName f.name,
          ← f.filled default <$> g.defaulted default (fieldValue fields f))
      return .value (.record cls given)) := by
    rw [Group.defaulted_record known, defaultedFields_eq names apart, ← filled_mapM]
    simp only [Record.filled, kind, if_false]
    cases r.fields.mapM fun f => do
      return (Name.attributeName f.name, ← g.defaulted default (fieldValue fields f)) <;> rfl
  rw [reference]
  refine gives_rebuild sees support (by simp [Expr.nodes]) names.symm (names ▸ apart) ?_
  refine (forall₂_mem written).imp fun f arg paired => ?_
  obtain ⟨inFields, inKeywords, name, expr⟩ := paired
  refine ⟨name, ?_⟩
  obtain ⟨has, here⟩ := lookup_fieldValue names apart inFields
  refine gives_default sees support frozenset expr (evaluates f inFields) (fun node member => ?_)
    has (applied _ here)
  simp [Expr.nodes, Expr.mem_nodesOfKeywords.mpr ⟨arg, inKeywords, member⟩]

theorem gives_union (some : r.fields ≠ []) (kind : r.kind = .union) :
    p.Gives g m (eval h (inner id cls fields c) (whole.term home))
      (Object.value <$> g.defaulted default (.record cls fields)) := by
  obtain ⟨defaults, written, same⟩ := Companion.applyDefaults_union made some kind
  have reference : Object.value <$> g.defaulted default (.record cls fields) = (do
      let given ← g.defaultedFields default fields
      return .value (.record cls (r.filled default given))) := by
    rw [Group.defaulted_record known]
    cases g.defaultedFields default fields <;> rfl
  rw [reference]
  by_cases empty : defaults.isEmpty
  · rw [if_pos empty] at same
    have undeclared : r.firstDeclared? = none := by
      rw [List.isEmpty_iff.mp empty, List.forall₂_nil_right_iff] at written
      rw [Record.firstDeclared?, ← List.head?_filter, written]
      rfl
    have unfilled : ∀ given, r.filled default given = given := by
      simp [Record.filled, kind, undeclared]
    simp only [unfilled]
    subst same
    exact gives_members sees support names apart applied fun _ member => member
  · rw [if_neg empty] at same
    subst same
    have members := gives_members sees support names apart applied fun _ member => by
      rw [Expr.nodes]
      simp [Expr.nodesOfAll, member]
    have callee := gives_ref (h := h) sees (r := Ref.support "union_default")
      (by simp [Expr.nodes]) (support.function _ (by simp))
    have each : List.Forall₂ (fun f arg => arg.1 = Name.attributeName f.name ∧
        p.Gives g m (eval h (inner id cls fields c) (arg.2.term home))
          (Object.value <$> (.ok (default f) : Except Fault Value)))
        (r.fields.filter Field.declares) defaults := by
      refine (forall₂_mem written).imp fun f arg paired => ?_
      obtain ⟨declared, inKeywords, name, expr⟩ := paired
      obtain ⟨inFields, declares⟩ := List.mem_filter.mp declared
      obtain ⟨e, known, means⟩ := evaluates f inFields declares
      cases known.symm.trans expr
      refine ⟨name, gives_literal sees frozenset (Group.namesFreezing_literalExpr expr) ?_ means⟩
      intro node member
      simp [Expr.nodes, Expr.mem_nodesOfKeywords.mpr ⟨arg, inKeywords, member⟩]
    have values : (r.fields.filter Field.declares).mapM (fun f => do
        return (Name.attributeName f.name, ← (.ok (default f) : Except Fault Value))) =
          .ok ((r.fields.filter Field.declares).map fun f =>
            (Name.attributeName f.name, default f)) := mapM_eq_map fun f _ => rfl
    have keywords := gives_keywords each
    rw [values] at keywords
    have run := gives_call (callSupport "union_default") callee (gives_evalAll_single members)
      keywords fun os ks _ _ => gives_support (by simp) os ks
    cases done : g.defaultedFields default fields with
    | error fault =>
      rw [done] at run
      exact run
    | ok given =>
      rw [done] at run
      exact run.congr
        (callUnionDefault_eq ((Group.names_defaultedFields done).trans names) kind)

/-- What the companion of a record returns for an instance is the instance with declared defaults
    applied. -/
theorem gives_result :
    p.Gives g m (eval h (inner id cls fields c) (whole.term home))
      (Object.value <$> g.defaulted default (.record cls fields)) := by
  by_cases none : r.fields = []
  · have noFields : fields = [] := by simpa [none] using names
    simp only [Companion.applyDefaults, none, List.isEmpty_nil, if_true] at made
    cases made
    subst noFields
    have unchanged : r.filled default [] = [] := by
      simp [Record.filled, Record.firstDeclared?, none]
    rw [Group.defaulted_record known, Group.defaultedFields]
    simp only [bind, Except.bind, unchanged]
    exact gives_name home rfl
  · by_cases kind : r.kind = .union
    · exact gives_union sees support names apart applied frozenset known made evaluates none kind
    · exact gives_struct sees support names apart applied frozenset known made evaluates none kind

end

end Run.Program

end IdlGen
