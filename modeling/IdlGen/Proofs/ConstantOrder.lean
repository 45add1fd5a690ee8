import IdlGen.Proofs.Closure
import IdlGen.Session.Load

/-!
The order in which modules are evaluated. All main modules of a group can be evaluated exactly if
no constant refers, inside its module, to a record of its own schema or to anything later
(`evaluable_iff_constantsInOrder`).
-/
namespace IdlGen

open Outcome

/-- A step in the evaluation of a module: the classes and constants that it gives, and the
    references that it reads in the value of a constant. -/
structure EvalStep where
  gives : List String
  reads : List Ref

namespace Declaration

def gives (d : Declaration) : List String :=
  (d.names.filter fun name => name.1 == .type || name.1 == .constant).map (·.2)

def steps : Declaration → List EvalStep
  | constants entries => entries.map fun c => { gives := [c.name], reads := c.value.refs }
  | d => [{ gives := d.gives, reads := [] }]

theorem flatMap_gives_steps (d : Declaration) : d.steps.flatMap (·.gives) = d.gives := by
  cases d with
  | constants entries =>
    have each : gives (constants entries) = entries.map (·.name) := by
      simp [gives, names, List.filter_map, Function.comp_def]
    rw [each, steps, List.flatMap_map, List.map_eq_flatMap]
  | _ => simp [steps]

end Declaration

def Output.steps (o : Output) : List EvalStep := o.body.flatMap Declaration.steps

/-- Steps of the module `home` can be taken with what is given before: whatever they read in their
    own module is given by then. -/
def EvaluableAfter (home : String) : List String → List EvalStep → Prop
  | _, [] => True
  | given, step :: rest =>
    (∀ r ∈ step.reads, r.module = home → r.head ∈ given) ∧
      EvaluableAfter home (given ++ step.gives) rest

instance decidableEvaluableAfter (home : String) :
    (given : List String) → (steps : List EvalStep) → Decidable (EvaluableAfter home given steps)
  | _, [] => .isTrue trivial
  | given, step :: rest =>
    have := decidableEvaluableAfter home (given ++ step.gives) rest
    inferInstanceAs (Decidable (_ ∧ _))

/-- What a constant reads in its own module is bound before it. -/
def Output.Evaluable (o : Output) : Prop := EvaluableAfter o.home [] o.steps

instance (o : Output) : Decidable o.Evaluable :=
  inferInstanceAs (Decidable (EvaluableAfter ..))

section
variable {home : String} {given : List String}

theorem evaluableAfter_append {first second : List EvalStep} :
    EvaluableAfter home given (first ++ second) ↔
      EvaluableAfter home given first ∧
        EvaluableAfter home (given ++ first.flatMap (·.gives)) second := by
  induction first generalizing given with
  | nil => simp [EvaluableAfter]
  | cons step rest ih =>
    simp only [List.cons_append, EvaluableAfter, ih, List.flatMap_cons, and_assoc,
      List.append_assoc]

theorem evaluableAfter_flatMap {α : Type} {block : α → List EvalStep} {items : List α} :
    EvaluableAfter home given (items.flatMap block) ↔
      ∀ before a after, items = before ++ a :: after →
        EvaluableAfter home (given ++ (before.flatMap block).flatMap (·.gives)) (block a) := by
  induction items generalizing given with
  | nil => simp [EvaluableAfter]
  | cons item rest ih =>
    rw [List.flatMap_cons, evaluableAfter_append, ih]
    constructor
    · rintro ⟨first, later⟩ before a after split
      cases before with
      | nil =>
        cases split
        simpa using first
      | cons b before =>
        rw [List.cons_append, List.cons.injEq] at split
        obtain ⟨rfl, split⟩ := split
        simpa using later before a after split
    · intro each
      refine ⟨by simpa using each [] item rest rfl, fun before a after split => ?_⟩
      simpa using each (item :: before) a after (by rw [split, List.cons_append])

theorem evaluableAfter_of_reads {steps : List EvalStep} (none : ∀ step ∈ steps, step.reads = []) :
    EvaluableAfter home given steps := by
  induction steps generalizing given with
  | nil => trivial
  | cons step rest ih =>
    obtain ⟨here, later⟩ := List.forall_mem_cons.mp none
    exact ⟨by simp [here], ih later⟩

end

/-! ### What schemas give to modules -/

namespace Group

/-- A schema gives a class or a constant of a name to the module of an output. -/
inductive Gives (g : Group) (s : Schema) (output : String) : String → Prop where
  | enum {e : Enum} (declared : e ∈ s.enums.values) (named : g.outputName e.name = .ok output) :
      Gives g s output (Name.className output)
  | record {r : Record}
      (declared : r ∈ s.structs.values ++ s.unions.values ++ s.exceptions.values)
      (named : g.outputName r.name = .ok output) : Gives g s output (Name.className output)
  | constant {c : Constant} (declared : c ∈ s.constants.values)
      (owned : (g.seenFrom s.module).owns c.name = .ok true)
      (named : g.constantsOutput s.module = .ok output) :
      Gives g s output (Name.sanitize (Name.last c.name))

/-- What a constant of a schema can read in its module, with the schemas and the constants of its
    own schema that stand before it: all that the earlier schemas give to the module, the enums of
    its own schema, and the earlier constants. -/
inductive Readable (g : Group) (earlier : List (Value × Schema)) (s : Schema)
    (before : List Constant) (output : String) : String → Prop where
  | earlier {entry : Value × Schema} {name : String} (member : entry ∈ earlier)
      (gives : g.Gives entry.2 output name) : Readable g earlier s before output name
  | enum {e : Enum} (declared : e ∈ s.enums.values) (named : g.outputName e.name = .ok output) :
      Readable g earlier s before output (Name.className output)
  | constant {c : Constant} (member : c ∈ before)
      (owned : (g.seenFrom s.module).owns c.name = .ok true) :
      Readable g earlier s before output (Name.sanitize (Name.last c.name))

/-- Whatever the constants of a schema refer to inside the module of an output, they can read. -/
def ReadsInOrder (g : Group) (earlier : List (Value × Schema)) (s : Schema) (output : String) :
    Prop :=
  ∀ before c after, s.constants.values = before ++ c :: after →
    (g.seenFrom s.module).owns c.name = .ok true →
    ∀ e, g.literalExpr c.value (some c.type) false = .ok e →
      ∀ r ∈ e.refs, r.module = Name.modulePath output → g.Readable earlier s before output r.head

/-- Whatever the constants of a group refer to inside their modules, they can read. -/
def ConstantsInOrder (g : Group) : Prop :=
  ∀ earlier entry later, g.schemas = earlier ++ entry :: later →
    ∀ output, g.constantsOutput entry.2.module = .ok output → g.ReadsInOrder earlier entry.2 output

theorem readable_iff {g : Group} {earlier : List (Value × Schema)} {s : Schema}
    {before : List Constant} {output name : String} :
    g.Readable earlier s before output name ↔
      (∃ entry ∈ earlier, g.Gives entry.2 output name) ∨
      (name = Name.className output ∧ ∃ e ∈ s.enums.values, g.outputName e.name = .ok output) ∨
      ∃ c ∈ before, (g.seenFrom s.module).owns c.name = .ok true ∧
        name = Name.sanitize (Name.last c.name) := by
  constructor
  · intro readable
    cases readable with
    | earlier member gives => exact .inl ⟨_, member, gives⟩
    | enum declared named => exact .inr (.inl ⟨rfl, _, declared, named⟩)
    | constant member owned => exact .inr (.inr ⟨_, member, owned, rfl⟩)
  · rintro (⟨entry, member, gives⟩ | ⟨rfl, e, declared, named⟩ | ⟨c, member, owned, rfl⟩)
    · exact .earlier member gives
    · exact .enum declared named
    · exact .constant member owned

end Group

namespace Stream

variable {g : Group} {s : Schema} {output home : String} {given : List String}

def stepsUnder (output : String) (stream : List Named) : List EvalStep :=
  (under output stream).flatMap Output.steps

theorem stepsUnder_append (output : String) (first second : List Named) :
    stepsUnder output (first ++ second) = stepsUnder output first ++ stepsUnder output second := by
  simp [stepsUnder, under_append]

variable {α : Type} {stream outs : List Named} {name : String} {c : Constant} {part : Streams}

theorem stepsUnder_flatMap (output : String) (items : List α) (block : α → List Named) :
    stepsUnder output (items.flatMap block) = items.flatMap fun a => stepsUnder output (block a) := by
  induction items with
  | nil => rfl
  | cons item rest ih => rw [List.flatMap_cons, stepsUnder_append, ih, List.flatMap_cons]

def gives (o : Output) : List String := o.body.flatMap Declaration.gives

theorem mem_gives_stepsUnder :
    name ∈ (stepsUnder output stream).flatMap (·.gives) ↔
      ∃ o, (output, o) ∈ stream ∧ name ∈ gives o := by
  have each (o : Output) : o.steps.flatMap (·.gives) = gives o := by
    simp [Output.steps, gives, List.flatMap_assoc, Declaration.flatMap_gives_steps]
  simp only [stepsUnder, List.flatMap_assoc, each, List.mem_flatMap, mem_under_iff]

theorem collect_append {first second : List (Except Fault Emission)} {all : List Named}
    (done : collect (first ++ second) = .ok all) :
    ∃ before after, collect first = .ok before ∧ collect second = .ok after ∧
      all = before ++ after := by
  rw [collect, List.mapM_append] at done
  obtain ⟨before, firstDone, done⟩ := bind_eq_ok.mp done
  obtain ⟨after, secondDone, done⟩ := bind_eq_ok.mp done
  cases done
  exact ⟨before, after, firstDone, secondDone, rfl⟩

def Silent (o : Output) : Prop := ∀ step ∈ o.steps, step.reads = []

theorem reads_stepsUnder (silent : ∀ named ∈ stream, Silent named.2) :
    ∀ step ∈ stepsUnder output stream, step.reads = [] := by
  intro step member
  obtain ⟨o, known, inSteps⟩ := List.mem_flatMap.mp member
  exact silent _ (mem_under_iff.mp known) step inSteps

theorem silent_collect {items : List α} {emit : α → Except Fault Emission}
    (done : collect (items.map emit) = .ok outs)
    (each : ∀ a emission, emit a = .ok emission → Silent emission.output) :
    ∀ named ∈ outs, Silent named.2 := by
  intro named member
  obtain ⟨emission, known, rfl⟩ := (mem_collect_iff done).mp member
  obtain ⟨a, -, made⟩ := List.mem_map.mp known
  exact each a emission made

theorem mem_gives_collect {α : Type} {items : List α} {emit : α → Except Fault Emission}
    {entityName : α → String} {outs : List Named}
    (each : ∀ a emission, emit a = .ok emission → g.outputName (entityName a) = .ok emission.name ∧
      gives emission.output = [Name.className emission.name])
    (done : collect (items.map emit) = .ok outs) {name : String} :
    (∃ o, (output, o) ∈ outs ∧ name ∈ gives o) ↔
      name = Name.className output ∧ ∃ a ∈ items, g.outputName (entityName a) = .ok output := by
  constructor
  · rintro ⟨o, member, given⟩
    obtain ⟨emission, known, same⟩ := (mem_collect_iff done).mp member
    cases same
    obtain ⟨a, inItems, made⟩ := List.mem_map.mp known
    obtain ⟨named, class_⟩ := each a emission made
    rw [class_] at given
    exact ⟨List.mem_singleton.mp given, a, inItems, named⟩
  · rintro ⟨rfl, a, inItems, named⟩
    have known : emit a ∈ items.map emit := List.mem_map_of_mem inItems
    obtain ⟨emission, made⟩ := ok_of_collect done known
    obtain ⟨emissionName, class_⟩ := each a emission made
    cases Except.ok.inj (named.symm.trans emissionName)
    rw [made] at known
    exact ⟨emission.output, (mem_collect_iff done).mpr ⟨emission, known, rfl⟩, by simp [class_]⟩

theorem gives_enum (e : Enum) (emission : Emission)
    (made : enumEmission g s.path e = .ok emission) :
    g.outputName e.name = .ok emission.name ∧
      gives emission.output = [Name.className emission.name] := by
  obtain ⟨named, drafted⟩ := enumEmission_eq_ok made
  exact ⟨named, by rw [gives, (Emit.enumeration_eq_ok drafted).body]; rfl⟩

theorem silent_enum (e : Enum) (emission : Emission)
    (made : enumEmission g s.path e = .ok emission) : Silent emission.output := by
  have body := (Emit.enumeration_eq_ok (enumEmission_eq_ok made).2).body
  simp [Silent, Output.steps, body, Declaration.steps]

theorem gives_record (r : Record) (emission : Emission)
    (made : recordEmission g s.path r = .ok emission) :
    g.outputName r.name = .ok emission.name ∧
      gives emission.output = [Name.className emission.name] := by
  obtain ⟨named, drafted⟩ := recordEmission_eq_ok made
  obtain ⟨attributes, -, drafted⟩ := Emit.record_eq_ok drafted
  exact ⟨named, by rw [gives, drafted.body]; rfl⟩

theorem silent_record (r : Record) (emission : Emission)
    (made : recordEmission g s.path r = .ok emission) : Silent emission.output := by
  obtain ⟨attributes, -, drafted⟩ := Emit.record_eq_ok (recordEmission_eq_ok made).2
  simp [Silent, Output.steps, drafted.body, Declaration.steps]

theorem services_silent {outs : List Named}
    (done : collect (s.services.values.map (serviceEmission g s.path) ++
      s.services.values.map (handlerEmission g s.path)) = .ok outs) :
    ∀ named ∈ outs, gives named.2 = [] ∧ Silent named.2 := by
  intro named member
  obtain ⟨emission, known, rfl⟩ := (mem_collect_iff done).mp member
  simp only [List.mem_append, List.mem_map] at known
  rcases known with ⟨service, -, made⟩ | ⟨service, -, made⟩
  · obtain ⟨o, drafted, made⟩ := bind_eq_ok.mp made
    cases made
    have each : ∀ d ∈ o.body, d.gives = [] ∧ ∀ step ∈ d.steps, step.reads = [] := by
      intro d inBody
      have isPart := Emit.service_parts drafted d inBody
      cases d with
      | arguments | response => exact ⟨rfl, by simp [Declaration.steps]⟩
      | functionTable rows parent =>
        exact ⟨by cases parent <;> rfl, by simp [Declaration.steps]⟩
      | _ => cases isPart
    refine ⟨List.flatMap_eq_nil_iff.mpr fun d inBody => (each d inBody).1, ?_⟩
    intro step inSteps
    obtain ⟨d, inBody, inSteps⟩ := List.mem_flatMap.mp inSteps
    exact (each d inBody).2 step inSteps
  · obtain ⟨o, drafted, made⟩ := bind_eq_ok.mp made
    cases made
    obtain ⟨name, parent, methods, -, -, -, drafted⟩ := Emit.handler_eq_ok drafted
    have body := drafted.body
    exact ⟨by rw [gives, body]; rfl, by simp [Silent, Output.steps, body, Declaration.steps]⟩

def isOwn (g : Group) (c : Constant) : Bool := (g.owns c.name).toOption == some true

theorem isOwn_iff : isOwn g c ↔ g.owns c.name = .ok true := by
  rw [isOwn]
  cases g.owns c.name <;> simp [Except.toOption]

def literalRefs (g : Group) (c : Constant) : List Ref :=
  match g.literalExpr c.value (some c.type) false with
  | .ok e => e.refs
  | .error _ => []

theorem mem_literalRefs {r : Ref} {module : Value} :
    r ∈ literalRefs (g.seenFrom module) c ↔
      ∃ e, g.literalExpr c.value (some c.type) false = .ok e ∧ r ∈ e.refs := by
  rw [literalRefs, Group.literalExpr_seenFrom]
  cases g.literalExpr c.value (some c.type) false <;> simp

def constantSteps (g : Group) (c : Constant) : List EvalStep :=
  if isOwn g c then
    [{ gives := [Name.sanitize (Name.last c.name)], reads := literalRefs g c }]
  else []

theorem evaluableAfter_constantSteps :
    EvaluableAfter home given (constantSteps g c) ↔
      (g.owns c.name = .ok true → ∀ r ∈ literalRefs g c, r.module = home → r.head ∈ given) := by
  rw [constantSteps, ← isOwn_iff]
  by_cases own : isOwn g c <;> simp [own, EvaluableAfter]

theorem flatMap_constantSteps (g : Group) (cs : List Constant) :
    cs.flatMap (constantSteps g) = (cs.filter (isOwn g)).map fun c =>
      { gives := [Name.sanitize (Name.last c.name)], reads := literalRefs g c } := by
  induction cs with
  | nil => rfl
  | cons c rest ih =>
    rw [List.flatMap_cons, ih, constantSteps]
    by_cases own : isOwn g c <;> simp [own]

theorem mem_gives_constantSteps {cs : List Constant} :
    name ∈ (cs.flatMap (constantSteps g)).flatMap (·.gives) ↔
      ∃ c ∈ cs, g.owns c.name = .ok true ∧ name = Name.sanitize (Name.last c.name) := by
  rw [flatMap_constantSteps, List.flatMap_map]
  simp only [List.mem_flatMap, List.mem_filter, List.mem_singleton, isOwn_iff, and_assoc]

theorem map_eq_map_of_forall₂ {β γ : Type} {R : α → β → Prop} {f : α → γ} {k : β → γ}
    (same : ∀ a b, R a b → f a = k b) {as : List α} {bs : List β} (pairs : List.Forall₂ R as bs) :
    as.map f = bs.map k := by
  induction pairs with
  | nil => rfl
  | cons first _ ih => rw [List.map_cons, List.map_cons, same _ _ first, ih]

theorem stepsUnder_constants (done : collect (constantEmissions g s) = .ok outs) :
    stepsUnder output outs = if g.currentConstantsOutput.toOption = some output then
      s.constants.values.flatMap (constantSteps g) else [] := by
  rw [flatMap_constantSteps]
  cases own : ownConstants g s with
  | error fault =>
    rw [constantEmissions, own] at done
    cases done
  | ok cs =>
    rw [show s.constants.values.filter (isOwn g) = cs from (filterM_eq_ok own).symm]
    cases cs with
    | nil =>
      rw [constantEmissions, own] at done
      cases done
      simp [stepsUnder, under]
    | cons c rest =>
      rw [constantEmissions, own] at done
      cases mapM_eq_ok.mp done with
      | cons made ended =>
        cases ended
        obtain ⟨emission, emitted, same⟩ := bind_eq_ok.mp made
        obtain ⟨name, current, emitted⟩ := bind_eq_ok.mp emitted
        obtain ⟨o, drafted, emitted⟩ := bind_eq_ok.mp emitted
        cases emitted
        cases same
        obtain ⟨entries, each, drafted⟩ := Emit.constants_eq_ok drafted
        have steps : o.steps = (c :: rest).map fun c =>
            { gives := [Name.sanitize (Name.last c.name)], reads := literalRefs g c } := by
          rw [Output.steps, drafted.body, List.flatMap_singleton, Declaration.steps]
          exact (map_eq_map_of_forall₂ (fun c entry isConstant => by
            rw [isConstant.name, literalRefs, isConstant.value]) each).symm
        rw [current]
        by_cases here : name = output
        · simp [here, stepsUnder, under, steps, Except.toOption]
        · simp [here, stepsUnder, under, Except.toOption]

theorem main_eq_append (done : ofSchema g s = .ok part) :
    ∃ enums constants records services,
      collect (s.enums.values.map (enumEmission (g.seenFrom s.module) s.path)) = .ok enums ∧
      collect (constantEmissions (g.seenFrom s.module) s) = .ok constants ∧
      collect ((s.structs.values ++ s.unions.values ++ s.exceptions.values).map
        (recordEmission (g.seenFrom s.module) s.path)) = .ok records ∧
      collect (s.services.values.map (serviceEmission (g.seenFrom s.module) s.path) ++
        s.services.values.map (handlerEmission (g.seenFrom s.module) s.path)) = .ok services ∧
      part.main = enums ++ (constants ++ (records ++ services)) := by
  have all := (ofSchema_eq_ok done).1
  have order : mainEmissions (g.seenFrom s.module) s =
      s.enums.values.map (enumEmission (g.seenFrom s.module) s.path) ++
        (constantEmissions (g.seenFrom s.module) s ++
          ((s.structs.values ++ s.unions.values ++ s.exceptions.values).map
            (recordEmission (g.seenFrom s.module) s.path) ++
            (s.services.values.map (serviceEmission (g.seenFrom s.module) s.path) ++
              s.services.values.map (handlerEmission (g.seenFrom s.module) s.path)))) := by
    simp only [mainEmissions, List.map_append, List.append_assoc]
  rw [order] at all
  obtain ⟨enums, afterEnums, enumsDone, later, split⟩ := collect_append all
  obtain ⟨constants, afterConstants, constantsDone, last, rfl⟩ := collect_append later
  obtain ⟨records, services, recordsDone, servicesDone, rfl⟩ := collect_append last
  exact ⟨enums, constants, records, services, enumsDone, constantsDone, recordsDone, servicesDone,
    split⟩

theorem mem_gives_main (done : ofSchema g s = .ok part) :
    name ∈ (stepsUnder output part.main).flatMap (·.gives) ↔ g.Gives s output name := by
  obtain ⟨enums, constants, records, services, enumsDone, constantsDone, recordsDone,
    servicesDone, main⟩ := main_eq_append done
  have noServices : ¬ ∃ o, (output, o) ∈ services ∧ name ∈ gives o := by
    rintro ⟨o, member, given⟩
    rw [(services_silent servicesDone _ member).1] at given
    cases given
  have fromEnums : (∃ o, (output, o) ∈ enums ∧ name ∈ gives o) ↔ _ :=
    mem_gives_collect gives_enum enumsDone
  have fromRecords : (∃ o, (output, o) ∈ records ∧ name ∈ gives o) ↔ _ :=
    mem_gives_collect gives_record recordsDone
  rw [main]
  simp only [stepsUnder_append, List.flatMap_append, List.mem_append, mem_gives_stepsUnder,
    fromEnums, fromRecords, noServices, or_false]
  rw [← mem_gives_stepsUnder, stepsUnder_constants constantsDone]
  constructor
  · rintro (⟨rfl, e, declared, named⟩ | given | ⟨rfl, r, declared, named⟩)
    · exact .enum declared named
    · split at given
      · rename_i here
        obtain ⟨c, declared, owned, rfl⟩ := mem_gives_constantSteps.mp given
        exact .constant declared owned (toOption_eq_some.mp here)
      · cases given
    · exact .record (by simpa [or_assoc] using declared) named
  · intro given
    cases given with
    | enum declared named => exact .inl ⟨rfl, _, declared, named⟩
    | record declared named => exact .inr (.inr ⟨rfl, _, by simpa [or_assoc] using declared, named⟩)
    | constant declared owned named =>
      have current : (g.seenFrom s.module).currentConstantsOutput.toOption = some output :=
        toOption_eq_some.mpr named
      rw [if_pos current]
      exact .inr (.inl (mem_gives_constantSteps.mpr ⟨_, declared, owned, rfl⟩))

/-- The outputs of a schema can be evaluated if its constants can, after its enums and after what
    earlier schemas give. -/
theorem evaluableAfter_main (done : ofSchema g s = .ok part) {earlier : List (Value × Schema)}
    (before : ∀ name, name ∈ given ↔ ∃ entry ∈ earlier, g.Gives entry.2 output name) :
    EvaluableAfter (Name.modulePath output) given (stepsUnder output part.main) ↔
      (g.constantsOutput s.module = .ok output → g.ReadsInOrder earlier s output) := by
  obtain ⟨enums, constants, records, services, enumsDone, constantsDone, recordsDone,
    servicesDone, main⟩ := main_eq_append done
  have enumsSilent : ∀ step ∈ stepsUnder output enums, step.reads = [] :=
    reads_stepsUnder (silent_collect enumsDone silent_enum)
  have recordsSilent : ∀ step ∈ stepsUnder output records, step.reads = [] :=
    reads_stepsUnder (silent_collect recordsDone silent_record)
  have servicesSilent : ∀ step ∈ stepsUnder output services, step.reads = [] :=
    reads_stepsUnder fun named member => (services_silent servicesDone named member).2
  have fromEnums (name : String) : (∃ o, (output, o) ∈ enums ∧ name ∈ gives o) ↔ _ :=
    mem_gives_collect gives_enum enumsDone
  rw [main]
  simp only [stepsUnder_append, evaluableAfter_append, evaluableAfter_of_reads enumsSilent,
    evaluableAfter_of_reads recordsSilent, evaluableAfter_of_reads servicesSilent, true_and,
    and_true, stepsUnder_constants constantsDone]
  by_cases here : (g.seenFrom s.module).currentConstantsOutput.toOption = some output
  · have named : g.constantsOutput s.module = .ok output := toOption_eq_some.mp here
    simp only [if_pos here, named, forall_const, evaluableAfter_flatMap,
      evaluableAfter_constantSteps, List.mem_append, before, mem_gives_stepsUnder, fromEnums,
      mem_gives_constantSteps, mem_literalRefs, or_assoc, Group.ReadsInOrder, Group.readable_iff]
    exact ⟨fun each before c after split owned e written r member =>
        each before c after split owned r ⟨e, written, member⟩,
      fun each before c after split owned r ⟨e, written, member⟩ =>
        each before c after split owned e written r member⟩
  · have away : g.constantsOutput s.module ≠ .ok output := fun named =>
      here (toOption_eq_some.mpr named)
    simp [here, away, EvaluableAfter]

end Stream

section
open IdlGen.Stream

variable {g : Group} {raw streams : Streams} {output : String}

def partOf (g : Group) (s : Schema) : Streams := (ofSchema g s).toOption.getD {}

theorem ofSchema_eq_partOf (generated : ofGroup g = .ok raw) {entry : Value × Schema}
    (known : entry ∈ g.schemas) : ofSchema g entry.2 = .ok (partOf g entry.2) := by
  obtain ⟨parts, made, -⟩ := ofGroup_eq_ok generated
  obtain ⟨part, -, same⟩ := exists_of_mapM made known
  rw [partOf, same, Except.toOption, Option.getD_some]

theorem main_eq_flatMap (generated : ofGroup g = .ok raw) :
    raw.main = g.schemas.flatMap fun entry => (partOf g entry.2).main := by
  obtain ⟨parts, made, main, -⟩ := ofGroup_eq_ok generated
  have same : g.schemas.map (fun entry => partOf g entry.2) = parts.map id := by
    refine map_eq_map_of_forall₂ (fun entry part made => ?_) (mapM_eq_ok.mp made)
    rw [partOf, made, Except.toOption, Option.getD_some, id]
  rw [main, ← List.map_id parts, ← same, List.flatMap_map]

theorem mem_gives_schemas (generated : ofGroup g = .ok raw) {schemas : List (Value × Schema)}
    (inGroup : ∀ entry ∈ schemas, entry ∈ g.schemas) (name : String) :
    name ∈ (schemas.flatMap fun entry =>
        stepsUnder output (partOf g entry.2).main).flatMap (·.gives) ↔
      ∃ entry ∈ schemas, g.Gives entry.2 output name := by
  rw [List.flatMap_assoc, List.mem_flatMap]
  refine exists_congr fun entry => and_congr_right fun member => ?_
  exact mem_gives_main (ofSchema_eq_partOf generated (inGroup entry member))

/-- A unit can be evaluated if the constants of each schema that has its constants in the unit read
    them in order. -/
theorem evaluable_unit_iff (generated : ofGroup g = .ok raw)
    (folded : Folded raw.main streams.main) {unit : Named} (member : unit ∈ streams.main) :
    unit.2.Evaluable ↔
      ∀ earlier entry later, g.schemas = earlier ++ entry :: later →
        g.constantsOutput entry.2.module = .ok unit.1 → g.ReadsInOrder earlier entry.2 unit.1 := by
  have steps : unit.2.steps =
      g.schemas.flatMap fun entry => stepsUnder unit.1 (partOf g entry.2).main := by
    rw [Output.steps, folded.body_unit member, List.flatMap_assoc, ← stepsUnder_flatMap,
      ← main_eq_flatMap generated]
    rfl
  have home : unit.2.home = Name.modulePath unit.1 := by
    rw [Output.home, folded.name_unit (fun _ => name_main generated) member]
  rw [Output.Evaluable, steps, home, evaluableAfter_flatMap]
  simp only [List.nil_append]
  refine forall_congr' fun earlier => forall_congr' fun entry => forall_congr' fun later =>
    forall_congr' fun split => ?_
  have inGroup : ∀ other ∈ earlier, other ∈ g.schemas := fun other known => by
    rw [split]
    exact List.mem_append_left _ known
  have known : entry ∈ g.schemas := by simp [split]
  exact evaluableAfter_main (ofSchema_eq_partOf generated known)
    (mem_gives_schemas generated inGroup)

/-- All main modules of a group can be evaluated from top to bottom exactly if the constants of each
    schema refer, inside their module, only to what earlier schemas give to it, to enums of their
    own schema and to earlier constants of it. References to records of their own schema fail. -/
theorem evaluable_iff_constantsInOrder (resolved : Stream.resolved g = .ok streams) :
    (∀ unit ∈ streams.main, unit.2.Evaluable) ↔ g.ConstantsInOrder := by
  obtain ⟨raw, generated, folded, -⟩ := resolved_eq_ok resolved
  constructor
  · intro evaluable earlier entry later split output named before c after constants owned
    -- The unit of the constants is there, since the schema has one of its own.
    have known : entry ∈ g.schemas := by simp [split]
    have declared : c ∈ entry.2.constants.values := by simp [constants]
    obtain ⟨emission, cs, inMain, emissionName, -⟩ :=
      constants_of_owned generated known declared owned
    cases Except.ok.inj (named.symm.trans emissionName)
    have inRaw := (mem_main_iff generated).mpr ⟨entry, known, emission, inMain, rfl⟩
    obtain ⟨unit, member, -⟩ := folded.unit inRaw
    exact (evaluable_unit_iff generated folded member).mp (evaluable _ member) earlier entry later
      split named before c after constants owned
  · intro ordered unit member
    rw [evaluable_unit_iff generated folded member]
    exact fun earlier entry later split named => ordered earlier entry later split unit.1 named

/-- An enum and constants in one module: the first constant is a member of the enum, and the second
    is the first. -/
def hueGroup : Group where
  schemas := [(.text "hue", {
    module := .text "hue"
    enums := [("Hue", { name := "hue.Hue", values := [("RED", 1)] })]
    constants := [
      ("FIRST", { name := "hue.FIRST", type := .ref "hue.Hue", value := .int 1 }),
      ("SECOND", { name := "hue.SECOND", type := .ref "hue.Hue", value := .ref "hue.FIRST" })] })]

/-- The constants read the class and each other inside their module, in order. -/
theorem hue_constantsInOrder :
    (∃ streams, Stream.resolved hueGroup = .ok streams ∧
      (∀ unit ∈ streams.main, unit.2.Evaluable) ∧
      ∃ unit ∈ streams.main, ∃ step ∈ unit.2.steps, ∃ r ∈ step.reads, r.module = unit.2.home) ∧
    hueGroup.ConstantsInOrder := by
  refine (and_iff_left_of_imp ?_).mpr ?_
  · rintro ⟨streams, resolved, evaluable, -⟩
    exact (evaluable_iff_constantsInOrder resolved).mp evaluable
  · simp only [← toOption_eq_some, ← Option.mem_def]
    decide +kernel

/-- A document of a module with a record of the same name, and a constant that is an instance. -/
def pointDocument : String :=
  "\x7b\"module\": \"point\", \"structs\": [\x7b\"name\": \"Point\", \"fields\": " ++
  "[\x7b\"name\": \"x\", \"type\": \"i32\"\x7d]\x7d], \"constants\": " ++
  "[\x7b\"name\": \"ORIGIN\", \"type\": \"Point\", \"value\": \x7b\"x\": 0\x7d\x7d]\x7d"

def pointWorld : World where
  tree := { nodes := [(["point.json"], .file pointDocument)] }

/-- The group of the document is accepted, and its constant refers to nothing but the class of the
    record; but the class comes after the constant in their module. -/
theorem point_not_evaluable :
    ∃ g, ((Session.loadGroup ["point.json"]).run pointWorld).1 = .ok g ∧
      ((Session.generate g ["", ""] false).run pointWorld).1.toOption.isSome ∧
      (∀ c ∈ g.constants, ∀ r ∈ literalRefs g c, r = { module := "point", attr := "Point" }) ∧
      ∃ streams, Stream.resolved g = .ok streams ∧ ∃ unit ∈ streams.main, ¬ unit.2.Evaluable := by
  simp only [← toOption_eq_some, ← Option.mem_def]
  decide +kernel

end
end IdlGen
