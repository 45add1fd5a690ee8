import IdlGen.Proofs.Mentions

/-!
Imports of generated modules. What a module imports after drafting and merging is what its
declarations refer to, each line once (`imports_once`).
-/
namespace IdlGen

open Outcome

variable {lines : List String} {exprs : List Expr} {hints : List TypeHint}
  {body : List Declaration} {line name : String} {g : Group} {path : Value} {s : Service}
  {o : Output}

/-! ### Outputs as they are drafted -/

structure Output.ImportsNeeded (o : Output) : Prop where
  imports : ∀ line, line ∈ o.imports ↔ line ∈ o.body.flatMap Declaration.fixedImports ∨
    line ∈ Expr.linesOf o.home (o.body.flatMap Declaration.lowered)
  typeImports : ∀ line ∈ o.typeImports,
    line ∈ TypeHint.linesOf o.home (o.body.flatMap Declaration.hints)
  hinted : ∀ line ∈ TypeHint.linesOf o.home (o.body.flatMap Declaration.hints),
    line ∈ o.imports ∨ line ∈ o.typeImports
  plain : ∀ e ∈ o.body.flatMap Declaration.lowered, e.Plain
  plainClasses : ∀ hint ∈ o.body.flatMap Declaration.hints, ∀ r ∈ hint.classes, r.Plain

theorem Output.Drafted.importsNeeded {kind : OutputKind}
    (drafted : o.Drafted name kind path lines exprs hints body) (plain : ∀ e ∈ exprs, e.Plain)
    (fixed : ∀ line, line ∈ lines ↔ line ∈ body.flatMap Declaration.fixedImports)
    (lowered : ∀ e, e ∈ exprs ↔ e ∈ body.flatMap Declaration.lowered)
    (annotated : ∀ hint ∈ hints, hint ∈ body.flatMap Declaration.hints)
    (others : ∀ hint ∈ body.flatMap Declaration.hints,
      hint ∈ hints ∨ ∃ cls, hint = .cls cls ∧ .ref cls ∈ exprs) : o.ImportsNeeded := by
  have imports := drafted.imports
  have typeImports := drafted.typeImports
  rw [← drafted.body] at fixed lowered annotated others
  constructor
  · intro line
    rw [imports, fixed, Expr.linesOf_congr lowered]
  · intro line member
    obtain ⟨hint, known, needed⟩ := List.mem_flatMap.mp ((typeImports line).mp member)
    exact List.mem_flatMap.mpr ⟨hint, annotated hint known, needed⟩
  · intro line member
    obtain ⟨hint, known, needed⟩ := List.mem_flatMap.mp member
    rcases others hint known with here | ⟨cls, rfl, used⟩
    · exact .inr ((typeImports line).mpr (List.mem_flatMap.mpr ⟨hint, here, needed⟩))
    · exact .inl ((imports line).mpr (.inr (List.mem_flatMap.mpr ⟨_, used, needed⟩)))
  · exact fun e member => plain e ((lowered e).mpr member)
  · intro hint member r named
    rcases others hint member with here | ⟨cls, rfl, used⟩
    · exact drafted.plainClasses hint here r named
    · cases List.mem_singleton.mp named
      exact (plain _ used).of_mem_refs (List.mem_singleton_self _)

theorem Output.Drafted.importsNeeded_of_hints {kind : OutputKind}
    (drafted : o.Drafted name kind path lines exprs hints body) (plain : ∀ e ∈ exprs, e.Plain)
    (fixed : ∀ line, line ∈ lines ↔ line ∈ body.flatMap Declaration.fixedImports)
    (lowered : ∀ e, e ∈ exprs ↔ e ∈ body.flatMap Declaration.lowered)
    (annotated : ∀ hint, hint ∈ hints ↔ hint ∈ body.flatMap Declaration.hints) :
    o.ImportsNeeded :=
  drafted.importsNeeded plain fixed lowered (fun hint => (annotated hint).mp)
    fun hint member => .inl ((annotated hint).mpr member)

namespace Emit

theorem importsNeeded_record {kind : String} {r : Record}
    (done : record g path kind name r = .ok o) : o.ImportsNeeded := by
  obtain ⟨attributes, -, drafted⟩ := record_eq_ok done
  refine drafted.importsNeeded_of_hints (by simp) ?_ ?_ ?_
  all_goals simp [Declaration.fixedImports, Declaration.lowered, Declaration.hints]

theorem importsNeeded_enumeration {e : Enum} (done : enumeration g path name e = .ok o) :
    o.ImportsNeeded := by
  refine (enumeration_eq_ok done).importsNeeded_of_hints (by simp) ?_ ?_ ?_
  all_goals simp [Declaration.fixedImports, Declaration.lowered, Declaration.hints]

theorem importsNeeded_constants {cs : List Constant} (done : constants g path name cs = .ok o) :
    o.ImportsNeeded := by
  obtain ⟨entries, each, drafted⟩ := constants_eq_ok done
  refine drafted.importsNeeded_of_hints (fun e written => ?_) ?_ ?_ ?_
  · obtain ⟨entry, member, rfl⟩ := List.mem_map.mp written
    obtain ⟨c, -, isConstant⟩ := mem_of_forall₂ each member
    exact Group.writtenWith_literalExpr (Group.drawsAllowed_plain _).toClassesAllowed
      (Group.valuesAllowed_plain _ _) isConstant.value
  all_goals simp [Declaration.fixedImports, Declaration.lowered, Declaration.hints]

theorem importsNeeded_service (done : service g path s = .ok o) : o.ImportsNeeded := by
  have all := service_parts done
  obtain ⟨name, parts, rows, parent, -, -, -, drafted⟩ := service_eq_ok done
  rw [drafted.body] at all
  refine drafted.importsNeeded_of_hints (by simp) (fun line => ?_) (fun e => ?_)
    (by simp [Declaration.hints])
  · rw [List.mem_singleton]
    constructor
    · rintro rfl
      exact List.mem_flatMap.mpr ⟨_, List.mem_append_right _ (.head _), .head _⟩
    · intro needed
      obtain ⟨part, member, needed⟩ := List.mem_flatMap.mp needed
      rw [Declaration.fixedImports_of_isServicePart (all part member)] at needed
      exact List.mem_singleton.mp needed
  · simp only [List.not_mem_nil, false_iff]
    intro written
    obtain ⟨part, member, written⟩ := List.mem_flatMap.mp written
    rw [Declaration.lowered_of_isServicePart (all part member)] at written
    cases written

theorem importsNeeded_handler (done : handler g path s = .ok o) : o.ImportsNeeded := by
  obtain ⟨name, parent, methods, -, parents, -, drafted⟩ := handler_eq_ok done
  refine drafted.importsNeeded_of_hints (fun e written => ?_) ?_ ?_ ?_
  · obtain ⟨r, isParent, rfl⟩ := List.mem_map.mp written
    cases Option.mem_toList.mp isParent
    cases extends? : s.extends? with
    | none =>
      rw [extends?] at parents
      cases parents
    | some parentName =>
      rw [extends?] at parents
      obtain ⟨ref, named, same⟩ := map_eq_ok.mp parents
      cases same
      obtain ⟨output, -, made⟩ := bind_eq_ok.mp named
      cases made
      exact Expr.writtenWith_ref.mpr (.generated _ _)
  all_goals simp [Declaration.fixedImports, Declaration.lowered, Declaration.hints]

end Emit

namespace Companion

open Expr

variable {strategy result : Expr} {subject : String} {cls : Ref}

theorem plain_functionExprs (drawn : strategy.Plain) (defaulted : result.Plain) :
    ∀ e ∈ functionExprs strategy result, e.Plain := by
  have context : Expr.Plain (.ref (Ref.support "GenerationContext")) :=
    writtenWith_ref.mpr (.support _)
  have strategies : Expr.Plain (.ref (Ref.strategy "SearchStrategy")) :=
    writtenWith_ref.mpr (.strategy _)
  exact List.forall_mem_cons.mpr ⟨context, List.forall_mem_cons.mpr ⟨strategies,
    List.forall_mem_cons.mpr ⟨drawn, List.forall_mem_singleton.mpr defaulted⟩⟩⟩

theorem importsNeeded_class (named : g.classRef name = .ok cls) (drawn : strategy.Plain)
    (defaulted : result.Plain) {companion : String}
    (drafted : o.Drafted companion .types path [] (.ref cls :: functionExprs strategy result) []
      [.generator (.cls cls) subject strategy, .defaults (.cls cls) recordParam result]) :
    o.ImportsNeeded := by
  have plain : Expr.Plain (.ref cls) := writtenWith_ref.mpr (Group.plain_of_classRef named)
  refine drafted.importsNeeded
    (List.forall_mem_cons.mpr ⟨plain, plain_functionExprs drawn defaulted⟩) ?_ ?_ ?_ ?_
  · simp [Declaration.fixedImports]
  · simp [functionExprs, Declaration.lowered, TypeHint.class?]
    tauto
  · simp
  · simp [Declaration.hints]

theorem importsNeeded_output {entity : Entity} (done : output g path name entity = .ok o) :
    o.ImportsNeeded := by
  have draws := g.drawsAllowed_plain
  obtain ⟨t, rfl⟩ | ⟨e, rfl⟩ | ⟨r, rfl⟩ := entity_of_output done
  · obtain ⟨hint, strategy, subject, -, drawn, drafted⟩ := output_typedef_eq_ok done
    refine drafted.importsNeeded_of_hints (plain_functionExprs
      (Group.writtenWith_draw draws drawn) (writtenWith_defaulted draws (by simp))) ?_ ?_ ?_
    · simp [Declaration.fixedImports]
    · have other : valueParam ≠ recordParam := by decide
      simp [functionExprs, Declaration.lowered, other]
      tauto
    · simp [Declaration.hints]
  · obtain ⟨cls, strategy, subject, named, just, nothing, drafted⟩ := output_enum_eq_ok done
    refine importsNeeded_class named ?_ (by simp [Expr.Plain]) drafted
    cases values : e.values with
    | nil => simp [nothing values, Expr.Plain, Expr.strategy, draws.strategy "nothing" (by decide)]
    | cons first rest =>
      simp [just first rest values, Expr.Plain, Expr.apply, draws.strategy "just" (by decide),
        Group.plain_member named]
  · obtain ⟨cls, strategy, subject, result, named, drawn, defaulted, drafted⟩ :=
      output_record_eq_ok done
    refine importsNeeded_class named ?_ ?_ drafted
    · exact writtenWith_generator draws (writtenWith_ref.mpr (Group.plain_of_classRef named))
        (fun _ _ => trivial) drawn
    · exact writtenWith_defaults draws g.valuesAllowed_plain defaulted

end Companion

namespace Stream

variable {s : Schema} {emission : Emission}

theorem importsNeeded_main (member : .ok emission ∈ mainEmissions g s) :
    emission.output.ImportsNeeded := by
  cases mem_mainEmissions_iff.mp member with
  | enum _ made => exact Emit.importsNeeded_enumeration (enumEmission_eq_ok made).2
  | constants known =>
    obtain ⟨cs, -, -, drafted⟩ := constantEmissions_eq_ok known
    exact Emit.importsNeeded_constants drafted
  | record _ made => exact Emit.importsNeeded_record (recordEmission_eq_ok made).2
  | service _ made => exact Emit.importsNeeded_service (serviceEmission_eq_ok made).2
  | handler _ made => exact Emit.importsNeeded_handler (serviceEmission_eq_ok made).2

theorem importsNeeded_companion (member : .ok emission ∈ companionEmissions g s) :
    emission.output.ImportsNeeded := by
  obtain ⟨name, entity, drafted, -⟩ := companion_drafted member
  exact Companion.importsNeeded_output drafted

section
variable {type : Output} {outputs : List Output}

theorem mem_flatMap_gathered {β : Type} (f : Declaration → List β) (b : β) :
    b ∈ (gathered type outputs).body.flatMap f ↔ ∃ o ∈ outputs, b ∈ o.body.flatMap f := by
  rw [gathered, List.flatMap_assoc, List.mem_flatMap]

theorem mem_lines_gathered (homes : ∀ o ∈ outputs, o.home = type.home) {β : Type}
    (f : Declaration → List β) (needs : String → β → List String) (line : String) :
    line ∈ ((gathered type outputs).body.flatMap f).flatMap (needs (gathered type outputs).home) ↔
      ∃ o ∈ outputs, line ∈ (o.body.flatMap f).flatMap (needs o.home) := by
  rw [List.mem_flatMap]
  constructor
  · rintro ⟨b, written, needed⟩
    obtain ⟨o, member, written⟩ := (mem_flatMap_gathered f b).mp written
    exact ⟨o, member, List.mem_flatMap.mpr ⟨b, written, homes o member ▸ needed⟩⟩
  · rintro ⟨o, member, needed⟩
    obtain ⟨b, written, needed⟩ := List.mem_flatMap.mp needed
    exact ⟨b, (mem_flatMap_gathered f b).mpr ⟨o, member, written⟩, homes o member ▸ needed⟩

theorem importsNeeded_gathered (homes : ∀ o ∈ outputs, o.home = type.home)
    (needed : ∀ o ∈ outputs, o.ImportsNeeded) : (gathered type outputs).ImportsNeeded := by
  have imports (line : String) : line ∈ (gathered type outputs).imports ↔
      ∃ o ∈ outputs, line ∈ o.imports := by simp [gathered]
  have typeImports (line : String) : line ∈ (gathered type outputs).typeImports ↔
      ∃ o ∈ outputs, line ∈ o.typeImports := by simp [gathered]
  have exprLines := mem_lines_gathered homes Declaration.lowered fun home e =>
    e.refs.filterMap (Ref.importLine? (some home))
  have hintLines := mem_lines_gathered homes Declaration.hints fun home hint =>
    hint.classes.filterMap (Ref.importLine? (some home))
  constructor
  · intro line
    rw [imports, mem_flatMap_gathered, Expr.linesOf, exprLines, ← exists_or]
    refine exists_congr fun o => ?_
    rw [← and_or_left]
    exact and_congr_right fun member => (needed o member).imports line
  · intro line known
    obtain ⟨o, member, known⟩ := (typeImports line).mp known
    exact (hintLines line).mpr ⟨o, member, (needed o member).typeImports line known⟩
  · intro line known
    obtain ⟨o, member, known⟩ := (hintLines line).mp known
    rcases (needed o member).hinted line known with here | here
    · exact .inl ((imports line).mpr ⟨o, member, here⟩)
    · exact .inr ((typeImports line).mpr ⟨o, member, here⟩)
  · intro e written
    obtain ⟨o, member, written⟩ := (mem_flatMap_gathered _ e).mp written
    exact (needed o member).plain e written
  · intro hint written
    obtain ⟨o, member, written⟩ := (mem_flatMap_gathered _ hint).mp written
    exact (needed o member).plainClasses hint written

end

theorem Folded.importsNeeded {stream units : List Named} (folded : Folded stream units)
    (wellNamed : ∀ named ∈ stream, named.2.name = named.1)
    (needed : ∀ named ∈ stream, named.2.ImportsNeeded) {named : Named} (member : named ∈ units) :
    named.2.ImportsNeeded := by
  obtain ⟨name, unit⟩ := named
  rcases mergeAll?_eq (folded.fold_of_mem member) with only | ⟨-, type, types, rfl⟩
  · have single : unit ∈ under name stream := by simp [only]
    exact needed _ (mem_under_iff.mp single)
  · have names : ∀ o ∈ under name stream, o.name = name := fun o known =>
      wellNamed _ (mem_under_iff.mp known)
    have isType : type ∈ (under name stream).filter Output.isType := by simp [types]
    have typeName := names type (List.mem_of_mem_filter isType)
    refine importsNeeded_gathered (fun o known => ?_) fun o known =>
      needed _ (mem_under_iff.mp known)
    rw [Output.home, names o known, Output.home, typeName]

theorem importsNeeded_unit {streams : Streams} (done : resolved g = .ok streams) {unit : Named}
    (member : unit ∈ streams.units) : unit.2.ImportsNeeded := by
  obtain ⟨raw, generated, main, companions⟩ := resolved_eq_ok done
  rcases List.mem_append.mp member with inMain | inCompanions
  · refine main.importsNeeded (fun _ => name_main generated) (fun named inRaw => ?_) inMain
    obtain ⟨entry, -, emission, known, rfl⟩ := (mem_main_iff generated).mp inRaw
    exact importsNeeded_main known
  · refine companions.importsNeeded (fun _ => name_companion generated) (fun named inRaw => ?_)
      inCompanions
    obtain ⟨entry, -, emission, known, rfl⟩ := (mem_companions_iff generated).mp inRaw
    exact importsNeeded_companion known

end Stream

/-! ### Imports as they are written -/

theorem Declaration.typeChecking_not_mem_fixedImports (d : Declaration) :
    Output.typeCheckingImport ∉ d.fixedImports := by
  cases d <;> simp [fixedImports, Output.typeCheckingImport]

namespace Output

variable {o : Output}

def plainImports (o : Output) : List String :=
  (firstOccurrences o.imports).filter (· != futureImport)

theorem nodup_plainImports (o : Output) : o.plainImports.Nodup := by
  rw [plainImports, firstOccurrences_eq]
  exact (nodup_eraseDups _).filter _

theorem mem_plainImports : line ∈ o.plainImports ↔ line ∈ o.imports ∧ line ≠ futureImport := by
  simp [plainImports, firstOccurrences_eq]

theorem nodup_guardedImports (o : Output) : o.guardedImports.Nodup := by
  rw [guardedImports, firstOccurrences_eq o.typeImports]
  exact (nodup_eraseDups _).filter _

theorem mem_guardedImports :
    line ∈ o.guardedImports ↔ line ∈ o.typeImports ∧ line ∉ o.plainImports := by
  have unfolded : o.guardedImports =
      (firstOccurrences o.typeImports).filter fun line => !o.plainImports.contains line := rfl
  simp [unfolded, firstOccurrences_eq]

theorem runtimeImports_eq (fresh : typeCheckingImport ∉ o.imports) :
    o.runtimeImports =
      o.plainImports ++ if o.guardedImports = [] then [] else [typeCheckingImport] := by
  have unfolded : o.runtimeImports =
      if !o.guardedImports.isEmpty && !o.plainImports.contains typeCheckingImport then
        o.plainImports ++ [typeCheckingImport]
      else o.plainImports := rfl
  have missing : typeCheckingImport ∉ o.plainImports := fun known =>
    fresh (mem_plainImports.mp known).1
  by_cases guarded : o.guardedImports = []
  · simp [unfolded, guarded]
  · simp [unfolded, guarded, missing]

/-- The text of a module with the given lines as its imports at run time and for type checking,
    between the docstring and what the module declares. -/
def textWith (o : Output) (runtime guarded : List String) : String :=
  let block := if guarded.isEmpty then [] else
    ["", "if TYPE_CHECKING:"] ++ guarded.map fun line => "    " ++ line
  let declared := o.bodyTexts.flatMap fun text => ["", "", dropLineEnds text]
  Text.join "\n" (["\"\"\"" ++ o.docstring ++ "\"\"\"", "", "from __future__ import annotations", ""] ++
    runtime ++ block ++ declared) ++ "\n"

/-- The imports that a module is rendered with, at run time and for type checking, are those that
    its declarations need, each once. -/
structure ImportsOnce (o : Output) (runtime guarded : List String) : Prop where
  rendered : o.render = o.textWith runtime guarded
  /-- What expressions refer to in other modules is imported at run time. -/
  lowered : ∀ d ∈ o.body, ∀ e ∈ d.lowered, ∀ r, e.Writes r → r.module ≠ o.home →
    ∃ line, r.importLine? (some o.home) = some line ∧ runtime.count line = 1
  /-- Classes of other modules in annotations are imported at run time or for type checking. -/
  annotated : ∀ d ∈ o.body, ∀ hint ∈ d.hints, ∀ r ∈ hint.classes, r.module ≠ o.home →
    ∃ line, r.importLine? (some o.home) = some line ∧
      runtime.count line + guarded.count line = 1
  /-- The flag for type checking is imported if something is guarded by it. -/
  flag : runtime.count typeCheckingImport = if guarded = [] then 0 else 1
  /-- Nothing else is imported at run time. -/
  onlyNeeded : ∀ line ∈ runtime, line = typeCheckingImport ∨
    ∃ d ∈ o.body, line ∈ d.fixedImports ∨
      ∃ e ∈ d.lowered, ∃ r, e.Writes r ∧ r.importLine? (some o.home) = some line
  /-- Nothing else is imported for type checking. -/
  onlyHinted : ∀ line ∈ guarded, ∃ d ∈ o.body, ∃ hint ∈ d.hints, ∃ r ∈ hint.classes,
    r.importLine? (some o.home) = some line

namespace ImportsNeeded

variable (needed : o.ImportsNeeded)
include needed

theorem typeChecking_not_mem : typeCheckingImport ∉ o.imports := by
  intro known
  rcases (needed.imports _).mp known with fixed | line
  · obtain ⟨d, -, fixed⟩ := List.mem_flatMap.mp fixed
    exact d.typeChecking_not_mem_fixedImports fixed
  · obtain ⟨e, written, line⟩ := List.mem_flatMap.mp line
    obtain ⟨r, inRefs, line⟩ := List.mem_filterMap.mp line
    exact (((needed.plain e written).of_mem_refs inRefs).line_ne line).2 rfl

theorem count_runtimeImports (other : line ≠ typeCheckingImport) :
    o.runtimeImports.count line = o.plainImports.count line := by
  rw [runtimeImports_eq needed.typeChecking_not_mem, List.count_append]
  split <;> simp [Ne.symm other]

theorem count_of_writes {d : Declaration} (inBody : d ∈ o.body) {e : Expr} (written : e ∈ d.lowered)
    {r : Ref} (writes : e.Writes r) (needs : r.importLine? (some o.home) = some line) :
    o.runtimeImports.count line = 1 := by
  have inLowered : e ∈ o.body.flatMap Declaration.lowered :=
    List.mem_flatMap.mpr ⟨d, inBody, written⟩
  have inRefs := Expr.mem_refs_iff_writes.mpr writes
  obtain ⟨notFuture, notFlag⟩ := ((needed.plain e inLowered).of_mem_refs inRefs).line_ne needs
  have inLines : line ∈ Expr.linesOf o.home (o.body.flatMap Declaration.lowered) :=
    List.mem_flatMap.mpr ⟨e, inLowered, List.mem_filterMap.mpr ⟨r, inRefs, needs⟩⟩
  rw [needed.count_runtimeImports notFlag]
  exact List.count_eq_one_of_mem o.nodup_plainImports
    (mem_plainImports.mpr ⟨(needed.imports line).mpr (.inr inLines), notFuture⟩)

theorem count_of_class {d : Declaration} (inBody : d ∈ o.body) {hint : TypeHint}
    (hinted : hint ∈ d.hints) {r : Ref} (named : r ∈ hint.classes)
    (needs : r.importLine? (some o.home) = some line) :
    o.runtimeImports.count line + o.guardedImports.count line = 1 := by
  have inHints : hint ∈ o.body.flatMap Declaration.hints :=
    List.mem_flatMap.mpr ⟨d, inBody, hinted⟩
  obtain ⟨notFuture, notFlag⟩ := (needed.plainClasses hint inHints r named).line_ne needs
  have inLines : line ∈ TypeHint.linesOf o.home (o.body.flatMap Declaration.hints) :=
    List.mem_flatMap.mpr ⟨hint, inHints, List.mem_filterMap.mpr ⟨r, named, needs⟩⟩
  rw [needed.count_runtimeImports notFlag]
  -- What is imported anyway is not guarded, and the rest is.
  by_cases known : line ∈ o.plainImports
  · have absent : line ∉ o.guardedImports := fun guarded => (mem_guardedImports.mp guarded).2 known
    rw [List.count_eq_one_of_mem o.nodup_plainImports known, List.count_eq_zero.mpr absent]
  · have typed : line ∈ o.typeImports := (needed.hinted line inLines).resolve_left fun here =>
      known (mem_plainImports.mpr ⟨here, notFuture⟩)
    rw [List.count_eq_zero.mpr known, List.count_eq_one_of_mem o.nodup_guardedImports
      (mem_guardedImports.mpr ⟨typed, known⟩)]

theorem count_flag :
    o.runtimeImports.count typeCheckingImport = if o.guardedImports = [] then 0 else 1 := by
  have absent : typeCheckingImport ∉ o.plainImports := fun known =>
    needed.typeChecking_not_mem (mem_plainImports.mp known).1
  rw [runtimeImports_eq needed.typeChecking_not_mem, List.count_append,
    List.count_eq_zero.mpr absent]
  split <;> simp

theorem eq_flag_or_needed (known : line ∈ o.runtimeImports) : line = typeCheckingImport ∨
    ∃ d ∈ o.body, line ∈ d.fixedImports ∨
      ∃ e ∈ d.lowered, ∃ r, e.Writes r ∧ r.importLine? (some o.home) = some line := by
  rw [runtimeImports_eq needed.typeChecking_not_mem, List.mem_append] at known
  rcases known with known | flag
  · right
    rcases (needed.imports line).mp (mem_plainImports.mp known).1 with fixed | written
    · obtain ⟨d, inBody, fixed⟩ := List.mem_flatMap.mp fixed
      exact ⟨d, inBody, .inl fixed⟩
    · obtain ⟨e, inLowered, written⟩ := List.mem_flatMap.mp written
      obtain ⟨d, inBody, inLowered⟩ := List.mem_flatMap.mp inLowered
      obtain ⟨r, inRefs, needs⟩ := List.mem_filterMap.mp written
      exact ⟨d, inBody, .inr ⟨e, inLowered, r, Expr.mem_refs_iff_writes.mp inRefs, needs⟩⟩
  · left
    by_cases guarded : o.guardedImports = []
    · simp [guarded] at flag
    · simpa [guarded] using flag

theorem class_of_guarded (known : line ∈ o.guardedImports) :
    ∃ d ∈ o.body, ∃ hint ∈ d.hints, ∃ r ∈ hint.classes,
      r.importLine? (some o.home) = some line := by
  have written := needed.typeImports line (mem_guardedImports.mp known).1
  obtain ⟨hint, inHints, written⟩ := List.mem_flatMap.mp written
  obtain ⟨d, inBody, inHints⟩ := List.mem_flatMap.mp inHints
  obtain ⟨r, named, needs⟩ := List.mem_filterMap.mp written
  exact ⟨d, inBody, hint, inHints, r, named, needs⟩

theorem importsOnce : o.ImportsOnce o.runtimeImports o.guardedImports where
  rendered := rfl
  lowered _ inBody _ written _ writes away := by
    obtain ⟨line, needs⟩ := Ref.importLine?_of_ne away
    exact ⟨line, needs, needed.count_of_writes inBody written writes needs⟩
  annotated _ inBody _ hinted _ named away := by
    obtain ⟨line, needs⟩ := Ref.importLine?_of_ne away
    exact ⟨line, needs, needed.count_of_class inBody hinted named needs⟩
  flag := needed.count_flag
  onlyNeeded _ := needed.eq_flag_or_needed
  onlyHinted _ := needed.class_of_guarded

end ImportsNeeded
end Output

/-- What a generated module is rendered to import is what its declarations refer to, whatever group
    it is generated for. -/
theorem imports_once {g : Group} {streams : Streams} (resolved : Stream.resolved g = .ok streams)
    {unit : Named} (member : unit ∈ streams.units) :
    ∃ runtime guarded, unit.2.ImportsOnce runtime guarded :=
  ⟨_, _, (Stream.importsNeeded_unit resolved member).importsOnce⟩

/-- In the shop some imports are guarded, and some are needed for what the text of a strategy or
    of applied defaults refers to without saying so. -/
theorem shop_imports_once :
    (∃ unit ∈ shopStreams.units, unit.2.guardedImports ≠ []) ∧
      (∃ unit ∈ shopStreams.units, "from hypothesis import strategies as st" ∈
        unit.2.runtimeImports ∧ "import dataclasses" ∈ unit.2.runtimeImports) ∧
      ∀ unit ∈ shopStreams.units, ∃ runtime guarded, unit.2.ImportsOnce runtime guarded :=
  and_assoc.mp ⟨by decide +kernel, fun _ => imports_once shopStreams_resolved⟩

end IdlGen
