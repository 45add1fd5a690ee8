import IdlGen.Proofs.Imports
import IdlGen.Proofs.ModulePaths

/-!
Which names the functions of companions see. Nothing reserves the names that generated code uses
itself, so a reference can be captured: by a parameter of its function, by a function of its own
module, or by another import. `captureFree_iff` says when.
-/
namespace IdlGen

open Outcome

variable {path line : String} {r : Ref} {d : Declaration} {e : Expr}

/-- The name that an import binds, and the dotted path of what it is bound to. A path alone binds
    its outermost package. -/
def Import.binding? (line : String) : Option (String × String) :=
  match Text.split ' ' line with
  | ["import", path] => some ((Text.partition '.' path).1, (Text.partition '.' path).1)
  | ["import", path, "as", short] => some (short, path)
  | ["from", path, "import", name] => some (name, path ++ "." ++ name)
  | ["from", path, "import", name, "as", short] => some (short, path ++ "." ++ name)
  | _ => none

theorem Import.binding?_path (free : ' ' ∉ path.toList) :
    binding? ("import " ++ path) =
      some ((Text.partition '.' path).1, (Text.partition '.' path).1) := by
  have words : Text.split ' ' ("import " ++ path) = ["import", path] := by
    have parts : ("import " ++ path).toList = "import".toList ++ ' ' :: path.toList := by simp
    rw [Text.split_append_sep parts, Text.split_of_not_mem free,
      Text.split_of_not_mem (by decide)]
    rfl
  rw [binding?, words]
  rfl

namespace Ref

def top (r : Ref) : String := (Text.partition '.' r.module).1

def firstName (home : String) (r : Ref) : String :=
  (Text.partition '.' (r.lower (some home))).1

def binding (r : Ref) : String × String :=
  match r.alias? with
  | none => (r.top, r.top)
  | some short => (short, r.module)

variable {home : String}

theorem binding_of_path (path : r.alias? = none) : r.binding = (r.top, r.top) := by
  rw [binding, path]

theorem firstName_of_path (path : r.alias? = none) (away : r.module ≠ home) :
    r.firstName home = r.top := by
  have text : r.lower (some home) = r.module ++ "." ++ r.attr := by
    rw [lower, if_neg (by simpa using Ne.symm away), shortName?, path]
    rfl
  obtain ⟨rest, pieces⟩ := Text.split_eq_cons '.' r.module
  obtain ⟨others, longer⟩ := Text.split_eq_cons '.' (r.module ++ "." ++ r.attr)
  have parts : (r.module ++ "." ++ r.attr).toList = r.module.toList ++ '.' :: r.attr.toList := by
    simp
  rw [Text.split_append_sep parts, pieces, List.cons_append] at longer
  rw [firstName, text, top]
  exact (List.cons.inj longer).1.symm

theorem firstName_of_short {short attr module : String} (named : short ≠ "")
    (free : '.' ∉ short.toList) (away : module ≠ home) :
    firstName home { module, attr, alias? := some short } = short := by
  have text : lower (some home) { module, attr, alias? := some short } = short ++ "." ++ attr := by
    simp [lower, shortName?, Option.filter, named, Ne.symm away]
  rw [firstName, text, Text.partition_append_dot free]

theorem Plain.firstName_eq (plain : r.Plain) (away : r.module ≠ home) :
    r.firstName home = r.binding.1 := by
  cases plain with
  | generated output attr | replace => rw [firstName_of_path rfl away, binding_of_path rfl]
  | strategy attr | support attr => exact firstName_of_short (by decide) (by decide) away

theorem Plain.binding?_line (plain : r.Plain) (free : ' ' ∉ r.module.toList)
    (needs : r.importLine? (some home) = some line) : Import.binding? line = some r.binding := by
  have away := module_ne_of_importLine? needs
  cases plain with
  | generated output attr | replace =>
    cases (importLine?_of_alias rfl away).symm.trans needs
    rw [Import.binding?_path free, binding_of_path rfl, top]
  | strategy attr =>
    cases (importLine?_strategy attr away).symm.trans needs
    have bound : Import.binding? "from hypothesis import strategies as st" =
        some ("st", strategiesModule) := by decide +kernel
    exact bound
  | support attr =>
    cases (importLine?_support attr away).symm.trans needs
    have bound : Import.binding? "from thrift_generator import runtime" =
        some ("runtime", supportModule) := by decide +kernel
    exact bound

def shortNames : List (String × String) := [("runtime", supportModule), ("st", strategiesModule)]

theorem short_ne_module : ∀ bound ∈ shortNames, bound.1 ≠ bound.2 := by decide

theorem eq_of_short : ∀ bound ∈ shortNames, ∀ other ∈ shortNames, bound.1 = other.1 →
    bound = other := by decide

theorem Plain.binding_cases (plain : r.Plain) :
    (r.alias? = none ∧ r.binding = (r.top, r.top) ∧ r.top ≠ "TYPE_CHECKING") ∨
      (r.alias? = some r.binding.1 ∧ r.binding ∈ shortNames) := by
  cases plain with
  | generated output attr =>
    refine .inl ⟨rfl, binding_of_path rfl, fun same => ?_⟩
    rw [top, Name.partition_modulePath] at same
    have capital : 'T' ∈ (Name.underscore (Text.partition '.' output).1).toList := by
      rw [same]
      decide
    have low : Text.IsLow 'T' := by constructor <;> decide
    exact (Name.mem_of_mem_underscore low (by decide) capital).2 (by decide)
  | replace => exact .inl ⟨rfl, binding_of_path rfl, by decide +kernel⟩
  | strategy attr => exact .inr ⟨rfl, .tail _ (.head _)⟩
  | support attr => exact .inr ⟨rfl, .head _⟩

end Ref

/-! ### Functions and what they see -/

namespace Declaration

def returned? : Declaration → Option Expr
  | generator _ _ strategy => some strategy
  | defaults _ _ result => some result
  | _ => none

def params : Declaration → List String
  | generator .. => ["context"]
  | defaults _ param _ => [param, "context"]
  | _ => []

theorem mem_lowered_of_returned (returns : e ∈ d.returned?) : e ∈ d.lowered := by
  cases d with
  | generator type subject strategy | defaults type param result =>
    cases returns
    simp [lowered]
  | _ => cases returns

/-- The references that a declaration is written with, in expressions and in annotations. -/
def mentions (d : Declaration) : List Ref :=
  d.lowered.flatMap Expr.refs ++ d.hints.flatMap TypeHint.classes

end Declaration

namespace Output

def importLines (o : Output) : List String :=
  futureImport :: (o.runtimeImports ++ o.guardedImports)

def mentions (o : Output) : List Ref := o.body.flatMap Declaration.mentions

theorem binding?_futureImport :
    Import.binding? futureImport = some ("annotations", "__future__.annotations") := by
  decide +kernel

theorem binding?_typeCheckingImport :
    Import.binding? typeCheckingImport = some ("TYPE_CHECKING", "typing.TYPE_CHECKING") := by
  decide +kernel

theorem mem_mentions (o : Output) (inBody : d ∈ o.body) (returns : e ∈ d.returned?)
    (inRefs : r ∈ e.refs) : r ∈ o.mentions :=
  List.mem_flatMap.mpr ⟨d, inBody, List.mem_append_left _
    (List.mem_flatMap.mpr ⟨e, Declaration.mem_lowered_of_returned returns, inRefs⟩)⟩

/-- A reference in a function with the given parameters is not captured: the name that its text
    starts with is bound by its own import, and by no parameter, no statement of the module and no
    other import. -/
structure Sees (o : Output) (params : List String) (r : Ref) : Prop where
  params : r.firstName o.home ∉ params
  statements : r.firstName o.home ∉ o.topNames
  imports : ∃ line ∈ o.runtimeImports, r.importLine? (some o.home) = some line ∧
    ∃ path, Import.binding? line = some (r.firstName o.home, path) ∧
      ∀ other ∈ o.importLines, ∀ elsewhere,
        Import.binding? other = some (r.firstName o.home, elsewhere) → elsewhere = path

/-- No reference to another module is captured in what the functions of a module return. -/
def CaptureFree (o : Output) : Prop :=
  ∀ d ∈ o.body, ∀ e ∈ d.returned?, ∀ r ∈ e.refs, r.module ≠ o.home → o.Sees d.params r

/-- The name that a reference in a function starts with is apart from others: the name of a package
    from parameters, from both functions and from the names that every companion imports, and the
    short name of a library from the packages that are imported. -/
def NameApart (o : Output) (params : List String) (r : Ref) : Prop :=
  (r.alias? = none → r.top ∉
    "annotations" :: "runtime" :: "st" :: "get_generator" :: "apply_defaults" :: params) ∧
    ∀ other ∈ o.mentions, other.module ≠ o.home → other.alias? = none → r.alias? ≠ some other.top

instance (o : Output) (params : List String) (r : Ref) : Decidable (o.NameApart params r) :=
  inferInstanceAs (Decidable (_ ∧ _))

/-- All names that references to other modules start with in functions are apart from others. -/
def NamesApart (o : Output) : Prop :=
  ∀ d ∈ o.body, ∀ e ∈ d.returned?, ∀ r ∈ e.refs, r.module ≠ o.home → o.NameApart d.params r

instance (o : Output) : Decidable o.NamesApart :=
  inferInstanceAs (Decidable (∀ d ∈ o.body, ∀ e ∈ d.returned?, ∀ r ∈ e.refs,
    r.module ≠ o.home → o.NameApart d.params r))

namespace ImportsNeeded

variable {o : Output}

theorem plain_of_mentions (needed : o.ImportsNeeded) (member : r ∈ o.mentions) : r.Plain := by
  obtain ⟨d, inBody, member⟩ := List.mem_flatMap.mp member
  rcases List.mem_append.mp member with inExpr | inHint
  · obtain ⟨e, written, inRefs⟩ := List.mem_flatMap.mp inExpr
    exact (needed.plain e (List.mem_flatMap.mpr ⟨d, inBody, written⟩)).of_mem_refs inRefs
  · obtain ⟨hint, hinted, named⟩ := List.mem_flatMap.mp inHint
    exact needed.plainClasses hint (List.mem_flatMap.mpr ⟨d, inBody, hinted⟩) r named

theorem mem_runtimeImports (needed : o.ImportsNeeded) (inBody : d ∈ o.body)
    (written : e ∈ d.lowered) (inRefs : r ∈ e.refs)
    (needs : r.importLine? (some o.home) = some line) : line ∈ o.runtimeImports := by
  have once := needed.count_of_writes inBody written (Expr.mem_refs_iff_writes.mp inRefs) needs
  exact List.count_pos_iff.mp (by omega)

theorem mem_importLines (needed : o.ImportsNeeded) (member : r ∈ o.mentions)
    (needs : r.importLine? (some o.home) = some line) : line ∈ o.importLines := by
  obtain ⟨d, inBody, member⟩ := List.mem_flatMap.mp member
  refine List.mem_cons_of_mem _ (List.mem_append.mpr ?_)
  rcases List.mem_append.mp member with inExpr | inHint
  · obtain ⟨e, written, inRefs⟩ := List.mem_flatMap.mp inExpr
    exact .inl (needed.mem_runtimeImports inBody written inRefs needs)
  · obtain ⟨hint, hinted, named⟩ := List.mem_flatMap.mp inHint
    have once := needed.count_of_class inBody hinted named needs
    by_cases inRuntime : line ∈ o.runtimeImports
    · exact .inl inRuntime
    · rw [List.count_eq_zero.mpr inRuntime] at once
      exact .inr (List.count_pos_iff.mp (by omega))

theorem importLines_cases (needed : o.ImportsNeeded) (fixed : ∀ d ∈ o.body, d.fixedImports = [])
    (known : line ∈ o.importLines) : line = futureImport ∨ line = typeCheckingImport ∨
      ∃ r ∈ o.mentions, r.importLine? (some o.home) = some line := by
  rcases List.mem_cons.mp known with future | known
  · exact .inl future
  rcases List.mem_append.mp known with runtime | guarded
  · rcases needed.eq_flag_or_needed runtime with
      flag | ⟨d, inBody, none | ⟨e, written, r, writes, needs⟩⟩
    · exact .inr (.inl flag)
    · rw [fixed d inBody] at none
      cases none
    · refine .inr (.inr ⟨r, List.mem_flatMap.mpr ⟨d, inBody, List.mem_append_left _ ?_⟩, needs⟩)
      exact List.mem_flatMap.mpr ⟨e, written, Expr.mem_refs_iff_writes.mpr writes⟩
  · obtain ⟨d, inBody, hint, hinted, r, named, needs⟩ := needed.class_of_guarded guarded
    refine .inr (.inr ⟨r, List.mem_flatMap.mpr ⟨d, inBody, List.mem_append_right _ ?_⟩, needs⟩)
    exact List.mem_flatMap.mpr ⟨hint, hinted, named⟩

end ImportsNeeded

/-- What the proofs below need of a companion. -/
structure IsCompanion (o : Output) : Prop where
  needed : o.ImportsNeeded
  fixed : ∀ d ∈ o.body, d.fixedImports = []
  params : ∀ d ∈ o.body, ∀ param ∈ d.params,
    param ∈ ["context", Companion.recordParam, Companion.valueParam]
  topNames : o.topNames = ["get_generator", "apply_defaults"]
  libraries : ∀ bound ∈ Ref.shortNames, ∃ r ∈ o.mentions, r.module ≠ o.home ∧ r.binding = bound

namespace IsCompanion

variable {o : Output} (companion : o.IsCompanion) (free : ∀ r ∈ o.mentions, ' ' ∉ r.module.toList)
include companion free

theorem binding?_line (mentioned : r ∈ o.mentions)
    (needs : r.importLine? (some o.home) = some line) : Import.binding? line = some r.binding :=
  (companion.needed.plain_of_mentions mentioned).binding?_line (free r mentioned) needs

theorem eq_of_sees {params : List String} (mentioned : r ∈ o.mentions) (away : r.module ≠ o.home)
    (sees : o.Sees params r) (known : line ∈ o.importLines)
    (binds : Import.binding? line = some (r.binding.1, path)) : path = r.binding.2 := by
  obtain ⟨own, -, needs, ownPath, ownBinds, alone⟩ := sees.imports
  have bound := companion.binding?_line free mentioned needs
  rw [ownBinds, Option.some_inj] at bound
  rw [← bound]
  refine alone line known path ?_
  rw [(companion.needed.plain_of_mentions mentioned).firstName_eq away]
  exact binds

theorem namesApart_of_captureFree (captureFree : o.CaptureFree) : o.NamesApart := by
  intro d inBody e returns r inRefs away
  have sees := captureFree d inBody e returns r inRefs away
  have mentioned : r ∈ o.mentions := o.mem_mentions inBody returns inRefs
  have plain := companion.needed.plain_of_mentions mentioned
  have onlyOwn {other : Ref} (known : other ∈ o.mentions) (elsewhere : other.module ≠ o.home)
      (same : other.binding.1 = r.binding.1) : other.binding.2 = r.binding.2 := by
    obtain ⟨line, needs⟩ := Ref.importLine?_of_ne elsewhere
    refine companion.eq_of_sees free mentioned away sees
      (companion.needed.mem_importLines known needs) ?_
    rw [companion.binding?_line free known needs, ← same]
  refine ⟨fun path clash => ?_, fun other known elsewhere path short => ?_⟩
  · have binding := Ref.binding_of_path path
    rcases List.mem_cons.mp clash with future | clash
    · have other := companion.eq_of_sees free mentioned away sees (List.mem_cons_self ..)
        (by rw [binding, future]; exact binding?_futureImport)
      rw [binding, future] at other
      exact absurd other (by decide)
    · have reserved : r.top ∈ Ref.shortNames.map Prod.fst ++ (o.topNames ++ d.params) := by
        rw [companion.topNames]
        exact clash
      rcases List.mem_append.mp reserved with isShort | bound
      · obtain ⟨bound, library, name⟩ := List.mem_map.mp isShort
        obtain ⟨other, known, elsewhere, rfl⟩ := companion.libraries bound library
        have same := onlyOwn known elsewhere (by rw [binding, name])
        rw [binding, ← name] at same
        exact Ref.short_ne_module _ library same.symm
      · have own : r.firstName o.home = r.top := by rw [plain.firstName_eq away, binding]
        rw [← own] at bound
        exact (List.mem_append.mp bound).elim sees.statements sees.params
  · have otherBinding := Ref.binding_of_path path
    rcases plain.binding_cases with ⟨none, -⟩ | ⟨isShort, library⟩
    · rw [none] at short
      cases short
    · have name : r.binding.1 = other.top := Option.some_inj.mp (isShort.symm.trans short)
      have same := onlyOwn known elsewhere (by rw [otherBinding, name])
      rw [otherBinding, ← name] at same
      exact Ref.short_ne_module _ library same

theorem only_path {top : String} (notFlag : top ≠ "TYPE_CHECKING")
    (notFuture : top ≠ "annotations") (notShort : top ∉ Ref.shortNames.map Prod.fst)
    (known : line ∈ o.importLines) (bound : Import.binding? line = some (top, path)) :
    path = top := by
  rcases companion.needed.importLines_cases companion.fixed known with
    rfl | rfl | ⟨ref, member, needs⟩
  · rw [binding?_futureImport] at bound
    cases bound
    exact absurd rfl notFuture
  · rw [binding?_typeCheckingImport] at bound
    cases bound
    exact absurd rfl notFlag
  · rw [companion.binding?_line free member needs, Option.some_inj] at bound
    rcases (companion.needed.plain_of_mentions member).binding_cases with
      ⟨-, binding, -⟩ | ⟨-, library⟩
    · rw [binding] at bound
      cases bound
      rfl
    · rw [bound] at library
      exact absurd (List.mem_map_of_mem library) notShort

theorem only_library {library : String × String} (isLibrary : library ∈ Ref.shortNames)
    (apart : ∀ other ∈ o.mentions, other.module ≠ o.home → other.alias? = none →
      library.1 ≠ other.top) {line path : String} (known : line ∈ o.importLines)
    (bound : Import.binding? line = some (library.1, path)) : path = library.2 := by
  have short : library.1 ∈ Ref.shortNames.map Prod.fst := List.mem_map_of_mem isLibrary
  rcases companion.needed.importLines_cases companion.fixed known with
    rfl | rfl | ⟨ref, member, needs⟩
  · rw [binding?_futureImport, Option.some_inj] at bound
    rw [← (Prod.mk.inj bound).1] at short
    exact absurd short (by decide)
  · rw [binding?_typeCheckingImport, Option.some_inj] at bound
    rw [← (Prod.mk.inj bound).1] at short
    exact absurd short (by decide)
  · rw [companion.binding?_line free member needs, Option.some_inj] at bound
    rcases (companion.needed.plain_of_mentions member).binding_cases with
      ⟨isPath, binding, -⟩ | ⟨-, other⟩
    · rw [binding] at bound
      exact absurd (Prod.mk.inj bound).1.symm
        (apart ref member (Ref.module_ne_of_importLine? needs) isPath)
    · have same := Ref.eq_of_short _ other _ isLibrary (by rw [bound])
      rw [← same, bound]

theorem captureFree_of_namesApart (apart : o.NamesApart) : o.CaptureFree := by
  intro d inBody e returns r inRefs away
  obtain ⟨ofPath, ofLibrary⟩ := apart d inBody e returns r inRefs away
  have mentioned : r ∈ o.mentions := o.mem_mentions inBody returns inRefs
  have plain := companion.needed.plain_of_mentions mentioned
  obtain ⟨line, needs⟩ := Ref.importLine?_of_ne away
  have own := companion.needed.mem_runtimeImports inBody
    (Declaration.mem_lowered_of_returned returns) inRefs needs
  have binds := companion.binding?_line free mentioned needs
  suffices seen : r.binding.1 ∉ o.topNames ++ d.params ∧ ∀ other ∈ o.importLines, ∀ path,
      Import.binding? other = some (r.binding.1, path) → path = r.binding.2 by
    rw [← plain.firstName_eq away, List.mem_append, not_or] at seen
    obtain ⟨⟨notOwn, notParam⟩, alone⟩ := seen
    refine ⟨notParam, notOwn, line, own, needs, r.binding.2, ?_, alone⟩
    rw [plain.firstName_eq away]
    exact binds
  rw [companion.topNames]
  rcases plain.binding_cases with ⟨isPath, binding, notFlag⟩ | ⟨isShort, library⟩
  · have unreserved := ofPath isPath
    simp only [List.mem_cons, not_or] at unreserved
    obtain ⟨notFuture, notRuntime, notStrategies, notGenerator, notDefaults, notParam⟩ := unreserved
    rw [binding]
    refine ⟨by simp [notGenerator, notDefaults, notParam], fun other known path =>
      companion.only_path free notFlag notFuture ?_ known⟩
    simp [Ref.shortNames, notRuntime, notStrategies]
  · have apart : ∀ bound ∈ Ref.shortNames, bound.1 ∉ ["get_generator", "apply_defaults"] ∧
        bound.1 ∉ ["context", Companion.recordParam, Companion.valueParam] := by decide
    obtain ⟨notOwn, notParam⟩ := apart _ library
    refine ⟨fun hidden => (List.mem_append.mp hidden).elim notOwn fun isParam =>
      notParam (companion.params d inBody _ isParam), ?_⟩
    refine fun other known path => companion.only_library free library ?_ known
    intro ref member elsewhere isPath same
    exact ofLibrary ref member elsewhere isPath (same ▸ isShort)

end IsCompanion
end Output

namespace Stream

variable {g : Group} {streams : Streams} {unit : Named}

theorem companion_of_mem (done : resolved g = .ok streams) (member : unit ∈ streams.companions) :
    ∃ module path name entity,
      Companion.output (g.seenFrom module) path name entity = .ok unit.2 := by
  obtain ⟨raw, generated, -, companions⟩ := resolved_eq_ok done
  have types : ∀ named ∈ raw.companions, named.2.isType := by
    intro named inRaw
    obtain ⟨entry, -, emission, known, rfl⟩ := (mem_companions_iff generated).mp inRaw
    exact isType_of_kind (companion_emission known).2.1
  obtain ⟨entry, -, emission, known, rfl⟩ :=
    (mem_companions_iff generated).mp ((companions.mem_iff_of_types types).mp member)
  obtain ⟨name, entity, drafted, -⟩ := companion_drafted known
  exact ⟨_, _, name, entity, drafted⟩

theorem isCompanion_unit (done : resolved g = .ok streams) (member : unit ∈ streams.companions) :
    unit.2.IsCompanion := by
  obtain ⟨module, path, name, entity, drafted⟩ := companion_of_mem done member
  obtain ⟨type, subject, strategy, param, result, _, _, isParam, drafted⟩ :=
    Companion.output_eq_ok drafted
  have body := drafted.body
  have home : unit.2.home = Name.modulePath (Name.companion name) := by
    rw [Output.home, drafted.name]
  have mentions {r : Ref}
      (known : Expr.ref r ∈ (Declaration.generator type subject strategy).lowered) :
      r ∈ unit.2.mentions := by
    refine List.mem_flatMap.mpr ⟨_, by rw [body]; exact .head _, List.mem_append_left _ ?_⟩
    exact List.mem_flatMap.mpr ⟨_, known, .head _⟩
  have strategiesPath : Text.split '.' Ref.strategiesModule = ["hypothesis"] ++ ["strategies"] := by
    decide +kernel
  have supportPath : Text.split '.' Ref.supportModule = ["thrift_generator"] ++ ["runtime"] := by
    decide +kernel
  constructor
  · exact importsNeeded_unit done (List.mem_append_right _ member)
  · simp [body, Declaration.fixedImports]
  · rw [body]
    simp only [List.forall_mem_cons, Declaration.params]
    refine ⟨by simp, ⟨?_, by simp⟩, by simp⟩
    exact List.mem_cons_of_mem _ isParam
  · simp [Output.topNames, Output.names, body, Declaration.names]
  · rw [home]
    simp only [Ref.shortNames, List.forall_mem_cons]
    refine ⟨⟨Ref.support "GenerationContext", mentions (.head _), ?_, rfl⟩,
      ⟨Ref.strategy "SearchStrategy", mentions (.tail _ (.head _)), ?_, rfl⟩, by simp⟩
    · exact (Name.modulePath_companion_ne supportPath (by decide) name).symm
    · exact (Name.modulePath_companion_ne strategiesPath (by decide) name).symm

end Stream

/-- The functions of a companion see the modules that they refer to exactly if no such module lies
    in a package with the name of a parameter, of one of the functions or of something that every
    companion imports, and no package is imported under the short name of a library that is
    used. -/
theorem captureFree_iff {g : Group} {streams : Streams} (resolved : Stream.resolved g = .ok streams)
    {unit : Named} (member : unit ∈ streams.companions)
    (free : ∀ r ∈ unit.2.mentions, ' ' ∉ r.module.toList) :
    unit.2.CaptureFree ↔ unit.2.NamesApart := by
  have companion := Stream.isCompanion_unit resolved member
  exact ⟨companion.namesApart_of_captureFree free, companion.captureFree_of_namesApart free⟩

/-- In the shop nothing is captured, although companions refer to other modules. -/
theorem shop_captureFree :
    (∃ unit ∈ shopStreams.companions, ∃ d ∈ unit.2.body, ∃ e ∈ d.returned?, ∃ r ∈ e.refs,
      r.module ≠ unit.2.home ∧ r.module ∉ Ref.libraries) ∧
    (∀ unit ∈ shopStreams.companions, ∀ r ∈ unit.2.mentions, ' ' ∉ r.module.toList) ∧
      ∀ unit ∈ shopStreams.companions, unit.2.CaptureFree := by
  have facts : (∃ unit ∈ shopStreams.companions, ∃ d ∈ unit.2.body, ∃ e ∈ d.returned?,
        ∃ r ∈ e.refs, r.module ≠ unit.2.home ∧ r.module ∉ Ref.libraries) ∧
      (∀ unit ∈ shopStreams.companions, ∀ r ∈ unit.2.mentions, ' ' ∉ r.module.toList) ∧
      ∀ unit ∈ shopStreams.companions, unit.2.NamesApart := by
    decide +kernel
  obtain ⟨refers, free, apart⟩ := facts
  exact ⟨refers, free, fun unit member =>
    (captureFree_iff shopStreams_resolved member (free unit member)).mpr (apart unit member)⟩

def contextGroup : Group where
  schemas := [(.text "m", {
    module := .text "m"
    structs := [("Context", { kind := .struct, name := "m.Context", fields := [] })] })]

theorem contextGroup_checked : ∃ streams ∈ (Stream.resolved contextGroup).toOption,
    (∃ unit ∈ streams.companions, ∃ d ∈ unit.2.body, ∃ e ∈ d.returned?, ∃ r ∈ e.refs,
      r.module ≠ unit.2.home ∧ r.firstName unit.2.home ∈ d.params) ∧
    (((Run.Program.ofStreams streams).companionTree "Context" {} 0).run {}).1.toOption.isNone := by
  decide +kernel

def contextStreams : Streams :=
  contextGroup.streams (Option.isSome_iff_exists.mpr (contextGroup_checked.imp fun _ => And.left))

/-- In the companion of the struct the parameter hides the module, and no strategy is given. -/
theorem context_captured :
    Stream.resolved contextGroup = .ok contextStreams ∧
      (∃ unit ∈ contextStreams.companions, ¬ unit.2.CaptureFree) ∧
      (((Run.Program.ofStreams contextStreams).companionTree "Context" {} 0).run
        {}).1.toOption.isNone := by
  have resolved : Stream.resolved contextGroup = .ok contextStreams := Group.resolved_streams _
  obtain ⟨streams, generated, hidden, fails⟩ := contextGroup_checked
  obtain ⟨unit, member, d, inBody, e, returns, r, inRefs, away, isParam⟩ := hidden
  obtain rfl : streams = contextStreams :=
    Except.ok.inj ((toOption_eq_some.mp generated).symm.trans resolved)
  refine ⟨resolved, ⟨unit, member, fun captureFree => ?_⟩, fails⟩
  exact (captureFree d inBody e returns r inRefs away).params isParam

end IdlGen
