import IdlGen.Companion.Output
import IdlGen.Emit.Service
import IdlGen.Emit.Types
import IdlGen.Proofs.Annotations

/-!
What drafts end as. Every kind of output is opened once, up to the names, annotations and
expressions that it is put down with and the imports that these need (`Output.Drafted`).
-/
namespace IdlGen

open Outcome

def Expr.linesOf (home : String) (exprs : List Expr) : List String :=
  exprs.flatMap fun e => e.refs.filterMap (Ref.importLine? (some home))

def TypeHint.linesOf (home : String) (hints : List TypeHint) : List String :=
  hints.flatMap fun hint => hint.classes.filterMap (Ref.importLine? (some home))

namespace Declaration

def hints : Declaration → List TypeHint
  | record _ _ _ attributes => attributes.map (·.hint)
  | constants entries => entries.map (·.hint)
  | arguments _ attributes => attributes.map (·.hint)
  | response _ attributes => attributes.map (·.hint)
  | handler _ _ _ methods => methods.flatMap fun m => m.params.map (·.hint) ++ m.returns.toList
  | generator type _ _ => [type]
  | defaults type _ _ => [type]
  | _ => []

def isServicePart : Declaration → Bool
  | arguments .. => true
  | response .. => true
  | functionTable .. => true
  | _ => false

end Declaration

/-! ### Steps on a draft -/

variable {lines : List String} {exprs : List Expr} {hints : List TypeHint}
  {added : List Declaration} {line other name : String} {g : Group} {path : Value} {o : Output}

def Draft.head (d : Draft) : String × OutputKind × String :=
  (d.output.name, d.output.kind, d.output.docstring)

/-- From one draft to a later one: the lines that are imported, the expressions and annotations
    that imports are noted for, and the declarations that are added. -/
structure Draft.Takes (d last : Draft) (lines : List String) (exprs : List Expr)
    (hints : List TypeHint) (added : List Declaration) : Prop where
  group : last.group = d.group
  head : last.head = d.head
  body : last.output.body = d.output.body ++ added
  imports : ∀ line, line ∈ last.output.imports ↔
    line ∈ d.output.imports ∨ line ∈ lines ∨ line ∈ Expr.linesOf d.output.home exprs
  typeImports : ∀ line, line ∈ last.output.typeImports ↔
    line ∈ d.output.typeImports ∨ line ∈ TypeHint.linesOf d.output.home hints
  plainClasses : ∀ hint ∈ hints, ∀ r ∈ hint.classes, r.Plain

namespace Draft

variable {d mid last : Draft} {more : List String} {exprs' : List Expr} {hints' : List TypeHint}
  {added' : List Declaration}

theorem Takes.refl (d : Draft) : d.Takes d [] [] [] [] where
  group := rfl
  head := rfl
  body := by simp
  imports := by simp [Expr.linesOf]
  typeImports := by simp [TypeHint.linesOf]
  plainClasses := by simp

theorem Takes.home (taken : d.Takes last lines exprs hints added) :
    last.output.home = d.output.home :=
  congrArg (fun head : String × OutputKind × String => Name.modulePath head.1) taken.head

theorem Takes.trans (first : d.Takes mid lines exprs hints added)
    (second : mid.Takes last more exprs' hints' added') :
    d.Takes last (lines ++ more) (exprs ++ exprs') (hints ++ hints') (added ++ added') := by
  constructor
  · rw [second.group, first.group]
  · rw [second.head, first.head]
  · rw [second.body, first.body, List.append_assoc]
  · intro line
    rw [second.imports, first.imports, first.home]
    simp only [Expr.linesOf, List.flatMap_append, List.mem_append]
    tauto
  · intro line
    rw [second.typeImports, first.typeImports, first.home]
    simp only [TypeHint.linesOf, List.flatMap_append, List.mem_append]
    tauto
  · exact List.forall_mem_append.mpr ⟨first.plainClasses, second.plainClasses⟩

theorem mem_addLine : other ∈ addLine lines line ↔ other ∈ lines ∨ other = line := by
  unfold addLine
  split
  · rename_i known
    exact ⟨.inl, fun member => member.elim id fun same => same ▸ List.contains_iff_mem.mp known⟩
  · simp

theorem mem_foldl_addLine (view : Draft → List String) {note : Draft → String → Draft}
    (adds : ∀ d line, view (note d line) = addLine (view d) line) (lines : List String)
    (d : Draft) : other ∈ view (lines.foldl note d) ↔ other ∈ view d ∨ other ∈ lines := by
  induction lines generalizing d with
  | nil => simp
  | cons line rest ih => rw [List.foldl_cons, ih, adds, mem_addLine, List.mem_cons, or_assoc]

end Draft

namespace Drafting

open Draft

variable {α β : Type} {d mid last : Draft} {u : Unit}

theorem view_foldl {τ : Type} (view : Draft → τ) (note : Draft → String → Draft)
    (same : ∀ d line, view (note d line) = view d) (lines : List String) (d : Draft) :
    view (lines.foldl note d) = view d := by
  induction lines generalizing d with
  | nil => rfl
  | cons line rest ih => rw [List.foldl_cons, ih, same]

theorem takes_addImport (ran : ExceptT.run (addImport line) d = (.ok u, last)) :
    d.Takes last [line] [] [] [] := by
  cases ran
  refine { Takes.refl d with imports := fun other => ?_ }
  have known : other ∈ (d.addImport line).output.imports ↔
      other ∈ d.output.imports ∨ other = line := mem_addLine
  simpa [Expr.linesOf] using known

theorem takes_add {declaration : Declaration}
    (ran : ExceptT.run (add declaration) d = (.ok u, last)) :
    d.Takes last [] [] [] [declaration] := by
  cases ran
  exact { Takes.refl d with body := rfl }

theorem takes_uses {e used : Expr} (ran : ExceptT.run (uses e) d = (.ok used, last)) :
    used = e ∧ d.Takes last [] [e] [] [] := by
  cases ran
  have kept {τ : Type} (view : Draft → τ) (same : ∀ d line, view (d.addImport line) = view d) :
      view (d.addExpr e) = view d := view_foldl view Draft.addImport same _ d
  refine ⟨rfl, kept Draft.group fun _ _ => rfl, kept Draft.head fun _ _ => rfl, ?_, ?_, ?_,
    by simp⟩
  · rw [List.append_nil]
    exact kept (fun d => d.output.body) fun _ _ => rfl
  · intro line
    rw [List.mem_nil_iff, false_or, Expr.linesOf]
    refine (mem_foldl_addLine (fun d => d.output.imports) (fun _ _ => rfl) _ d).trans ?_
    rw [Expr.importLines, firstOccurrences_eq, List.mem_eraseDups]
  · intro line
    rw [TypeHint.linesOf, List.flatMap_nil, List.mem_nil_iff, or_false]
    exact iff_of_eq (congrArg (line ∈ ·) (kept (fun d => d.output.typeImports) fun _ _ => rfl))

theorem takes_annotate {type : FieldType} {frozen : Bool} {hint : TypeHint}
    (ran : ExceptT.run (annotate type frozen) d = (.ok hint, last)) :
    (d.group.hint type frozen).outcome = .ok hint ∧ d.Takes last [] [] [hint] [] := by
  obtain ⟨_, _, got, ran⟩ := run_bind_ok ran
  cases got
  obtain ⟨_, noted, added, ran⟩ := run_bind_ok ran
  have made : (d.group.hint type frozen).outcome = .ok hint := congrArg Prod.fst ran
  cases congrArg Prod.snd ran
  cases added
  obtain ⟨notes, plain⟩ := Group.mem_notes_hint made
  have kept {τ : Type} (view : Draft → τ) (same : ∀ d line, view (d.addTypeImport line) = view d) :
      view (d.addClasses (d.group.hint type frozen).notes) = view d :=
    view_foldl view Draft.addTypeImport same _ d
  refine ⟨made, kept Draft.group fun _ _ => rfl, kept Draft.head fun _ _ => rfl, ?_, ?_, ?_,
    by simpa using plain⟩
  · rw [List.append_nil]
    exact kept (fun d => d.output.body) fun _ _ => rfl
  · intro line
    simp only [List.not_mem_nil, Expr.linesOf, List.flatMap_nil, or_false]
    exact iff_of_eq (congrArg (line ∈ ·) (kept (fun d => d.output.imports) fun _ _ => rfl))
  · intro line
    refine (mem_foldl_addLine (fun d => d.output.typeImports) (fun _ _ => rfl) _ d).trans ?_
    simp only [TypeHint.linesOf, List.flatMap_singleton, List.mem_filterMap, notes]

theorem takes_mapM {R : Group → α → β → Prop} {f : α → Drafting β} (exprs : β → List Expr)
    (hints : β → List TypeHint)
    (each : ∀ {a b d last}, ExceptT.run (f a) d = (.ok b, last) →
      R d.group a b ∧ d.Takes last [] (exprs b) (hints b) [])
    {items : List α} {results : List β} (ran : ExceptT.run (items.mapM f) d = (.ok results, last)) :
    List.Forall₂ (R d.group) items results ∧
      d.Takes last [] (results.flatMap exprs) (results.flatMap hints) [] := by
  induction items generalizing results d with
  | nil =>
    cases ran
    exact ⟨.nil, .refl _⟩
  | cons a rest ih =>
    rw [List.mapM_cons] at ran
    obtain ⟨b, after, first, ran⟩ := run_bind_ok ran
    obtain ⟨bs, final, others, ran⟩ := run_bind_ok ran
    cases ran
    obtain ⟨made, taken⟩ := each first
    obtain ⟨later, takenLater⟩ := ih others
    rw [taken.group] at later
    exact ⟨.cons made later, taken.trans takenLater⟩

theorem run_eq_ok {steps : Drafting Unit} (done : Drafting.run d steps = .ok o) :
    ∃ last, ExceptT.run steps d = (.ok (), last) ∧ last.output = o := by
  unfold Drafting.run at done
  split at done
  · rename_i last ran
    cases done
    exact ⟨last, ran, rfl⟩
  · cases done

theorem run_bind_ofExcept {outcome : Except Fault α} {f : α → Drafting β} {b : β}
    (ran : ExceptT.run (ofExcept outcome >>= f) d = (.ok b, last)) :
    ∃ a, outcome = .ok a ∧ ExceptT.run (f a) d = (.ok b, last) := by
  cases outcome with
  | error fault => cases ran
  | ok a => exact ⟨a, rfl, ran⟩

end Drafting

def attributesOf (fields : List Field) : List String :=
  fields.map fun f => Name.attributeName f.name

structure IsAttribute (g : Group) (f : Field) (a : Attribute) : Prop where
  name : a.name = Name.attributeName f.name
  hint : (g.hint f.type false).outcome = .ok a.hint

variable {fields : List Field}

theorem attributesOf_of_forall₂ {α : Type} {R : Field → α → Prop} {name : α → String}
    (named : ∀ f a, R f a → name a = Name.attributeName f.name) {as : List α}
    (each : List.Forall₂ R fields as) : as.map name = attributesOf fields := by
  induction each with
  | nil => rfl
  | cons first _ ih =>
    rw [List.map_cons, named _ _ first, ih, attributesOf, attributesOf, List.map_cons]

theorem names_of_isAttribute {attributes : List Attribute}
    (each : List.Forall₂ (IsAttribute g) fields attributes) :
    attributes.map (·.name) = attributesOf fields :=
  attributesOf_of_forall₂ (fun _ _ isAttribute => isAttribute.name) each

namespace Draft.Takes

variable {d mid last : Draft} {u : Unit} (taken : d.Takes mid lines exprs hints added)
include taken

theorem addImport (ran : ExceptT.run (Drafting.addImport line) mid = (.ok u, last)) :
    d.Takes last (lines ++ [line]) exprs hints added := by
  simpa using taken.trans (Drafting.takes_addImport ran)

theorem add {declaration : Declaration}
    (ran : ExceptT.run (Drafting.add declaration) mid = (.ok u, last)) :
    d.Takes last lines exprs hints (added ++ [declaration]) := by
  simpa using taken.trans (Drafting.takes_add ran)

theorem uses {e used : Expr} (ran : ExceptT.run (Drafting.uses e) mid = (.ok used, last)) :
    d.Takes last lines (exprs ++ [e]) hints added := by
  simpa using taken.trans (Drafting.takes_uses ran).2

theorem attributes {results : List Attribute}
    (ran : ExceptT.run (Drafting.attributes fields) mid = (.ok results, last)) :
    List.Forall₂ (IsAttribute d.group) fields results ∧
      d.Takes last lines exprs (hints ++ results.map (·.hint)) added := by
  obtain ⟨each, more⟩ := Drafting.takes_mapM (R := IsAttribute) (fun _ => [])
    (fun a : Attribute => [a.hint]) (fun ran => by
      obtain ⟨hint, _, hinted, ran⟩ := run_bind_ok ran
      cases ran
      obtain ⟨made, taken⟩ := Drafting.takes_annotate hinted
      exact ⟨⟨rfl, made⟩, taken⟩) ran
  rw [taken.group] at each
  have whole := taken.trans more
  have none : results.flatMap (fun _ => ([] : List Expr)) = [] := by simp
  rw [none, ← List.map_eq_flatMap] at whole
  exact ⟨each, by simpa using whole⟩

end Draft.Takes

/-! ### Main outputs -/

/-- What an output is drafted as. -/
structure Output.Drafted (o : Output) (name : String) (kind : OutputKind) (path : Value)
    (lines : List String) (exprs : List Expr) (hints : List TypeHint) (body : List Declaration) :
    Prop where
  name : o.name = name
  kind : o.kind = kind
  docstring : o.docstring = Draft.docstring path
  body : o.body = body
  imports : ∀ line, line ∈ o.imports ↔ line ∈ lines ∨ line ∈ Expr.linesOf o.home exprs
  typeImports : ∀ line, line ∈ o.typeImports ↔ line ∈ TypeHint.linesOf o.home hints
  plainClasses : ∀ hint ∈ hints, ∀ r ∈ hint.classes, r.Plain

theorem Draft.Takes.drafted {generator : String} {kind : OutputKind} {last : Draft}
    (taken : (Draft.start g name generator kind path).Takes last lines exprs hints added) :
    last.output.Drafted name kind path lines exprs hints added where
  name := congrArg (·.1) taken.head
  kind := congrArg (·.2.1) taken.head
  docstring := congrArg (·.2.2) taken.head
  body := by simpa [Draft.start] using taken.body
  imports line := by simpa [Draft.start, taken.home] using taken.imports line
  typeImports line := by simpa [Draft.start, taken.home] using taken.typeImports line
  plainClasses := taken.plainClasses

open Drafting Draft

namespace Emit

variable {d last : Draft}

theorem record_eq_ok {kind : String} {r : Record} (done : record g path kind name r = .ok o) :
    ∃ attributes, List.Forall₂ (IsAttribute g) r.fields attributes ∧
      o.Drafted name .types path
        ["from dataclasses import dataclass", "from typing import ClassVar"] []
        (attributes.map (·.hint)) [.record name kind (Name.last r.name) attributes] := by
  obtain ⟨last, ran, rfl⟩ := run_eq_ok done
  obtain ⟨_, _, first, ran⟩ := run_bind_ok ran
  obtain ⟨_, _, second, ran⟩ := run_bind_ok ran
  obtain ⟨attributes, _, hinted, ran⟩ := run_bind_ok ran
  obtain ⟨each, taken⟩ := (((Takes.refl _).addImport first).addImport second).attributes hinted
  exact ⟨attributes, each, (taken.add ran).drafted⟩

theorem enumeration_eq_ok {e : Enum} (done : enumeration g path name e = .ok o) :
    o.Drafted name .types path ["import enum"] [] []
      [.enumeration name (Name.last e.name) e.values] := by
  obtain ⟨last, ran, rfl⟩ := run_eq_ok done
  obtain ⟨_, _, first, ran⟩ := run_bind_ok ran
  exact (((Takes.refl _).addImport first).add ran).drafted

structure IsConstant (g : Group) (c : Constant) (entry : ConstantEntry) : Prop where
  name : entry.name = Name.sanitize (Name.last c.name)
  hint : (g.hint c.type false).outcome = .ok entry.hint
  value : g.literalExpr c.value (some c.type) false = .ok entry.value

theorem takes_constantEntry {c : Constant} {entry : ConstantEntry}
    (ran : ExceptT.run (constantEntry c) d = (.ok entry, last)) :
    IsConstant d.group c entry ∧ d.Takes last [] [entry.value] [entry.hint] [] := by
  obtain ⟨hint, _, hinted, ran⟩ := run_bind_ok ran
  obtain ⟨made, taken⟩ := takes_annotate hinted
  obtain ⟨_, _, got, ran⟩ := run_bind_ok ran
  cases got
  obtain ⟨value, literal, ran⟩ := run_bind_ofExcept ran
  obtain ⟨_, _, noted, ended⟩ := run_bind_ok ran
  obtain ⟨rfl, used⟩ := takes_uses noted
  cases ended
  exact ⟨⟨rfl, made, taken.group ▸ literal⟩, taken.trans used⟩

theorem constants_eq_ok {cs : List Constant} (done : constants g path name cs = .ok o) :
    ∃ entries, List.Forall₂ (IsConstant g) cs entries ∧
      o.Drafted name .constants path [] (entries.map (·.value)) (entries.map (·.hint))
        [.constants entries] := by
  obtain ⟨last, ran, rfl⟩ := run_eq_ok done
  obtain ⟨entries, _, written, ran⟩ := run_bind_ok ran
  obtain ⟨each, taken⟩ := takes_mapM (fun entry : ConstantEntry => [entry.value])
    (fun entry => [entry.hint]) takes_constantEntry written
  rw [← List.map_eq_flatMap, ← List.map_eq_flatMap] at taken
  exact ⟨entries, each, (taken.add ran).drafted⟩

inductive MethodParts (g : Group) (m : Method) : List Declaration → Prop where
  | oneway {name : String} {params : List Attribute} (named : m.name = .text name)
      (way : m.oneway = true) (arguments : List.Forall₂ (IsAttribute g) m.params params) :
      MethodParts g m [.arguments (Name.camelize name) params]
  | answered {name : String} {fields : List Field} {params results : List Attribute}
      (named : m.name = .text name) (way : m.oneway = false)
      (arguments : List.Forall₂ (IsAttribute g) m.params params)
      (response : responseFields? m = some fields)
      (answers : List.Forall₂ (IsAttribute g) fields results) :
      MethodParts g m
        [.arguments (Name.camelize name) params, .response (Name.camelize name) results]

theorem takes_methodRow {m : Method} {row : MethodRow}
    (ran : ExceptT.run (methodRow m) d = (.ok row, last)) :
    ∃ parts, MethodParts d.group m parts ∧
      d.Takes last [] [] (parts.flatMap Declaration.hints) parts := by
  unfold methodRow at ran
  cases named : m.name with
  | text name =>
    rw [named] at ran
    obtain ⟨params, _, hinted, ran⟩ := run_bind_ok ran
    obtain ⟨_, _, added, ran⟩ := run_bind_ok ran
    obtain ⟨arguments, taken⟩ := (Takes.refl d).attributes hinted
    have first := taken.add added
    cases way : m.oneway with
    | true =>
      have none : responseFields? m = none := if_pos way
      rw [none] at ran
      cases ran
      exact ⟨_, .oneway named way arguments, by simpa [Declaration.hints] using first⟩
    | false =>
      have response : responseFields? m = some _ := if_neg (by simp [way])
      rw [response] at ran
      obtain ⟨results, _, hinted, ran⟩ := run_bind_ok ran
      obtain ⟨_, _, added, ended⟩ := run_bind_ok ran
      cases ended
      obtain ⟨answers, taken⟩ := first.attributes hinted
      exact ⟨_, .answered named way arguments response answers,
        by simpa [Declaration.hints] using taken.add added⟩
  | _ =>
    rw [named] at ran
    cases ran

theorem takes_methods {ms : List Method} {rows : List MethodRow}
    (ran : ExceptT.run (ms.mapM methodRow) d = (.ok rows, last)) :
    ∃ parts, List.Forall₂ (MethodParts d.group) ms parts ∧
      d.Takes last [] [] (parts.flatten.flatMap Declaration.hints) parts.flatten := by
  induction ms generalizing rows d with
  | nil =>
    cases ran
    exact ⟨[], .nil, .refl _⟩
  | cons m rest ih =>
    rw [List.mapM_cons] at ran
    obtain ⟨row, mid, first, ran⟩ := run_bind_ok ran
    obtain ⟨others, final, later, ran⟩ := run_bind_ok ran
    cases ran
    obtain ⟨part, isPart, taken⟩ := takes_methodRow first
    obtain ⟨parts, each, takenLater⟩ := ih later
    rw [taken.group] at each
    refine ⟨part :: parts, .cons isPart each, ?_⟩
    rw [List.flatten_cons, List.flatMap_append]
    exact taken.trans takenLater

variable {s : Service}

theorem service_eq_ok (done : service g path s = .ok o) :
    ∃ name parts rows parent, g.outputName s.name = .ok name ∧
      List.Forall₂ (MethodParts g) s.methods parts ∧ parent.isSome = s.extends?.isSome ∧
      o.Drafted name .types path ["from dataclasses import dataclass"] []
        (parts.flatten.flatMap Declaration.hints)
        (parts.flatten ++ [.functionTable rows parent]) := by
  obtain ⟨name, named, done⟩ := bind_eq_ok.mp done
  obtain ⟨last, ran, rfl⟩ := run_eq_ok done
  obtain ⟨_, _, first, ran⟩ := run_bind_ok ran
  obtain ⟨rows, _, written, ran⟩ := run_bind_ok ran
  obtain ⟨parent, parents, ran⟩ := run_bind_ofExcept ran
  obtain ⟨parts, each, taken⟩ := takes_methods written
  have begun := (Takes.refl (.start g name "service" .types path)).addImport first
  rw [begun.group] at each
  refine ⟨name, parts, rows, parent, named, each, ?_, ((begun.trans taken).add ran).drafted⟩
  cases extended : s.extends? with
  | none =>
    rw [extended] at parents
    cases parents
    rfl
  | some service =>
    rw [extended] at parents
    obtain ⟨output, -, rfl⟩ := map_eq_ok.mp parents
    rfl

theorem service_parts (done : service g path s = .ok o) : ∀ part ∈ o.body, part.isServicePart := by
  obtain ⟨name, parts, rows, parent, -, each, -, drafted⟩ := service_eq_ok done
  rw [drafted.body]
  intro d inBody
  rcases List.mem_append.mp inBody with inParts | last
  · obtain ⟨part, known, member⟩ := List.mem_flatten.mp inParts
    obtain ⟨m, -, isParts⟩ := mem_of_forall₂ each known
    cases isParts with
    | oneway =>
      cases List.mem_singleton.mp member
      rfl
    | answered => rcases List.mem_pair.mp member with rfl | rfl <;> rfl
  · cases List.mem_singleton.mp last
    rfl

structure IsHandled (g : Group) (m : Method) (method : HandlerMethod) : Prop where
  name : method.name = Name.attributeName m.name
  params : List.Forall₂ (IsAttribute g) m.params method.params
  returns : ∀ hint, method.returns = some hint ↔
    m.oneway = false ∧ ∃ type, m.returns = some type ∧ (g.hint type false).outcome = .ok hint

theorem takes_handlerMethod {m : Method} {method : HandlerMethod}
    (ran : ExceptT.run (handlerMethod m) d = (.ok method, last)) :
    IsHandled d.group m method ∧
      d.Takes last [] [] (method.params.map (·.hint) ++ method.returns.toList) [] := by
  obtain ⟨params, _, hinted, ran⟩ := run_bind_ok ran
  obtain ⟨returns, mid, result, ran⟩ := run_bind_ok ran
  obtain ⟨each, taken⟩ := (Takes.refl d).attributes hinted
  cases hashes : m.name.hashable with
  | false =>
    rw [hashes] at ran
    cases ran
  | true =>
    rw [hashes] at ran
    cases ran
    unfold resultHint at result
    cases way : m.oneway with
    | true =>
      rw [way] at result
      cases result
      exact ⟨⟨rfl, each, by simp [way]⟩, by simpa using taken⟩
    | false =>
      cases back : m.returns with
      | none =>
        rw [way, back] at result
        cases result
        exact ⟨⟨rfl, each, by simp [back]⟩, by simpa using taken⟩
      | some type =>
        rw [way, back] at result
        obtain ⟨found, _, hinted, ended⟩ := run_bind_ok result
        cases ended
        obtain ⟨made, noted⟩ := takes_annotate hinted
        rw [taken.group] at made
        exact ⟨⟨rfl, each, by simp [way, back, made]⟩, taken.trans noted⟩

theorem handler_eq_ok (done : handler g path s = .ok o) :
    ∃ name parent methods, handlerOutput g s.name = .ok name ∧
      s.extends?.mapM (handlerRef g) = .ok parent ∧
      List.Forall₂ (IsHandled g) s.methods methods ∧
      o.Drafted name .types path ["from typing import Protocol"] (parent.toList.map .ref)
        (methods.flatMap fun method => method.params.map (·.hint) ++ method.returns.toList)
        [.handler name (Name.last s.name) parent methods] := by
  obtain ⟨name, named, done⟩ := bind_eq_ok.mp done
  obtain ⟨last, ran, rfl⟩ := run_eq_ok done
  obtain ⟨_, _, first, ran⟩ := run_bind_ok ran
  obtain ⟨parent, parents, ran⟩ := run_bind_ofExcept ran
  have begun := (Takes.refl (.start g name "behaviour" .types path)).addImport first
  obtain ⟨next, used, ran⟩ : ∃ next,
      (Draft.start g name "behaviour" .types path).Takes next ["from typing import Protocol"]
        (parent.toList.map .ref) [] [] ∧
      ExceptT.run (do
        let methods ← s.methods.mapM handlerMethod
        Drafting.add (.handler name (Name.last s.name) parent methods)) next = (.ok (), last) := by
    cases parent with
    | none => exact ⟨_, begun, ran⟩
    | some r =>
      obtain ⟨_, next, noted, ran⟩ := run_bind_ok ran
      exact ⟨next, begun.uses noted, ran⟩
  obtain ⟨methods, _, written, ran⟩ := run_bind_ok ran
  obtain ⟨each, taken⟩ := takes_mapM (fun _ => []) (fun method : HandlerMethod =>
    method.params.map (·.hint) ++ method.returns.toList) takes_handlerMethod written
  rw [used.group] at each
  have none : methods.flatMap (fun _ => ([] : List Expr)) = [] := by simp
  rw [none] at taken
  have whole := ((used.trans taken).add ran).drafted
  exact ⟨name, parent, methods, named, parents, each, by simpa using whole⟩

end Emit

/-! ### Companions -/

namespace Companion

variable {type : TypeHint} {strategy result : Expr} {param subject : String} {cls : Ref}
  {d mid last : Draft}

def functionExprs (strategy result : Expr) : List Expr :=
  [.ref (Ref.support "GenerationContext"), .ref (Ref.strategy "SearchStrategy"), strategy, result]

theorem takes_addFunctions (taken : d.Takes mid lines exprs hints [])
    {u : Unit}
    (ran : ExceptT.run (addFunctions type strategy result param subject) mid = (.ok u, last)) :
    d.Takes last lines (exprs ++ functionExprs strategy result) hints
      [.generator type subject strategy, .defaults type param result] := by
  obtain ⟨_, _, first, ran⟩ := run_bind_ok ran
  obtain ⟨_, _, second, ran⟩ := run_bind_ok ran
  obtain ⟨_, _, third, ran⟩ := run_bind_ok ran
  obtain ⟨_, _, added, ran⟩ := run_bind_ok ran
  obtain ⟨_, _, fourth, ended⟩ := run_bind_ok ran
  obtain ⟨rfl, -⟩ := takes_uses third
  obtain ⟨rfl, -⟩ := takes_uses fourth
  have whole := (((((taken.uses first).uses second).uses third).add added).uses fourth).add ended
  simpa [functionExprs] using whole

theorem run_useClass {α : Type} {a : α} {f : Ref → Drafting α}
    (ran : ExceptT.run (useClass g name >>= f) d = (.ok a, last)) :
    ∃ cls next, g.classRef name = .ok cls ∧ d.Takes next [] [.ref cls] [] [] ∧
      ExceptT.run (f cls) next = (.ok a, last) := by
  obtain ⟨cls, next, first, ran⟩ := run_bind_ok ran
  obtain ⟨r, named, first⟩ := run_bind_ofExcept first
  obtain ⟨_, _, used, ended⟩ := run_bind_ok first
  cases ended
  exact ⟨_, _, named, (takes_uses used).2, ran⟩

/-- The companion of a record returns the strategy of the record, and instances with the defaults
    of the record applied. -/
theorem output_record_eq_ok {r : Record} (done : output g path name (.record r) = .ok o) :
    ∃ cls strategy subject result, g.classRef r.name = .ok cls ∧
      generator g r.kind.word (.ref cls) r.fields = .ok strategy ∧
      applyDefaults g r = .ok result ∧
      o.Drafted (Name.companion name) .types path [] (.ref cls :: functionExprs strategy result) []
        [.generator (.cls cls) subject strategy, .defaults (.cls cls) recordParam result] := by
  obtain ⟨last, ran, rfl⟩ := run_eq_ok done
  obtain ⟨cls, next, named, taken, ran⟩ := run_useClass ran
  obtain ⟨_, known, ran⟩ := run_bind_ofExcept ran
  cases known
  obtain ⟨strategy, drawn, ran⟩ := run_bind_ofExcept ran
  obtain ⟨result, defaulted, ran⟩ := run_bind_ofExcept ran
  exact ⟨cls, strategy, _, result, named, drawn, defaulted, (takes_addFunctions taken ran).drafted⟩

/-- The companion of an enum returns its first member, written with the class of the enum. -/
theorem output_enum_eq_ok {e : Enum} (done : output g path name (.enum e) = .ok o) :
    ∃ cls strategy subject, g.classRef e.name = .ok cls ∧
      (∀ first rest, e.values = first :: rest → strategy = .apply (Ref.strategy "just")
        [.ref { module := cls.module, attr := cls.attr ++ "." ++ first.1 }]) ∧
      (e.values = [] → strategy = .strategy "nothing" []) ∧
      o.Drafted (Name.companion name) .types path []
        (.ref cls :: functionExprs strategy (.name recordParam)) []
        [.generator (.cls cls) subject strategy,
          .defaults (.cls cls) recordParam (.name recordParam)] := by
  obtain ⟨last, ran, rfl⟩ := run_eq_ok done
  obtain ⟨cls, next, named, taken, ran⟩ := run_useClass ran
  refine ⟨cls, _, _, named, ?_, ?_, (takes_addFunctions taken ran).drafted⟩
  · intro first rest values
    rw [values]
  · intro none
    rw [none]

theorem output_typedef_eq_ok {t : Typedef} (done : output g path name (.typedef t) = .ok o) :
    ∃ hint strategy subject, (g.hint t.type false).outcome = .ok hint ∧
      g.draw t.type false = .ok strategy ∧
      o.Drafted (Name.companion name) .types path []
        (functionExprs strategy (defaulted (.name valueParam))) [hint]
        [.generator hint subject strategy,
          .defaults hint valueParam (defaulted (.name valueParam))] := by
  obtain ⟨last, ran, rfl⟩ := run_eq_ok done
  obtain ⟨hint, _, annotated, ran⟩ := run_bind_ok ran
  obtain ⟨made, taken⟩ := takes_annotate annotated
  obtain ⟨strategy, drawn, ran⟩ := run_bind_ofExcept ran
  exact ⟨hint, strategy, _, made, drawn, (takes_addFunctions taken ran).drafted⟩

/-- Other declarations have no companion. -/
theorem entity_of_output {entity : Entity} (done : output g path name entity = .ok o) :
    (∃ t, entity = .typedef t) ∨ (∃ e, entity = .enum e) ∨ ∃ r, entity = .record r := by
  cases entity with
  | typedef t => exact .inl ⟨t, rfl⟩
  | enum e => exact .inr (.inl ⟨e, rfl⟩)
  | record r => exact .inr (.inr ⟨r, rfl⟩)
  | _ =>
    obtain ⟨last, ran, -⟩ := run_eq_ok done
    obtain ⟨cls, next, -, -, ran⟩ := run_useClass ran
    obtain ⟨r, no, -⟩ := run_bind_ofExcept ran
    cases no

theorem output_eq_ok {entity : Entity} (done : output g path name entity = .ok o) :
    ∃ type subject strategy param result exprs hints, param ∈ [recordParam, valueParam] ∧
      o.Drafted (Name.companion name) .types path [] exprs hints
        [.generator type subject strategy, .defaults type param result] := by
  obtain ⟨t, rfl⟩ | ⟨e, rfl⟩ | ⟨r, rfl⟩ := entity_of_output done
  · obtain ⟨hint, strategy, subject, -, -, drafted⟩ := output_typedef_eq_ok done
    exact ⟨hint, subject, strategy, valueParam, _, _, _, by simp, drafted⟩
  · obtain ⟨cls, strategy, subject, -, -, -, drafted⟩ := output_enum_eq_ok done
    exact ⟨_, subject, strategy, recordParam, _, _, _, by simp, drafted⟩
  · obtain ⟨cls, strategy, subject, result, -, -, -, drafted⟩ := output_record_eq_ok done
    exact ⟨_, subject, strategy, recordParam, result, _, _, by simp, drafted⟩

end Companion
end IdlGen
