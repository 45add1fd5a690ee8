import IdlGen.Proofs.Closure

/-!
What the texts of generated modules refer to (`Expr.Writes`, `TypeHint.classes`). The walks that
collect references meet all of them, and only them.
-/
namespace IdlGen

open Outcome

variable {d : Declaration} {home line name : String}

namespace Expr

/-- The text of an expression has a reference in it. A draw of several bindings is written as a
    call of a strategy, and a rebuilt record as a call that replaces fields. -/
inductive Writes (r : Ref) : Expr → Prop where
  | ref : Writes r (ref r)
  | attr {e : Expr} {a : String} (value : Writes r e) : Writes r (attr e a)
  | list {e : Expr} {items : List Expr} (member : e ∈ items) (item : Writes r e) :
      Writes r (list items)
  | tuple {e : Expr} {items : List Expr} (member : e ∈ items) (item : Writes r e) :
      Writes r (tuple items)
  | set {e : Expr} {items : List Expr} (member : e ∈ items) (item : Writes r e) :
      Writes r (set items)
  | key {entry : Expr × Expr} {entries : List (Expr × Expr)} (member : entry ∈ entries)
      (key : Writes r entry.1) : Writes r (dict entries)
  | value {entry : Expr × Expr} {entries : List (Expr × Expr)} (member : entry ∈ entries)
      (value : Writes r entry.2) : Writes r (dict entries)
  | func {f : Expr} {args : List Expr} {kwargs : List (String × Expr)} (called : Writes r f) :
      Writes r (call f args kwargs)
  | arg {f e : Expr} {args : List Expr} {kwargs : List (String × Expr)} (member : e ∈ args)
      (given : Writes r e) : Writes r (call f args kwargs)
  | keyword {f : Expr} {args : List Expr} {kwarg : String × Expr} {kwargs : List (String × Expr)}
      (member : kwarg ∈ kwargs) (given : Writes r kwarg.2) : Writes r (call f args kwargs)
  | builds {c : Expr} {bindings : List (String × Expr)} (isBuilds : r = Ref.strategy "builds") :
      Writes r (letAll c bindings)
  | constructor {c : Expr} {bindings : List (String × Expr)} (built : Writes r c) :
      Writes r (letAll c bindings)
  | binding {c : Expr} {bound : String × Expr} {bindings : List (String × Expr)}
      (member : bound ∈ bindings) (drawn : Writes r bound.2) : Writes r (letAll c bindings)
  | replace {t : Expr} {fields : List (String × Expr)} (isReplace : r = Ref.replace) :
      Writes r (rebuild t fields)
  | target {t : Expr} {fields : List (String × Expr)} (rebuilt : Writes r t) :
      Writes r (rebuild t fields)
  | field {t : Expr} {given : String × Expr} {fields : List (String × Expr)}
      (member : given ∈ fields) (set : Writes r given.2) : Writes r (rebuild t fields)

variable {r : Ref}

mutual

theorem writes_of_mem_nodes (e : Expr) (member : ref r ∈ e.nodes) : e.Writes r := by
  cases e with
  | blank | name _ | literal _ => simp [nodes] at member
  | ref other =>
    obtain rfl : r = other := by simpa [nodes] using member
    exact .ref
  | attr value _ =>
    simp only [nodes, List.mem_cons, reduceCtorEq, false_or] at member
    exact .attr (writes_of_mem_nodes value member)
  | list items =>
    simp only [nodes, List.mem_cons, reduceCtorEq, false_or] at member
    obtain ⟨e, known, written⟩ := writes_of_mem_nodesOfAll items member
    exact .list known written
  | tuple items =>
    simp only [nodes, List.mem_cons, reduceCtorEq, false_or] at member
    obtain ⟨e, known, written⟩ := writes_of_mem_nodesOfAll items member
    exact .tuple known written
  | set items =>
    simp only [nodes, List.mem_cons, reduceCtorEq, false_or] at member
    obtain ⟨e, known, written⟩ := writes_of_mem_nodesOfAll items member
    exact .set known written
  | dict entries =>
    simp only [nodes, List.mem_cons, reduceCtorEq, false_or] at member
    obtain ⟨entry, known, key | value⟩ := writes_of_mem_nodesOfEntries entries member
    · exact .key known key
    · exact .value known value
  | call func args kwargs =>
    simp only [nodes, List.mem_cons, reduceCtorEq, false_or, List.mem_append] at member
    obtain (member | member) | member := member
    · exact .func (writes_of_mem_nodes func member)
    · obtain ⟨e, known, written⟩ := writes_of_mem_nodesOfAll args member
      exact .arg known written
    · obtain ⟨arg, known, written⟩ := writes_of_mem_nodesOfKeywords kwargs member
      exact .keyword known written
  | letAll constructor bindings =>
    simp only [nodes, List.mem_cons, reduceCtorEq, false_or, ref.injEq, List.mem_append] at member
    obtain same | member | member := member
    · exact .builds same
    · exact .constructor (writes_of_mem_nodes constructor member)
    · obtain ⟨bound, known, written⟩ := writes_of_mem_nodesOfKeywords bindings member
      exact .binding known written
  | rebuild target fields =>
    simp only [nodes, List.mem_cons, reduceCtorEq, false_or, ref.injEq, List.mem_append] at member
    obtain same | member | member := member
    · exact .replace same
    · exact .target (writes_of_mem_nodes target member)
    · obtain ⟨given, known, written⟩ := writes_of_mem_nodesOfKeywords fields member
      exact .field known written

theorem writes_of_mem_nodesOfAll (es : List Expr) (member : ref r ∈ nodesOfAll es) :
    ∃ e ∈ es, e.Writes r := by
  cases es with
  | nil => simp [nodesOfAll] at member
  | cons e rest =>
    rw [nodesOfAll, List.mem_append] at member
    obtain here | later := member
    · exact ⟨e, List.mem_cons_self .., writes_of_mem_nodes e here⟩
    · obtain ⟨other, known, written⟩ := writes_of_mem_nodesOfAll rest later
      exact ⟨other, List.mem_cons_of_mem _ known, written⟩

theorem writes_of_mem_nodesOfEntries (entries : List (Expr × Expr))
    (member : ref r ∈ nodesOfEntries entries) :
    ∃ entry ∈ entries, entry.1.Writes r ∨ entry.2.Writes r := by
  match entries with
  | [] => simp [nodesOfEntries] at member
  | (k, v) :: rest =>
    rw [nodesOfEntries, List.mem_append, List.mem_append] at member
    obtain (key | value) | later := member
    · exact ⟨(k, v), List.mem_cons_self .., .inl (writes_of_mem_nodes k key)⟩
    · exact ⟨(k, v), List.mem_cons_self .., .inr (writes_of_mem_nodes v value)⟩
    · obtain ⟨other, known, written⟩ := writes_of_mem_nodesOfEntries rest later
      exact ⟨other, List.mem_cons_of_mem _ known, written⟩

theorem writes_of_mem_nodesOfKeywords (kwargs : List (String × Expr))
    (member : ref r ∈ nodesOfKeywords kwargs) : ∃ arg ∈ kwargs, arg.2.Writes r := by
  match kwargs with
  | [] => simp [nodesOfKeywords] at member
  | (key, e) :: rest =>
    rw [nodesOfKeywords, List.mem_append] at member
    obtain here | later := member
    · exact ⟨(key, e), List.mem_cons_self .., writes_of_mem_nodes e here⟩
    · obtain ⟨other, known, written⟩ := writes_of_mem_nodesOfKeywords rest later
      exact ⟨other, List.mem_cons_of_mem _ known, written⟩

end

theorem mem_refs_iff_writes {e : Expr} : r ∈ e.refs ↔ e.Writes r := by
  rw [mem_refs]
  refine ⟨writes_of_mem_nodes e, fun written => ?_⟩
  induction written with
  | ref => simp [nodes]
  | attr value ih => simp [nodes, ih]
  | list member item ih | tuple member item ih | set member item ih =>
    exact List.mem_cons_of_mem _ (mem_nodesOfAll.mpr ⟨_, member, ih⟩)
  | key member key ih =>
    exact List.mem_cons_of_mem _ (mem_nodesOfEntries.mpr ⟨_, member, .inl ih⟩)
  | value member value ih =>
    exact List.mem_cons_of_mem _ (mem_nodesOfEntries.mpr ⟨_, member, .inr ih⟩)
  | func called ih => simp [nodes, ih]
  | arg member given ih => simp [nodes, mem_nodesOfAll.mpr ⟨_, member, ih⟩]
  | keyword member given ih | binding member drawn ih | field member set ih =>
    simp [nodes, mem_nodesOfKeywords.mpr ⟨_, member, ih⟩]
  | builds isBuilds => simp [nodes, isBuilds]
  | constructor built ih => simp [nodes, ih]
  | replace isReplace => simp [nodes, isReplace]
  | target rebuilt ih => simp [nodes, ih]

end Expr

namespace Declaration

def fixedImports : Declaration → List String
  | record .. => ["from dataclasses import dataclass", "from typing import ClassVar"]
  | enumeration .. => ["import enum"]
  | arguments .. => ["from dataclasses import dataclass"]
  | response .. => ["from dataclasses import dataclass"]
  | functionTable .. => ["from dataclasses import dataclass"]
  | handler .. => ["from typing import Protocol"]
  | _ => []

end Declaration

theorem Declaration.fixedImports_of_isServicePart (isPart : d.isServicePart) :
    d.fixedImports = ["from dataclasses import dataclass"] := by
  cases d with
  | arguments | response | functionTable => rfl
  | _ => cases isPart

theorem Declaration.lowered_of_isServicePart (isPart : d.isServicePart) : d.lowered = [] := by
  cases d with
  | arguments | response | functionTable => rfl
  | _ => cases isPart

def Expr.Plain (e : Expr) : Prop := e.WrittenWith Ref.Plain Group.AnyName Group.AnyName

theorem Expr.linesOf_congr {exprs others : List Expr} (same : ∀ e, e ∈ exprs ↔ e ∈ others) :
    line ∈ linesOf home exprs ↔ line ∈ linesOf home others := by
  simp only [linesOf, List.mem_flatMap, same]

namespace Ref

variable {r : Ref}

theorem importLine?_of_ne (away : r.module ≠ home) :
    ∃ line, r.importLine? (some home) = some line := by
  rw [importLine?, if_neg (by simpa using Ne.symm away)]
  cases r.shortName? with
  | none => exact ⟨_, rfl⟩
  | some short =>
    dsimp only
    split
    · exact ⟨_, rfl⟩
    · split <;> exact ⟨_, rfl⟩

theorem importLine?_of_alias (path : r.alias? = none) (away : r.module ≠ home) :
    r.importLine? (some home) = some ("import " ++ r.module) := by
  rw [importLine?, if_neg (by simpa using Ne.symm away), shortName?, path]
  rfl

theorem importLine?_strategy (attr : String) (away : strategiesModule ≠ home) :
    (strategy attr).importLine? (some home) = some "from hypothesis import strategies as st" := by
  have short : (strategy attr).shortName? = some "st" := by simp [shortName?, strategy]
  have parts : Text.partitionLast '.' strategiesModule = ("hypothesis", "strategies") := by
    decide +kernel
  rw [importLine?, if_neg (by simpa [strategy] using Ne.symm away), short]
  simp [strategy, parts]

theorem importLine?_support (attr : String) (away : supportModule ≠ home) :
    (support attr).importLine? (some home) = some "from thrift_generator import runtime" := by
  have short : (support attr).shortName? = some "runtime" := by simp [shortName?, support]
  have parts : Text.partitionLast '.' supportModule = ("thrift_generator", "runtime") := by
    decide +kernel
  rw [importLine?, if_neg (by simpa [support] using Ne.symm away), short]
  simp [support, parts]

theorem module_ne_of_importLine? (needed : r.importLine? (some home) = some line) :
    r.module ≠ home := by
  rintro rfl
  simp [importLine?] at needed

theorem typing_ne_import (module : String) :
    "import " ++ module ≠ Output.futureImport ∧
      "import " ++ module ≠ Output.typeCheckingImport := by
  have start : ("import " ++ module).toList.head? = some 'i' := by simp
  constructor
  · intro same
    rw [same] at start
    exact absurd start (by decide)
  · intro same
    rw [same] at start
    exact absurd start (by decide)

/-- Neither the flag for type checking nor the first import of every module is needed by a
    reference. -/
theorem Plain.line_ne (plain : r.Plain) (needed : r.importLine? (some home) = some line) :
    line ≠ Output.futureImport ∧ line ≠ Output.typeCheckingImport := by
  have away := module_ne_of_importLine? needed
  cases plain with
  | generated output attr | replace =>
    cases (importLine?_of_alias rfl away).symm.trans needed
    exact typing_ne_import _
  | strategy attr =>
    cases (importLine?_strategy attr away).symm.trans needed
    decide
  | support attr =>
    cases (importLine?_support attr away).symm.trans needed
    decide

end Ref

namespace Group

variable {g : Group}

theorem plain_member {member : String} {cls : Ref} (made : g.classRef name = .ok cls) :
    Ref.Plain { module := cls.module, attr := cls.attr ++ "." ++ member } := by
  obtain ⟨output, -, made⟩ := bind_eq_ok.mp made
  cases made
  exact .generated output _

theorem drawsAllowed_plain (g : Group) : g.DrawsAllowed Ref.Plain AnyName AnyName where
  record _ _ _ named := plain_of_classRef named
  enum _ _ _ named := plain_of_classRef named
  freezes := trivial
  strategy attr _ := .strategy attr
  support attr _ := .support attr
  replace := .replace
  companion _ _ _ named := by
    obtain ⟨output, -, made⟩ := bind_eq_ok.mp named
    cases made
    exact .generated _ _
  names _ _ := ⟨trivial, trivial⟩

theorem valuesAllowed_plain (g : Group) (v : Value) : g.ValuesAllowed Ref.Plain v := by
  intro name _ r made
  obtain ⟨referent, -, made⟩ := bind_eq_ok.mp made
  cases referent with
  | constant c =>
    obtain ⟨parts, -, made⟩ := bind_eq_ok.mp made
    obtain ⟨output, -, made⟩ := bind_eq_ok.mp made
    cases made
    exact .generated _ _
  | member e m =>
    obtain ⟨cls, named, made⟩ := bind_eq_ok.mp made
    cases made
    exact plain_member named

end Group

end IdlGen
