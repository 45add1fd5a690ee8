import IdlGen.Proofs.Closure
import IdlGen.Proofs.ModulePaths

/-!
Reserved words among the identifiers of expressions. Sanitized names, and names with the endings
of generated classes and modules, are never reserved.
-/
namespace IdlGen

open Outcome

namespace Name

theorem unreserved_dot {first second : String} :
    Unreserved (first ++ "." ++ second) ↔ Unreserved first ∧ Unreserved second := by
  have pieces : Text.split '.' (first ++ "." ++ second) =
      Text.split '.' first ++ Text.split '.' second := Text.split_append_sep (by simp)
  rw [Unreserved, pieces, List.forall_mem_append]
  rfl

variable {name : String} {ending : List Char}

theorem unreserved_of_dot_not_mem (single : '.' ∉ name.toList) :
    Unreserved name ↔ isReserved name = false := by
  rw [Unreserved, Text.split_of_not_mem single, List.forall_mem_singleton]

theorem isReserved_of_suffix (ends : ending <:+ name.toList)
    (away : ∀ word ∈ reserved, ¬ ending <:+ word.toList) : isReserved name = false := by
  by_contra word
  rw [Bool.not_eq_false, isReserved, List.contains_iff_mem] at word
  exact away name word ends

theorem isReserved_append {ending : String}
    (away : ∀ word ∈ reserved, ¬ ending.toList <:+ word.toList) (name : String) :
    isReserved (name ++ ending) = false :=
  isReserved_of_suffix ⟨name.toList, by simp⟩ away

theorem isReserved_sanitize (name : String) : isReserved (sanitize name) = false := by
  rw [sanitize]
  split
  · exact isReserved_append (by decide) name
  · rename_i free
    simpa using free

theorem separateWords_append (front : List Char) (nonempty : ending ≠ []) :
    ∃ before, separateWords (front ++ ending) = before ++ separateWords ending := by
  induction front with
  | nil => exact ⟨[], rfl⟩
  | cons c rest ih =>
    obtain ⟨before, split⟩ := ih
    obtain ⟨next, others, shape⟩ := List.exists_cons_of_ne_nil
      (List.append_ne_nil_of_right_ne_nil rest nonempty)
    rw [shape] at split
    rw [List.cons_append, shape, separateWords, split]
    split
    · exact ⟨c :: '_' :: before, rfl⟩
    · exact ⟨c :: before, rfl⟩

theorem lowerFrom_append (front ending before : List Char) :
    ∃ lowered after, Text.lowerFrom before (front ++ ending) =
      lowered ++ Text.lowerFrom after ending := by
  induction front generalizing before with
  | nil => exact ⟨[], before, rfl⟩
  | cons c rest ih =>
    obtain ⟨lowered, after, split⟩ := ih (c :: before)
    rw [List.cons_append, Text.lowerFrom, split]
    exact ⟨_ ++ lowered, after, by rw [List.append_assoc]⟩

theorem suffix_underscore (ends : ending <:+ name.toList) (nonempty : ending ≠ [])
    (word : separateWords ending = ending)
    (plain : ending.map (fun c => if c = '-' then '_' else c) = ending)
    (small : ∀ before, Text.lowerFrom before ending = ending) :
    ending <:+ (underscore name).toList := by
  obtain ⟨front, whole⟩ := ends
  obtain ⟨before, words⟩ := separateWords_append front nonempty
  obtain ⟨lowered, after, lowers⟩ := lowerFrom_append
    (before.map fun c => if c = '-' then '_' else c) ending []
  refine ⟨lowered, ?_⟩
  rw [underscore, String.toList_ofList, ← whole, words, word, List.map_append, plain, Text.lower,
    lowers, small]

/-- The segments of a module path stay unreserved if the output name gets an ending that makes
    the last one unreserved. -/
theorem unreserved_modulePath_append {ending output : String} (single : '.' ∉ ending.toList)
    (last : ∀ piece, isReserved (underscore (piece ++ ending)) = false)
    (free : Unreserved (modulePath output)) : Unreserved (modulePath (output ++ ending)) := by
  obtain ⟨front, piece, whole, longer⟩ := Text.split_append single output
  rw [Unreserved, split_modulePath, whole, List.map_append, List.forall_mem_append] at free
  rw [Unreserved, split_modulePath, longer, List.map_append, List.forall_mem_append]
  exact ⟨free.1, by simpa using last piece⟩

theorem unreserved_companion {output : String} (free : Unreserved (modulePath output)) :
    Unreserved (modulePath (companion output)) := by
  refine unreserved_modulePath_append (by decide) (fun piece => ?_) free
  have ends : "ata".toList <:+ (piece ++ "TestData").toList := ⟨piece.toList ++ "TestD".toList, by simp⟩
  exact isReserved_of_suffix
    (suffix_underscore ends (by decide) (by decide) (by decide) fun _ => rfl) (by decide)

theorem className_append {ending : String} (single : '.' ∉ ending.toList) (output : String) :
    ∃ front, className (output ++ ending) = front ++ ending := by
  rcases Text.cutLast_cases '.' output.toList with ⟨-, free⟩ | ⟨before, rest, -, whole, free⟩
  · have none : '.' ∉ (output ++ ending).toList := by simp [free, single]
    rcases Text.cutLast_cases '.' (output ++ ending).toList with ⟨cut, -⟩ | ⟨_, _, -, dotted, -⟩
    · refine ⟨output, ?_⟩
      rw [className, last, Text.partitionLast, cut]
      exact String.ofList_toList
    · exact absurd (by simp [dotted]) none
  · have longer : (output ++ ending).toList = before ++ '.' :: (rest ++ ending.toList) := by
      simp [whole]
    have freeLast : '.' ∉ rest ++ ending.toList := by simp [free, single]
    refine ⟨String.ofList rest, ?_⟩
    rw [className, last, Text.partitionLast, longer, Text.cutLast_append_sep freeLast]
    dsimp only
    rw [String.ofList_append, String.ofList_toList]

theorem isReserved_className_handler (output : String) :
    isReserved (className (output ++ "Handler")) = false := by
  obtain ⟨front, same⟩ := className_append (by decide : '.' ∉ "Handler".toList) output
  rw [same]
  exact isReserved_append (by decide) front

end Name

namespace Ref

def Unreserved (home : String) (r : Ref) : Prop := Name.Unreserved (r.lower (some home))

variable {home module attr : String}

theorem unreserved_iff : Unreserved home { module, attr } ↔
    (home ≠ module → Name.Unreserved module) ∧ Name.Unreserved attr := by
  rw [Unreserved, lower]
  by_cases here : home = module
  · simp [here]
  · simp [here, shortName?, Name.unreserved_dot]

theorem unreserved_of_shortName {r : Ref} {short : String} (named : r.shortName? = some short)
    (known : Name.Unreserved short) (free : Name.Unreserved r.attr) : r.Unreserved home := by
  rw [Unreserved, lower, named, Option.getD_some]
  split
  · exact free
  · exact Name.unreserved_dot.mpr ⟨known, free⟩

theorem unreserved_strategy (free : Name.Unreserved attr) : (strategy attr).Unreserved home :=
  unreserved_of_shortName (by simp [strategy, shortName?]) (by decide : Name.Unreserved "st") free

theorem unreserved_support (free : Name.Unreserved attr) : (support attr).Unreserved home :=
  unreserved_of_shortName (by simp [support, shortName?])
    (by decide : Name.Unreserved "runtime") free

theorem unreserved_replace : replace.Unreserved home :=
  unreserved_iff.mpr ⟨fun _ => by decide, by decide⟩

end Ref

namespace Expr

/-- The identifiers that a node is written with in the module `home`, besides those of its parts:
    the segments of a reference, a name, and the names of keyword arguments and fields. -/
def ownIdentifiers (home : String) : Expr → List String
  | name id => [id]
  | ref r => Text.split '.' (r.lower (some home))
  | attr _ a => [a]
  | call _ _ kwargs => kwargs.map (·.1)
  | letAll _ bindings => bindings.map (·.1)
  | rebuild _ fields => fields.map (·.1)
  | _ => []

def identifiers (home : String) (e : Expr) : List String := e.nodes.flatMap (ownIdentifiers home)

def Unreserved (home : String) (e : Expr) : Prop :=
  ∀ id ∈ e.identifiers home, Name.isReserved id = false

variable {home : String}

theorem unreserved_iff {e : Expr} : e.Unreserved home ↔
    e.WrittenWith (·.Unreserved home) (Name.isReserved · = false) (Name.isReserved · = false) := by
  rw [Unreserved, identifiers, List.forall_mem_flatMap]
  refine forall₂_congr fun node _ => ?_
  cases node with
  | ref r => rfl
  | _ => simp [ownIdentifiers, Allowed]

theorem Unreserved.of_mem_refs {e : Expr} (free : e.Unreserved home) {r : Ref}
    (member : r ∈ e.refs) : r.Unreserved home := (unreserved_iff.mp free).of_mem_refs member

@[simp]
theorem unreserved_ref {r : Ref} : (ref r).Unreserved home ↔ r.Unreserved home :=
  unreserved_iff.trans writtenWith_ref

end Expr

namespace Group

open Expr

/-- The class of an output and the path of its module have no reserved words in them. -/
def OutputUnreserved (output : String) : Prop :=
  Name.Unreserved (Name.modulePath output) ∧ Name.isReserved (Name.className output) = false

/-- The classes of the records and enums of a group, and the paths of their modules, have no
    reserved words in them. -/
structure TypesUnreserved (g : Group) : Prop where
  record : ∀ r ∈ g.records, ∀ output, g.outputName r.name = .ok output → OutputUnreserved output
  enum : ∀ e ∈ g.enums, ∀ output, g.outputName e.name = .ok output → OutputUnreserved output

variable {g : Group} {home name : String}

theorem unreserved_className {output : String} :
    Name.Unreserved (Name.className output) ↔ Name.isReserved (Name.className output) = false :=
  Name.unreserved_of_dot_not_mem (Name.dot_not_mem_className output)

theorem unreserved_classRef {cls : Ref} (named : g.classRef name = .ok cls)
    (free : ∀ output, g.outputName name = .ok output → OutputUnreserved output) :
    cls.Unreserved home := by
  obtain ⟨output, known, made⟩ := bind_eq_ok.mp named
  cases made
  obtain ⟨path, class_⟩ := free output known
  exact Ref.unreserved_iff.mpr ⟨fun _ => path, unreserved_className.mpr class_⟩

theorem unreserved_companionRef {attr : String} {r : Ref}
    (named : g.companionRef name attr = .ok r) (function : Name.Unreserved attr)
    (free : ∀ output, g.outputName name = .ok output → OutputUnreserved output) :
    r.Unreserved home := by
  obtain ⟨output, known, made⟩ := bind_eq_ok.mp named
  cases made
  exact Ref.unreserved_iff.mpr
    ⟨fun _ => Name.unreserved_companion (free output known).1, function⟩

theorem TypesUnreserved.drawsAllowed (types : g.TypesUnreserved) (home : String) :
    g.DrawsAllowed (·.Unreserved home) (Name.isReserved · = false)
      (Name.isReserved · = false) where
  record r declared _ named := unreserved_classRef named (types.record r declared)
  enum e declared _ named := unreserved_classRef named (types.enum e declared)
  freezes := by decide
  strategy _ := Ref.unreserved_strategy
  support _ := Ref.unreserved_support
  replace := Ref.unreserved_replace
  companion r declared _ named := unreserved_companionRef named (by decide) (types.record r declared)
  names _ free := ⟨free, free⟩

end Group
end IdlGen
