import IdlGen.Proofs.Programs

/-!
What modules declare at top level, and the expressions that their declarations are written with.
-/
namespace IdlGen

open Outcome

inductive NameKind where
  /-- The class of a record or an enum. -/
  | type
  | constant
  /-- A class for calls of a service. -/
  | message
  /-- A table of a service. -/
  | table
  | handler
  | function
deriving DecidableEq, Repr

def TypeHint.class? : TypeHint → Option Ref
  | cls r => some r
  | _ => none

namespace Declaration

def names : Declaration → List (NameKind × String)
  | source _ => []
  | record output .. => [(.type, Name.className output)]
  | enumeration output .. => [(.type, Name.className output)]
  | constants entries => entries.map fun c => (.constant, c.name)
  | arguments stem _ => [(.message, stem ++ "Args")]
  | response stem _ => [(.message, stem ++ "Response")]
  | functionTable _ parent =>
    (.table, "FUNCTIONS") :: (parent.map fun _ => (.table, "EXTENDS")).toList
  | handler output .. => [(.handler, Name.className output)]
  | generator .. => [(.function, "get_generator")]
  | defaults .. => [(.function, "apply_defaults")]

/-- The expressions that are written into a declaration. The class of a record or an enum is
    written as one in its companion, where the type of an alias is an annotation. -/
def lowered : Declaration → List Expr
  | constants entries => entries.map (·.value)
  | handler _ _ parent _ => parent.toList.map .ref
  | generator _ _ strategy =>
    [.ref (Ref.support "GenerationContext"), .ref (Ref.strategy "SearchStrategy"), strategy]
  | defaults type param result =>
    [.ref (Ref.support "GenerationContext"), result] ++
      if param = Companion.recordParam then type.class?.toList.map .ref else []
  | _ => []

/-- The class that a function of a companion is about. -/
def subject? : Declaration → Option Ref
  | generator type .. => type.class?
  | defaults type .. => type.class?
  | _ => none

/-- What is written into a declaration, and the class that it is about. -/
def exprs (d : Declaration) : List Expr := d.subject?.toList.map .ref ++ d.lowered

end Declaration

def Declaration.refs (d : Declaration) : List Ref := d.exprs.flatMap Expr.refs

def Output.names (o : Output) : List (NameKind × String) := o.body.flatMap Declaration.names

/-- The names that the statements of a module bind, as they are written. -/
def Output.topNames (o : Output) : List String := o.names.map (·.2)

def Output.refs (o : Output) : List Ref := o.body.flatMap Declaration.refs

theorem Declaration.exprs_of_isServicePart {d : Declaration} (isPart : d.isServicePart) :
    d.exprs = [] := by
  cases d with
  | arguments | response | functionTable => rfl
  | _ => cases isPart

namespace Stream

variable {stream units : List Named} {named : Named}

theorem Folded.names_unit (folded : Folded stream units) (member : named ∈ stream) :
    ∃ unit, (named.1, unit) ∈ units ∧ ∀ name ∈ named.2.names, name ∈ unit.names := by
  obtain ⟨unit, known, -⟩ := folded.unit member
  refine ⟨unit, known, fun name declared => ?_⟩
  obtain ⟨d, inBody, named⟩ := List.mem_flatMap.mp declared
  have body := folded.body_unit known
  refine List.mem_flatMap.mpr ⟨d, ?_, named⟩
  rw [body]
  exact List.mem_flatMap.mpr ⟨_, mem_under_iff.mpr member, inBody⟩

end Stream
end IdlGen
