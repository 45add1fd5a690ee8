import IdlGen.Proofs.Identifiers
import IdlGen.Proofs.Literals
import Mathlib.Logic.Relation

/-!
Reserved words in literals: a literal has none among its identifiers exactly if what it refers to
and the names of the fields that it sets have none, at every depth
(`Group.unreserved_literalExpr`).
-/
namespace IdlGen

open Outcome

namespace Group

open Expr

variable {g : Group} {home : String}

/-- What a literal refers to itself, and the names of the fields that it sets, are unreserved. -/
structure CitesUnreserved (g : Group) (home : String) (part : Value × Option FieldType) :
    Prop where
  referent : ∀ name, part.1 = .ref name → ∀ r, g.referentRef name = .ok r → r.Unreserved home
  keys : ∀ entries r, part.1 = .dict entries →
    g.resolveType? part.2 = .ok (some (.record r)) →
      ∀ entry ∈ entries, Name.isReserved (Name.attributeName entry.1) = false

/-- At no depth does a literal cite or set a reserved name. -/
def LiteralUnreserved (g : Group) (home : String) (part : Value × Option FieldType) : Prop :=
  ∀ other, Relation.ReflTransGen g.LiteralPart part other → g.CitesUnreserved home other

/-- A literal is written without reserved words exactly if what it refers to at any depth is, and
    the names of the fields that it sets are not reserved. -/
theorem unreserved_literalExpr (types : g.TypesUnreserved) {v : Value} {type : Option FieldType}
    {isFrozen : Bool} {e : Expr} (made : g.literalExpr v type isFrozen = .ok e) :
    e.Unreserved home ↔ g.LiteralUnreserved home (v, type) := by
  -- By induction on the size of the literal: its parts are smaller, whatever form they are in.
  induction size : sizeOf v using Nat.strong_induction_on generalizing v type isFrozen e with
  | _ n ih =>
    obtain ⟨subs, parts, here⟩ :=
      writtenWith_iff_parts (types.drawsAllowed home).toClassesAllowed made
    rw [unreserved_iff, here]
    simp only [← unreserved_iff]
    constructor
    · rintro ⟨cites, free⟩ other reaches
      rcases reaches.cases_head with rfl | ⟨next, isPart, reaches⟩
      · exact ⟨cites.referent, cites.keys⟩
      · obtain ⟨sub, known, form, written⟩ := parts.complete next isPart
        exact (ih _ (size ▸ isPart.sizeOf_lt) written rfl).mp (free sub known) other reaches
    · intro all
      refine ⟨⟨(all _ .refl).referent, (all _ .refl).keys⟩, fun sub known => ?_⟩
      obtain ⟨next, form, isPart, written⟩ := parts.sound sub known
      exact (ih _ (size ▸ isPart.sizeOf_lt) written rfl).mpr fun other reaches =>
        all other (.head isPart reaches)

end Group

namespace Companion

open Expr Group

variable {g : Group} {home : String} {fields : List Field}

def FieldsUnreserved (fields : List Field) : Prop :=
  ∀ f ∈ fields, Name.isReserved (Name.attributeName f.name) = false

def DefaultsUnreserved (g : Group) (home : String) (fields : List Field) : Prop :=
  ∀ f ∈ fields, f.default.isNull = false → g.LiteralUnreserved home (f.default, some f.type)

theorem unreserved_applyDefaults (types : g.TypesUnreserved) {r : Record}
    (named : FieldsUnreserved r.fields) {e : Expr} (made : applyDefaults g r = .ok e) :
    e.Unreserved home ↔ DefaultsUnreserved g home r.fields := by
  rw [unreserved_iff]
  refine writtenWith_applyDefaults (types.drawsAllowed home) named (fun f literal written => ?_) made
  rw [← unreserved_iff]
  exact unreserved_literalExpr types written

end Companion
end IdlGen
