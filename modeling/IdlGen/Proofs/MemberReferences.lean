import IdlGen.Proofs.Imports
import IdlGen.Schema.Reader

/-!
References to the members of enums. What a class declares for a member and what literals and
companions write for it agree exactly on the members whose names need no change and are taken by
no changed name.
-/
namespace IdlGen

open Outcome

variable {name : String} {m : String × Int} {path : Value}

namespace Name

theorem sanitize_eq_self_iff (name : String) : sanitize name = name ↔ ¬ isReserved name := by
  constructor
  · intro same word
    have longer := congrArg String.length same
    rw [sanitize, if_pos word, String.length_append] at longer
    exact absurd longer (by simp)
  · intro free
    exact if_neg free

theorem sanitize_eq_iff {written : String} (free : ¬ isReserved written) :
    sanitize name = written ↔ name = written ∨ isReserved name ∧ name ++ "_" = written := by
  by_cases word : isReserved name
  · have other : name ≠ written := fun same => free (same ▸ word)
    simp [sanitize, word, other]
  · simp [sanitize, word]

end Name

/-- The class of an enum, with the attribute of each member: the lines after the head assign, in
    the order of the members, the number of the member to its attribute. -/
structure Output.DeclaresMembers (o : Output) (e : Enum)
    (attributes : List ((String × Int) × String)) : Prop where
  members : attributes.map (·.1) = e.values
  lines : o.body.flatMap (Declaration.lines o.home) =
    ["class " ++ Name.className o.name ++ "(enum.IntEnum):",
      Declaration.docLine ("Thrift enum `" ++ Name.last e.name ++ "`.")] ++
    Declaration.afterBlank (attributes.map fun entry =>
      Declaration.indented (entry.2 ++ " = " ++ integerText entry.1.2))

/-- The attribute is of this member and of no other. -/
def IsAttributeOf (attributes : List ((String × Int) × String)) (id : String)
    (m : String × Int) : Prop :=
  (m, id) ∈ attributes ∧ ∀ other, (other, id) ∈ attributes → other = m

/-- The members of an enum with their attributes, as these are written. -/
def Enum.attributes (e : Enum) : List ((String × Int) × String) :=
  e.values.map fun m => (m, Name.sanitize m.1)

variable {e : Enum}

theorem Enum.mem_attributes {id : String} :
    (m, id) ∈ e.attributes ↔ m ∈ e.values ∧ Name.sanitize m.1 = id := by
  rw [Enum.attributes, List.mem_map]
  constructor
  · rintro ⟨other, inEnum, same⟩
    cases same
    exact ⟨inEnum, rfl⟩
  · rintro ⟨inEnum, rfl⟩
    exact ⟨m, inEnum, rfl⟩

theorem Emit.declaresMembers_enumeration {g : Group} {o : Output}
    (done : Emit.enumeration g path name e = .ok o) : o.DeclaresMembers e e.attributes := by
  have drafted := Emit.enumeration_eq_ok done
  obtain rfl := drafted.name
  constructor
  · simp [Enum.attributes, Function.comp_def]
  · simp [drafted.body, Declaration.lines, Enum.attributes, Function.comp_def]

theorem Stream.exists_enumEmission {g : Group} {output : String}
    (named : g.outputName e.name = .ok output) (current : Option Value) (path : Value) :
    ∃ emission, enumEmission { g with current } path e = .ok emission ∧
      emission.name = output ∧ emission.output.DeclaresMembers e e.attributes := by
  have seen : ({ g with current } : Group).outputName e.name = .ok output := named
  obtain ⟨o, drafted⟩ : ∃ o, Emit.enumeration { g with current } path output e = .ok o := ⟨_, rfl⟩
  refine ⟨{ name := output, output := o }, ?_, rfl, Emit.declaresMembers_enumeration drafted⟩
  exact bind_eq_ok.mpr ⟨output, seen, bind_eq_ok.mpr ⟨o, drafted, rfl⟩⟩

/-- A reference that is written for a member of an enum: for a literal that names the member, at a
    position of any type, or for the first member in the strategy of the companion. -/
inductive Group.RefersToMember (g : Group) (e : Enum) (m : String × Int) (r : Ref) : Prop where
  | literal {name : String} {type : Option FieldType} {frozen : Bool} (member : m ∈ e.values)
      (resolves : g.resolveValue name = .ok (.member e m.1))
      (made : g.literalExpr (.ref name) type frozen = .ok (.ref r))
  | companion {path : Value} {name subject : String} {o : Output} {type : TypeHint}
      {rest : List (String × Int)} (first : e.values = m :: rest)
      (made : Companion.output g path name (.enum e) = .ok o)
      (drawn : .generator type subject (.apply (Ref.strategy "just") [.ref r]) ∈ o.body)

namespace Group

variable {g : Group} {e : Enum} {r : Ref}

theorem referentRef_of_member {member : String}
    (resolves : g.resolveValue name = .ok (.member e member)) (made : g.referentRef name = .ok r) :
    ∃ cls, g.classRef e.name = .ok cls ∧
      r = { module := cls.module, attr := cls.attr ++ "." ++ member } := by
  obtain ⟨referent, found, made⟩ := bind_eq_ok.mp made
  cases resolves.symm.trans found
  obtain ⟨cls, named, made⟩ := bind_eq_ok.mp made
  cases made
  exact ⟨cls, named, rfl⟩

theorem RefersToMember.eq_ref (refers : g.RefersToMember e m r) :
    m ∈ e.values ∧ ∃ output, g.outputName e.name = .ok output ∧
      r = { module := Name.modulePath output, attr := Name.className output ++ "." ++ m.1 } := by
  have inClass {cls : Ref} (named : g.classRef e.name = .ok cls) :
      ∃ output, g.outputName e.name = .ok output ∧
        cls = { module := Name.modulePath output, attr := Name.className output } := by
    obtain ⟨output, known, made⟩ := bind_eq_ok.mp named
    cases made
    exact ⟨output, known, rfl⟩
  cases refers with
  | literal member resolves made =>
    obtain ⟨found, written, same⟩ := map_eq_ok.mp made
    cases same
    obtain ⟨cls, named, rfl⟩ := referentRef_of_member resolves written
    obtain ⟨output, known, rfl⟩ := inClass named
    exact ⟨member, output, known, rfl⟩
  | companion first made drawn =>
    obtain ⟨cls, strategy, _, named, just, -, drafted⟩ := Companion.output_enum_eq_ok made
    obtain ⟨output, known, rfl⟩ := inClass named
    rw [drafted.body, just _ _ first] at drawn
    simp only [List.mem_cons, List.not_mem_nil, reduceCtorEq, or_false, Declaration.generator.injEq,
      Expr.apply, Expr.call.injEq, Expr.ref.injEq, List.cons.injEq, and_true, true_and] at drawn
    exact ⟨first ▸ List.mem_cons_self .., output, known, drawn.2.2⟩

theorem exists_refersToMember_first {o : Output} {rest : List (String × Int)}
    (first : e.values = m :: rest) (made : Companion.output g path name (.enum e) = .ok o) :
    ∃ r, g.RefersToMember e m r := by
  obtain ⟨cls, strategy, subject, -, just, -, drafted⟩ := Companion.output_enum_eq_ok made
  have body := drafted.body
  rw [just _ _ first] at body
  exact ⟨_, .companion first made (body ▸ List.mem_cons_self ..)⟩

end Group

/-- For a member with its own name, the attribute of this name is its own exactly if the name is
    not reserved and is not what becomes of a reserved name of another member. -/
theorem Enum.isAttributeOf_iff (distinct : (e.values.map (·.1)).Nodup) (member : m ∈ e.values) :
    IsAttributeOf e.attributes m.1 m ↔ ¬ Name.isReserved m.1 ∧
      ∀ word ∈ e.values.map (·.1), Name.isReserved word → word ++ "_" ≠ m.1 := by
  simp only [IsAttributeOf, Enum.mem_attributes, member, true_and, Name.sanitize_eq_self_iff]
  refine and_congr_right fun free => ?_
  simp only [Name.sanitize_eq_iff free, List.forall_mem_map]
  constructor
  · intro only other inEnum word becomes
    have same := only other ⟨inEnum, .inr ⟨word, becomes⟩⟩
    exact free (same ▸ word)
  · rintro apart other ⟨inEnum, same | ⟨word, becomes⟩⟩
    · exact List.inj_on_of_nodup_map distinct inEnum member same
    · exact absurd becomes (apart other inEnum word)

/-- Every reference to a member of an enum is to an attribute of the class that the enum gets. The
    class has this attribute for exactly that member if and only if the name of the member is not
    reserved and no reserved name of another member becomes it. Attributes are compared as they are
    written, not by their normal forms. -/
theorem member_reference_declared_iff {g : Group} {e : Enum} {m : String × Int} {r : Ref}
    (distinct : (e.values.map (·.1)).Nodup) (refers : g.RefersToMember e m r)
    (current : Option Value) (path : Value) :
    ∃ emission attributes id,
      Stream.enumEmission { g with current } path e = .ok emission ∧
      emission.output.DeclaresMembers e attributes ∧
      r = { module := Name.modulePath emission.name,
            attr := Name.className emission.name ++ "." ++ id } ∧
      (IsAttributeOf attributes id m ↔ ¬ Name.isReserved m.1 ∧
        ∀ word ∈ e.values.map (·.1), Name.isReserved word → word ++ "_" ≠ m.1) := by
  obtain ⟨member, output, named, rfl⟩ := refers.eq_ref
  obtain ⟨emission, emitted, rfl, declares⟩ := Stream.exists_enumEmission named current path
  exact ⟨emission, e.attributes, m.1, emitted, declares, rfl, e.isAttributeOf_iff distinct member⟩

def bounds : Enum := { name := "span.Bound", values := [("from", 1), ("until", 2)] }

def spanDocument : Value :=
  .dict [(.text "module", .text "span"), (.text "enums", .list [.dict [(.text "name", .text "Bound"),
    (.text "values", .dict [(.text "from", .int 1), (.text "until", .int 2)])]])]

def spanSchema : Schema where
  module := .text "span"
  path := .text "span.thrift"
  enums := [("Bound", bounds)]

def spanGroup : Group := { schemas := [(.text "span", spanSchema)] }

/-- The second bound can be referred to: the class declares its name for it alone. -/
theorem second_bound_declared :
    (Schema.load spanDocument "" >>= fun s => Group.ofSchemas [s]) = .ok spanGroup ∧
    ∃ emission attributes id,
      Stream.enumEmission (spanGroup.seenFrom (.text "span")) (.text "span.thrift") bounds =
        .ok emission ∧
      emission.output.DeclaresMembers bounds attributes ∧
      ({ module := "bound", attr := "Bound.until" } : Ref) =
        { module := Name.modulePath emission.name,
          attr := Name.className emission.name ++ "." ++ id } ∧
      IsAttributeOf attributes id ("until", 2) := by
  have resolves : spanGroup.resolveValue "span.Bound.until" = .ok (.member bounds "until") := by
    with_unfolding_all rfl
  have made : spanGroup.literalExpr (.ref "span.Bound.until") none false =
      .ok (.ref { module := "bound", attr := "Bound.until" }) := by
    with_unfolding_all rfl
  obtain ⟨emission, attributes, id, emitted, declares, used, own⟩ :=
    member_reference_declared_iff (e := bounds) (m := ("until", 2)) (by decide)
      (.literal (by decide) resolves made) (some (.text "span")) (.text "span.thrift")
  exact ⟨rfl, emission, attributes, id, emitted, declares, used, own.mpr (by decide)⟩

/-- The companion refers to the first bound by an attribute that the class does not declare. -/
theorem first_bound_undeclared :
    (Schema.load spanDocument "" >>= fun s => Group.ofSchemas [s]) = .ok spanGroup ∧
    (bounds.values.map (·.1)).Nodup ∧
    spanGroup.RefersToMember bounds ("from", 1) { module := "bound", attr := "Bound.from" } ∧
    ∃ emission attributes,
      Stream.enumEmission (spanGroup.seenFrom (.text "span")) (.text "span.thrift") bounds =
        .ok emission ∧
      emission.output.DeclaresMembers bounds attributes ∧
      ¬ IsAttributeOf attributes "from" ("from", 1) := by
  have named : spanGroup.outputName bounds.name = .ok "Bound" :=
    toOption_eq_some.mp (by decide +kernel)
  obtain ⟨emission, emitted, -, declares⟩ :=
    Stream.exists_enumEmission named (some (.text "span")) (.text "span.thrift")
  have drafts : (Companion.output spanGroup (.text "span.thrift") "Bound"
      (.enum bounds)).toOption.isSome := by decide +kernel
  obtain ⟨o, drafted⟩ := isSome_toOption.mp drafts
  obtain ⟨r, refers⟩ := Group.exists_refersToMember_first rfl drafted
  obtain ⟨member, output, known, rfl⟩ := refers.eq_ref
  cases named.symm.trans known
  have path : Name.modulePath "Bound" = "bound" := by decide +kernel
  have cls : Name.className "Bound" = "Bound" := by decide +kernel
  rw [path, cls] at refers
  have undeclared := (bounds.isAttributeOf_iff (m := ("from", 1)) (by decide) member).not.mpr
    (by decide)
  exact ⟨rfl, by decide, refers, emission, bounds.attributes, emitted, declares, undeclared⟩

end IdlGen
