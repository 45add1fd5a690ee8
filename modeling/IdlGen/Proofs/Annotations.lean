import IdlGen.Output.Draft
import IdlGen.Proofs.Groups

/-!
Annotations beside strategies. An annotation can be read off the strategy of the same type, one
support function at a time (`annotate_is_image_of_draw`).
-/
namespace IdlGen

open Outcome

namespace Trail

variable {ω ε α β : Type}

@[simp] theorem outcome_bind (first : Trail ω ε α) (next : α → Trail ω ε β) :
    (first >>= next).outcome = first.outcome >>= fun a => (next a).outcome := by
  simp only [bind, andThen, Except.bind]
  cases first.outcome <;> rfl

@[simp] theorem outcome_pure (a : α) : (pure a : Trail ω ε α).outcome = .ok a := rfl

@[simp] theorem outcome_lift (outcome : Except ε α) :
    (lift outcome : Trail ω ε α).outcome = outcome := rfl

/-- The later trail is the earlier one, unless that ends with a fault that gives way. -/
def KeptBut (weak : ε → Prop) (before after : Trail ω ε α) : Prop :=
  (∀ fault, before.outcome = .error fault → ¬ weak fault) → after = before

variable {weak : ε → Prop} {before after : Trail ω ε α}

theorem kept_refl (trail : Trail ω ε α) : KeptBut weak trail trail := fun _ => rfl

theorem kept_lift {before after : Except ε α} (kept : Outcome.KeptBut weak before after) :
    KeptBut weak (lift before : Trail ω ε α) (lift after) := fun strong => by rw [kept strong]

theorem KeptBut.outcome (kept : KeptBut weak before after) :
    Outcome.KeptBut weak before.outcome after.outcome := fun strong => by rw [kept strong]

theorem KeptBut.bind {next next' : α → Trail ω ε β} (first : KeptBut weak before after)
    (rest : ∀ a, before.outcome = .ok a → KeptBut weak (next a) (next' a)) :
    KeptBut weak (before >>= next) (after >>= next') := by
  intro strong
  rw [outcome_bind] at strong
  have same : after = before := first fun fault failed => strong fault (by rw [failed]; rfl)
  rw [same]
  cases known : before.outcome with
  | error fault => simp only [Bind.bind, andThen, known]
  | ok a =>
    rw [known] at strong
    simp only [Bind.bind, andThen, known, rest a known strong]

end Trail

namespace Group

variable {g : Group} {home : String}

theorem outcome_classHint (g : Group) (name : String) :
    (g.classHint name).outcome = TypeHint.cls <$> g.classRef name := by
  cases known : g.classRef name <;> simp [classHint, known, Trail.note] <;> rfl

def hintStep (g : Group) (ask : FieldType → Bool → Except Fault TypeHint) (frozen : Bool) :
    Resolved → Except Fault TypeHint
  | .primitive p => p.hint
  | .list element => do
    let element ← ask element frozen
    return if frozen then .tuple element else .list element
  | .set element => do
    let hashes ← g.isHashable element true
    let element ← ask element hashes
    return if hashes then if frozen then .frozenset element else .set element else .list element
  | .map key value => do
    let value ← ask value frozen
    let hashes ← g.keysFrozen frozen key
    let key ← ask key hashes
    return if frozen then .frozenset (.pair key value)
      else if hashes then .dict key value else .list (.pair key value)
  | .record r => .cls <$> g.classRef r.name
  | .enum e => .cls <$> g.classRef e.name
  | .constant c => .cls <$> g.classRef c.name
  | .service s => .cls <$> g.classRef s.name

theorem outcome_hintWithin_succ (g : Group) (fuel : Nat) (type : FieldType) (frozen : Bool) :
    (g.hintWithin (fuel + 1) type frozen).outcome =
      g.resolveType type >>= g.hintStep (fun t f => (g.hintWithin fuel t f).outcome) frozen := by
  rw [hintWithin, Trail.outcome_bind, Trail.outcome_lift]
  congr 1
  funext resolved
  cases resolved with
  | primitive p => rfl
  | list element => simp only [Trail.outcome_bind, Trail.outcome_pure, hintStep]; rfl
  | set element =>
    simp only [Trail.outcome_bind, Trail.outcome_lift, hintStep]
    congr 1
    funext hashes
    cases hashes <;> simp <;> rfl
  | map key value =>
    simp only [Trail.outcome_bind, hintStep]
    congr 1
    funext value
    cases frozen
    · simp only [Bool.false_eq_true, if_false, Trail.outcome_bind, Trail.outcome_lift]
      congr 1
      funext hashes
      cases hashes <;> simp <;> rfl
    · simp
      rfl
  | record r => exact outcome_classHint g r.name
  | enum e => exact outcome_classHint g e.name
  | constant c => exact outcome_classHint g c.name
  | service s => exact outcome_classHint g s.name

def drawStep (g : Group) (ask : FieldType → Bool → Except Fault Expr) (frozen : Bool)
    (type : FieldType) : Resolved → Except Fault Expr
  | .primitive p => p.draw
  | .list element => do
    let element ← ask element frozen
    return .support (if frozen then "tuple_of" else "list_of") [element, .context]
  | .set element => do
    let hashes ← g.isHashable element true
    let element ← ask element hashes
    return .support
      (if hashes then if frozen then "frozenset_of" else "set_of" else "unique_list_of")
      [element, .context]
  | .map key value => do
    let hashes ← g.keysFrozen frozen key
    let key ← ask key hashes
    let value ← ask value frozen
    return .support (if frozen then "frozen_items_of" else if hashes then "dict_of" else "pairs_of")
      [key, value, .context]
  | .enum e => do return .apply (Ref.strategy "sampled_from") [.ref (← g.classRef e.name)]
  | .record r => do
    return .support "nested" [.ref (← g.companionRef r.name "get_generator"), .context]
  | .constant _ => .error (.notGenerable (typeName type))
  | .service _ => .error (.notGenerable (typeName type))

theorem drawWithin_succ (g : Group) (fuel : Nat) (type : FieldType) (frozen : Bool) :
    g.drawWithin (fuel + 1) type frozen =
      g.resolveType type >>= g.drawStep (g.drawWithin fuel) frozen type := by
  rw [drawWithin]
  congr 1
  funext resolved
  cases resolved with
  | set element =>
    dsimp only [drawStep]
    congr 1
    funext hashes
    cases hashes <;> rfl
  | map key value => cases frozen <;> rfl
  | _ => rfl

/-! ### More fuel, and groups that find more -/

def Resolved.name? : Resolved → Option String
  | .record r => some r.name
  | .enum e => some e.name
  | .constant c => some c.name
  | .service s => some s.name
  | _ => none

section
variable {g' : Group} {weak : Fault → Prop} (spent : weak .endlessType)
  (resolves : ∀ type, KeptBut weak (g.resolveType type) (g'.resolveType type))
  (hashes : ∀ type, KeptBut weak (g.isHashable type true) (g'.isHashable type true))
  (named : ∀ type resolved name, g.resolveType type = .ok resolved →
    resolved.name? = some name → g'.outputName name = g.outputName name)
include spent resolves hashes named

theorem kept_hintWithin {fuel more : Nat} (enough : fuel ≤ more) (type : FieldType)
    (frozen : Bool) :
    Trail.KeptBut weak (g.hintWithin fuel type frozen) (g'.hintWithin more type frozen) := by
  induction fuel generalizing more type frozen with
  | zero => exact fun strong => absurd spent (strong _ rfl)
  | succ fuel ih =>
    obtain ⟨more, rfl⟩ : ∃ n, more = n + 1 := ⟨more - 1, by omega⟩
    have below (type : FieldType) (frozen : Bool) := ih (show fuel ≤ more by omega) type frozen
    rw [hintWithin, hintWithin]
    refine (Trail.kept_lift (resolves type)).bind fun resolved known => ?_
    have ofClass (name : String) (is : resolved.name? = some name) :
        Trail.KeptBut weak (g.classHint name) (g'.classHint name) := by
      rw [classHint, classHint, classRef, classRef, named type resolved name known is]
      exact Trail.kept_refl _
    cases resolved with
    | primitive p => exact Trail.kept_refl _
    | list element => exact (below element frozen).bind fun _ _ => Trail.kept_refl _
    | set element =>
      refine (Trail.kept_lift (hashes element)).bind fun yes _ => ?_
      cases yes
      · exact (below element false).bind fun _ _ => Trail.kept_refl _
      · exact (below element true).bind fun _ _ => Trail.kept_refl _
    | map key value =>
      refine (below value frozen).bind fun _ _ => ?_
      cases frozen
      · refine (Trail.kept_lift (hashes key)).bind fun yes _ => ?_
        cases yes
        · exact (below key false).bind fun _ _ => Trail.kept_refl _
        · exact (below key true).bind fun _ _ => Trail.kept_refl _
      · exact (below key true).bind fun _ _ => Trail.kept_refl _
    | record r => exact ofClass r.name rfl
    | enum e => exact ofClass e.name rfl
    | constant c => exact ofClass c.name rfl
    | service s => exact ofClass s.name rfl

theorem kept_drawWithin {fuel more : Nat} (enough : fuel ≤ more) (type : FieldType)
    (frozen : Bool) :
    KeptBut weak (g.drawWithin fuel type frozen) (g'.drawWithin more type frozen) := by
  induction fuel generalizing more type frozen with
  | zero => exact kept_fault spent _
  | succ fuel ih =>
    obtain ⟨more, rfl⟩ : ∃ n, more = n + 1 := ⟨more - 1, by omega⟩
    have below (type : FieldType) (frozen : Bool) := ih (show fuel ≤ more by omega) type frozen
    rw [drawWithin_succ, drawWithin_succ]
    refine (resolves type).bind fun resolved known => ?_
    cases resolved with
    | list element => exact (below element frozen).bind fun _ _ => kept_refl _
    | set element =>
      exact (hashes element).bind fun yes _ => (below element yes).bind fun _ _ => kept_refl _
    | map key value =>
      have keys : KeptBut weak (g.keysFrozen frozen key) (g'.keysFrozen frozen key) := by
        cases frozen
        · exact hashes key
        · exact kept_refl _
      exact keys.bind fun yes _ => (below key yes).bind fun _ _ =>
        (below value frozen).bind fun _ _ => kept_refl _
    | record r =>
      rw [drawStep, drawStep, companionRef, companionRef, named type _ r.name known rfl]
      exact kept_refl _
    | enum e =>
      rw [drawStep, drawStep, classRef, classRef, named type _ e.name known rfl]
      exact kept_refl _
    | _ => exact kept_refl _

end

end Group

/-! ### Classes that annotations note -/

/-- The classes that an annotation names. -/
def TypeHint.classes : TypeHint → List Ref
  | builtin _ => []
  | cls r => [r]
  | list element => element.classes
  | tuple element => element.classes
  | set element => element.classes
  | frozenset element => element.classes
  | dict key value => key.classes ++ value.classes
  | pair key value => key.classes ++ value.classes

/-- A reference to a generated module or to one of the libraries that generated code uses. -/
inductive Ref.Plain : Ref → Prop where
  | generated (output attr : String) : Plain { module := Name.modulePath output, attr }
  | replace : Plain Ref.replace
  | strategy (attr : String) : Plain (Ref.strategy attr)
  | support (attr : String) : Plain (Ref.support attr)

theorem Trail.bind_eq_of_ok {ω ε α β : Type} {first : Trail ω ε α} {next : α → Trail ω ε β} {a : α}
    (made : first.outcome = .ok a) :
    first >>= next = ⟨first.notes ++ (next a).notes, (next a).outcome⟩ := by
  simp only [bind, andThen, made]

namespace Group

variable {g : Group} {name : String}

theorem plain_of_classRef {r : Ref} (made : g.classRef name = .ok r) : r.Plain := by
  obtain ⟨output, -, made⟩ := bind_eq_ok.mp made
  cases made
  exact .generated output _

def NotesClasses (noted : List Ref) (trail : Trail Ref Fault TypeHint) : Prop :=
  (∀ r ∈ noted, r.Plain) → ∀ hint, trail.outcome = .ok hint →
    (∀ r, r ∈ noted ∨ r ∈ trail.notes ↔ r ∈ hint.classes) ∧ ∀ r ∈ hint.classes, r.Plain

section
variable {noted : List Ref}

theorem notesClasses_classHint (g : Group) (name : String) :
    NotesClasses [] (g.classHint name) := by
  intro _ hint done
  rw [outcome_classHint] at done
  obtain ⟨cls, known, rfl⟩ := map_eq_ok.mp done
  have trail : g.classHint name = ⟨[cls], .ok (.cls cls)⟩ := by
    rw [classHint, known]
    rfl
  rw [trail]
  simpa [TypeHint.classes] using plain_of_classRef known

theorem notesClasses_lift_bind {α : Type} {outcome : Except Fault α}
    {next : α → Trail Ref Fault TypeHint} (rest : ∀ a, NotesClasses noted (next a)) :
    NotesClasses noted (Trail.lift outcome >>= next) := by
  intro plain hint done
  rw [Trail.outcome_bind, Trail.outcome_lift] at done
  obtain ⟨a, rfl, done⟩ := bind_eq_ok.mp done
  rw [Trail.bind_eq_of_ok (Trail.outcome_lift _)]
  exact rest a plain hint done

theorem NotesClasses.bind {first : Trail Ref Fault TypeHint}
    {next : TypeHint → Trail Ref Fault TypeHint} (notes : NotesClasses [] first)
    (rest : ∀ hint, NotesClasses hint.classes (next hint)) :
    NotesClasses [] (first >>= next) := by
  intro plain hint done
  rw [Trail.outcome_bind] at done
  obtain ⟨inner, made, done⟩ := bind_eq_ok.mp done
  obtain ⟨noted, innerPlain⟩ := notes plain inner made
  obtain ⟨all, outerPlain⟩ := rest inner innerPlain hint done
  rw [Trail.bind_eq_of_ok made]
  exact ⟨fun r => by rw [← all r, ← noted r]; simp, outerPlain⟩

theorem NotesClasses.wrap {trail : Trail Ref Fault TypeHint} (notes : NotesClasses [] trail)
    {around : TypeHint → TypeHint} (same : ∀ hint, (around hint).classes = hint.classes ++ noted) :
    NotesClasses noted (trail >>= fun hint => pure (around hint)) := by
  intro plain hint done
  rw [Trail.outcome_bind] at done
  obtain ⟨inner, made, done⟩ := bind_eq_ok.mp done
  cases done
  obtain ⟨innerNotes, innerPlain⟩ := notes (by simp) inner made
  rw [Trail.bind_eq_of_ok made, same]
  refine ⟨fun r => ?_, fun r member => (List.mem_append.mp member).elim (innerPlain r) (plain r)⟩
  have same := innerNotes r
  simp only [List.not_mem_nil, false_or] at same
  simp [← same, pure, Trail.done, or_comm]

end

theorem notesClasses_hintWithin (g : Group) (fuel : Nat) (type : FieldType) (frozen : Bool) :
    NotesClasses [] (g.hintWithin fuel type frozen) := by
  induction fuel generalizing type frozen with
  | zero => exact fun _ _ done => by cases done
  | succ fuel ih =>
    rw [hintWithin]
    refine notesClasses_lift_bind fun resolved => ?_
    cases resolved with
    | primitive p =>
      intro _ hint done
      cases p <;> cases done
      all_goals simp [Trail.lift, TypeHint.classes]
    | list element =>
      exact (ih element frozen).wrap fun hint => by cases frozen <;> simp [TypeHint.classes]
    | set element =>
      refine notesClasses_lift_bind fun hashes => ?_
      cases hashes
      · exact (ih element false).wrap fun hint => by simp [TypeHint.classes]
      · exact (ih element true).wrap fun hint => by cases frozen <;> simp [TypeHint.classes]
    | map key value =>
      refine (ih value frozen).bind fun inner => ?_
      cases frozen
      · refine notesClasses_lift_bind fun hashes => ?_
        cases hashes
        · exact (ih key false).wrap fun hint => by simp [TypeHint.classes]
        · exact (ih key true).wrap fun hint => by simp [TypeHint.classes]
      · exact (ih key true).wrap fun hint => by simp [TypeHint.classes]
    | record r => exact notesClasses_classHint g r.name
    | enum e => exact notesClasses_classHint g e.name
    | constant c => exact notesClasses_classHint g c.name
    | service s => exact notesClasses_classHint g s.name

theorem mem_notes_hint {type : FieldType} {frozen : Bool} {hint : TypeHint}
    (done : (g.hint type frozen).outcome = .ok hint) :
    (∀ r, r ∈ (g.hint type frozen).notes ↔ r ∈ hint.classes) ∧
      ∀ r ∈ hint.classes, r.Plain := by
  have notes := notesClasses_hintWithin g (g.typeFuel type) type frozen (by simp) hint done
  simp only [List.not_mem_nil, false_or] at notes
  exact notes

end Group

/-! ### Annotations read off strategies -/

def scalarWord? (attr : String) : Option String :=
  match attr with
  | "booleans" => some "bool"
  | "integers" => some "int"
  | "floats" => some "float"
  | "text" => some "str"
  | "binary" => some "bytes"
  | _ => none

/-- The type of what a support function builds from the elements that a strategy draws. -/
def elementsWord? (attr element : String) : Option String :=
  match attr with
  | "list_of" => some ("list[" ++ element ++ "]")
  | "tuple_of" => some ("tuple[" ++ element ++ ", ...]")
  | "set_of" => some ("set[" ++ element ++ "]")
  | "frozenset_of" => some ("frozenset[" ++ element ++ "]")
  | "unique_list_of" => some ("list[" ++ element ++ "]")
  | _ => none

/-- The type of what a support function builds from the keys and values that two strategies
    draw. -/
def entriesWord? (attr key value : String) : Option String :=
  match attr with
  | "dict_of" => some ("dict[" ++ key ++ ", " ++ value ++ "]")
  | "frozen_items_of" => some ("frozenset[" ++ ("tuple[" ++ key ++ ", " ++ value ++ "]") ++ "]")
  | "pairs_of" => some ("list[" ++ ("tuple[" ++ key ++ ", " ++ value ++ "]") ++ "]")
  | _ => none

/-- The annotation that a strategy stands for in the module `home`. A strategy that goes
    through a companion stands for the class of a record with that companion. -/
inductive Image (g : Group) (home : String) : Expr → String → Prop where
  | scalar {attr text : String} {kwargs : List (String × Expr)}
      (known : scalarWord? attr = some text) : Image g home (.strategy attr kwargs) text
  | elements {attr inner text : String} {element : Expr} (each : Image g home element inner)
      (known : elementsWord? attr inner = some text) :
      Image g home (.support attr [element, .context]) text
  | entries {attr first second text : String} {key value : Expr} (keys : Image g home key first)
      (values : Image g home value second) (known : entriesWord? attr first second = some text) :
      Image g home (.support attr [key, value, .context]) text
  | member (cls : Ref) :
      Image g home (.apply (Ref.strategy "sampled_from") [.ref cls]) (cls.lower (some home))
  | nested {r : Record} {companion cls : Ref} (declared : r ∈ g.records)
      (drawn : g.companionRef r.name "get_generator" = .ok companion)
      (named : g.classRef r.name = .ok cls) :
      Image g home (.support "nested" [.ref companion, .context]) (cls.lower (some home))

/-- Records with one companion have one class. -/
def Group.CompanionsTellClasses (g : Group) : Prop :=
  ∀ r ∈ g.records, ∀ other ∈ g.records,
    (g.companionRef r.name "get_generator").toOption =
      (g.companionRef other.name "get_generator").toOption →
    (g.classRef r.name).toOption = (g.classRef other.name).toOption

instance (g : Group) : Decidable g.CompanionsTellClasses :=
  inferInstanceAs (Decidable (∀ r ∈ g.records, ∀ other ∈ g.records, _ → _))

namespace Expr

variable {attr : String} {args args' : List Expr} {kwargs : List (String × Expr)}

theorem support_inj {attr' : String} :
    support attr args = support attr' args' ↔ attr = attr' ∧ args = args' := by
  simp [support, apply, Ref.support]

theorem strategy_inj {attr' : String} {kwargs' : List (String × Expr)} :
    strategy attr kwargs = strategy attr' kwargs' ↔ attr = attr' ∧ kwargs = kwargs' := by
  simp [strategy, Ref.strategy]

theorem strategy_ne_apply {f : Ref} {arg : Expr} :
    strategy attr kwargs ≠ apply f (arg :: args) := by
  simp [strategy, apply]

theorem support_ne_sampled : support attr args ≠ apply (Ref.strategy "sampled_from") args' := by
  simp [support, apply, Ref.support, Ref.strategy]

end Expr

namespace Image

variable {g : Group} {home : String} {e : Expr} {type : FieldType}

theorem unique (tells : g.CompanionsTellClasses) {text other : String}
    (first : Image g home e text) (second : Image g home e other) : text = other := by
  induction first generalizing other with
  | scalar known =>
    generalize same : Expr.strategy _ _ = e at second
    cases second with
    | scalar known' =>
      obtain ⟨rfl, -⟩ := Expr.strategy_inj.mp same
      exact Option.some.inj (known.symm.trans known')
    | _ => exact absurd same Expr.strategy_ne_apply
  | elements each known eachUnique =>
    generalize same : Expr.support _ _ = e at second
    cases second with
    | scalar known' => exact absurd same.symm Expr.strategy_ne_apply
    | member cls => exact absurd same Expr.support_ne_sampled
    | elements each' known' =>
      obtain ⟨rfl, args⟩ := Expr.support_inj.mp same
      cases args
      rw [eachUnique each', known'] at known
      exact (Option.some.inj known).symm
    | entries keys values known' => cases (Expr.support_inj.mp same).2
    | nested declared drawn named =>
      obtain ⟨rfl, -⟩ := Expr.support_inj.mp same
      cases known
  | entries keys values known keysUnique valuesUnique =>
    generalize same : Expr.support _ _ = e at second
    cases second with
    | scalar known' => exact absurd same.symm Expr.strategy_ne_apply
    | member cls => exact absurd same Expr.support_ne_sampled
    | entries keys' values' known' =>
      obtain ⟨rfl, args⟩ := Expr.support_inj.mp same
      cases args
      rw [keysUnique keys', valuesUnique values', known'] at known
      exact (Option.some.inj known).symm
    | _ => cases (Expr.support_inj.mp same).2
  | member cls =>
    generalize same : Expr.apply _ _ = e at second
    cases second with
    | scalar known => exact absurd same.symm Expr.strategy_ne_apply
    | member cls' =>
      cases same
      rfl
    | _ => exact absurd same.symm Expr.support_ne_sampled
  | nested declared drawn named =>
    generalize same : Expr.support _ _ = e at second
    cases second with
    | scalar known' => exact absurd same.symm Expr.strategy_ne_apply
    | member cls => exact absurd same Expr.support_ne_sampled
    | elements each known' =>
      obtain ⟨rfl, -⟩ := Expr.support_inj.mp same
      cases known'
    | entries keys values known' => cases (Expr.support_inj.mp same).2
    | nested declared' drawn' named' =>
      obtain ⟨-, args⟩ := Expr.support_inj.mp same
      cases args
      have sameClass := tells _ declared _ declared' (by rw [drawn, drawn'])
      rw [named, named'] at sameClass
      cases sameClass
      rfl

theorem of_primitive {p : Primitive} (drawn : p.draw = .ok e) :
    ∃ hint, p.hint = .ok hint ∧ ∀ home, Image g home e (hint.text home) := by
  cases p with
  | other name => cases drawn
  | _ =>
    cases drawn
    exact ⟨_, rfl, fun _ => .scalar rfl⟩

theorem of_step {askDraw : FieldType → Bool → Except Fault Expr}
    {askHint : FieldType → Bool → Except Fault TypeHint}
    (below : ∀ type frozen e, askDraw type frozen = .ok e →
      ∃ hint, askHint type frozen = .ok hint ∧ ∀ home, Image g home e (hint.text home))
    {resolved : Group.Resolved} (declared : g.Declared resolved) {type : FieldType} {frozen : Bool}
    {e : Expr} (drawn : g.drawStep askDraw frozen type resolved = .ok e) :
    ∃ hint, g.hintStep askHint frozen resolved = .ok hint ∧
      ∀ home, Image g home e (hint.text home) := by
  cases resolved with
  | primitive p => exact of_primitive drawn
  | list element =>
    obtain ⟨inner, elementDrawn, made⟩ := bind_eq_ok.mp drawn
    cases made
    obtain ⟨hint, hinted, image⟩ := below _ _ _ elementDrawn
    refine ⟨_, bind_eq_ok.mpr ⟨hint, hinted, rfl⟩, fun home => ?_⟩
    cases frozen
    · exact .elements (image home) rfl
    · exact .elements (image home) rfl
  | set element =>
    obtain ⟨hashes, answered, drawn⟩ := bind_eq_ok.mp drawn
    obtain ⟨inner, elementDrawn, made⟩ := bind_eq_ok.mp drawn
    cases made
    obtain ⟨hint, hinted, image⟩ := below _ _ _ elementDrawn
    refine ⟨_, bind_eq_ok.mpr ⟨hashes, answered, bind_eq_ok.mpr ⟨hint, hinted, rfl⟩⟩,
      fun home => ?_⟩
    cases hashes
    · exact .elements (image home) rfl
    · cases frozen
      · exact .elements (image home) rfl
      · exact .elements (image home) rfl
  | map key value =>
    obtain ⟨hashes, answered, drawn⟩ := bind_eq_ok.mp drawn
    obtain ⟨keyExpr, keyDrawn, drawn⟩ := bind_eq_ok.mp drawn
    obtain ⟨valueExpr, valueDrawn, made⟩ := bind_eq_ok.mp drawn
    cases made
    obtain ⟨keyHint, keyHinted, keyImage⟩ := below _ _ _ keyDrawn
    obtain ⟨valueHint, valueHinted, valueImage⟩ := below _ _ _ valueDrawn
    refine ⟨_, bind_eq_ok.mpr ⟨valueHint, valueHinted, bind_eq_ok.mpr ⟨hashes, answered,
      bind_eq_ok.mpr ⟨keyHint, keyHinted, rfl⟩⟩⟩, fun home => ?_⟩
    cases frozen
    · cases hashes
      · exact .entries (keyImage home) (valueImage home) rfl
      · exact .entries (keyImage home) (valueImage home) rfl
    · exact .entries (keyImage home) (valueImage home) rfl
  | enum e =>
    obtain ⟨cls, named, made⟩ := bind_eq_ok.mp drawn
    cases made
    exact ⟨.cls cls, map_eq_ok.mpr ⟨cls, named, rfl⟩, fun _ => .member cls⟩
  | record r =>
    obtain ⟨companion, found, made⟩ := bind_eq_ok.mp drawn
    cases made
    obtain ⟨output, known, -⟩ := bind_eq_ok.mp found
    have named : g.classRef r.name = .ok _ := bind_eq_ok.mpr ⟨output, known, rfl⟩
    exact ⟨.cls _, map_eq_ok.mpr ⟨_, named, rfl⟩, fun _ => .nested declared found named⟩
  | constant c => cases drawn
  | service s => cases drawn

theorem of_drawWithin {fuel : Nat} {frozen : Bool} (drawn : g.drawWithin fuel type frozen = .ok e) :
    ∃ hint, (g.hintWithin fuel type frozen).outcome = .ok hint ∧
      ∀ home, Image g home e (hint.text home) := by
  induction fuel generalizing type frozen e with
  | zero => cases drawn
  | succ fuel ih =>
    rw [Group.drawWithin_succ] at drawn
    obtain ⟨resolved, resolves, drawn⟩ := bind_eq_ok.mp drawn
    rw [Group.outcome_hintWithin_succ, resolves]
    exact of_step (fun _ _ _ => ih) (Group.declared_of_resolveType resolves) drawn

end Image

theorem outcome_annotate (d : Draft) (type : FieldType) (frozen : Bool) :
    (ExceptT.run (Drafting.annotate type frozen) d).1 = (d.group.hint type frozen).outcome := by
  rw [Drafting.annotate, run_bind, run_get]
  rfl

/-- A type that a strategy draws has an annotation, and its text in the module of the draft is
    read off the strategy level by level. No other text is, where companions tell the
    classes apart. -/
theorem annotate_is_image_of_draw (d : Draft) (type : FieldType) (frozen : Bool) (e : Expr)
    (drawn : d.group.draw type frozen = .ok e) :
    ∃ hint, (ExceptT.run (Drafting.annotate type frozen) d).1 = .ok hint ∧
      Image d.group d.output.home e (hint.text d.output.home) ∧
      (d.group.CompanionsTellClasses →
        ∀ text, Image d.group d.output.home e text → text = hint.text d.output.home) := by
  obtain ⟨hint, hinted, image⟩ := Image.of_drawWithin drawn
  refine ⟨hint, ?_, image _, fun tells text other => other.unique tells (image _)⟩
  rw [outcome_annotate]
  exact hinted

/-- A struct that does not hash and one that does, an enum, and an alias of a list. -/
def archiveGroup : Group where
  schemas := [(.text "m", {
    module := .text "m"
    structs := [
      ("Note", {
        kind := .struct, name := "m.Note"
        fields := [{ name := .text "tags", type := .list (.primitive .string) }] }),
      ("Key", {
        kind := .struct, name := "m.Key"
        fields := [{ name := .text "id", type := .primitive .i32 }] })]
    enums := [("Color", { name := "m.Color", values := [("RED", 1)] })]
    typedefs := [("Path", { name := "m.Path", type := .list (.ref "m.Color") })] })]

/-- Sets of aliased lists as keys, and a map from structs that do not hash as value. -/
def archiveType : FieldType :=
  .map (.set (.ref "m.Path"))
    (.map (.ref "m.Note") (.set (.map (.ref "m.Key") (.primitive .double))))

def archiveDraft : Draft := .start archiveGroup "Note" "struct" .types .null

theorem archive_annotate_is_image :
    ∃ e, archiveGroup.draw archiveType false = .ok e ∧ archiveGroup.CompanionsTellClasses ∧
      ∀ text, Image archiveGroup "note" e text ↔
        text = "dict[frozenset[tuple[color.Color, ...]], " ++
          "list[tuple[Note, set[frozenset[tuple[key.Key, float]]]]]]" := by
  have drawable : (archiveGroup.draw archiveType false).toOption.isSome := by decide +kernel
  have tells : archiveGroup.CompanionsTellClasses := by decide +kernel
  have written : (ExceptT.run (Drafting.annotate archiveType false) archiveDraft).1.toOption.map
      (TypeHint.text "note") = some ("dict[frozenset[tuple[color.Color, ...]], " ++
        "list[tuple[Note, set[frozenset[tuple[key.Key, float]]]]]]") := by
    decide +kernel
  obtain ⟨e, drawn⟩ := isSome_toOption.mp drawable
  obtain ⟨hint, hinted, isImage, only⟩ :=
    annotate_is_image_of_draw archiveDraft archiveType false e drawn
  have home : archiveDraft.output.home = "note" := by decide +kernel
  rw [hinted] at written
  rw [home, Option.some.inj written] at isImage only
  exact ⟨e, drawn, tells, fun text => ⟨only tells text, fun same => same ▸ isImage⟩⟩

end IdlGen
