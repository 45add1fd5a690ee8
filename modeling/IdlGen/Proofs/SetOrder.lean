import IdlGen.Proofs.Citations
import IdlGen.Proofs.ElementForms

/-!
The order of sets never shows. Elements of one type with one text outside all modules have one
text in every module (`alike_of_spelled`), so literals that differ in the order of sets only are
written alike (`literal_text_of_reordered`).
-/
namespace IdlGen

open Outcome

variable {es es' : List Expr} {e e' : Expr} {r : Ref} {type : Option FieldType} {isFrozen : Bool}

namespace Value

/-- A literal without references: scalars, and containers of literals whose sets have hashable
    elements. -/
inductive IsLiteral : Value → Prop where
  | scalar {v : Value} (scalar : Expr.isScalar v) : IsLiteral v
  | list {items : List Value} (each : ∀ v ∈ items, IsLiteral v) : IsLiteral (.list items)
  | tuple {items : List Value} (each : ∀ v ∈ items, IsLiteral v) : IsLiteral (.tuple items)
  | set {items : List Value} (each : ∀ v ∈ items, IsLiteral v)
      (hashes : ∀ v ∈ items, v.hashable) : IsLiteral (.set items)
  | frozenset {items : List Value} (each : ∀ v ∈ items, IsLiteral v)
      (hashes : ∀ v ∈ items, v.hashable) : IsLiteral (.frozenset items)
  | dict {entries : List (Value × Value)} (keys : ∀ entry ∈ entries, IsLiteral entry.1)
      (values : ∀ entry ∈ entries, IsLiteral entry.2) : IsLiteral (.dict entries)

variable {v w : Value} {items : List Value}

theorem IsLiteral.item (literal : v.IsLiteral) (written : v.collection? = some items)
    (member : w ∈ items) : w.IsLiteral := by
  cases literal with
  | scalar scalar => cases v <;> cases scalar <;> cases written
  | list each | tuple each | set each | frozenset each =>
    cases written
    exact each w member
  | dict => cases written

theorem IsLiteral.element
    (literal : (Value.set items).IsLiteral ∨ (Value.frozenset items).IsLiteral)
    (member : v ∈ items) : v.IsLiteral ∧ v.hashable := by
  rcases literal with literal | literal
  · cases literal with
    | scalar scalar => cases scalar
    | set each hashes => exact ⟨each v member, hashes v member⟩
  · cases literal with
    | scalar scalar => cases scalar
    | frozenset each hashes => exact ⟨each v member, hashes v member⟩

/-- Two values that differ in the order of sets and frozen sets only, at any depth. -/
inductive Reordered : Value → Value → Prop where
  | same (v : Value) : Reordered v v
  | list {xs ys : List Value} (each : List.Forall₂ Reordered xs ys) : Reordered (.list xs) (.list ys)
  | tuple {xs ys : List Value} (each : List.Forall₂ Reordered xs ys) :
      Reordered (.tuple xs) (.tuple ys)
  | set {xs order ys : List Value} (each : List.Forall₂ Reordered xs order) (moved : order.Perm ys) :
      Reordered (.set xs) (.set ys)
  | frozenset {xs order ys : List Value} (each : List.Forall₂ Reordered xs order)
      (moved : order.Perm ys) : Reordered (.frozenset xs) (.frozenset ys)
  | dict {xs ys : List (Value × Value)} (keys : List.Forall₂ (fun x y => Reordered x.1 y.1) xs ys)
      (values : List.Forall₂ (fun x y => Reordered x.2 y.2) xs ys) : Reordered (.dict xs) (.dict ys)

/-- There is no set in a value, at any depth. -/
def SetFree (v : Value) : Prop := ∀ w, Within w v → ∀ items, w ≠ .set items ∧ w ≠ .frozenset items

theorem SetFree.part (free : v.SetFree) (member : w ∈ v.parts) : w.SetFree :=
  fun u within => free u (.part member within)

theorem forall₂_of_mem {α β : Type} {R S : α → β → Prop} {as : List α} {bs : List β}
    (pairs : List.Forall₂ R as bs) (each : ∀ a ∈ as, ∀ b ∈ bs, R a b → S a b) :
    List.Forall₂ S as bs := by
  induction pairs with
  | nil => exact .nil
  | cons first _ ih =>
    exact .cons (each _ (by simp) _ (by simp) first)
      (ih fun a known b found => each a (by simp [known]) b (by simp [found]))

theorem Reordered.eq_of_setFree (reordered : v.Reordered w) (free : v.SetFree) : v = w := by
  induction v using induction_on_size generalizing w with
  | step v ih =>
    cases reordered with
    | same => rfl
    | @list xs ys each | @tuple xs ys each =>
      have same := forall₂_of_mem each fun x known y _ moved =>
        ih x (sizeOf_part known) moved (free.part known)
      rw [List.forall₂_eq_eq_eq] at same
      rw [same]
    | set => exact absurd rfl (free _ (.self _) _).1
    | frozenset => exact absurd rfl (free _ (.self _) _).2
    | @dict xs ys keys values =>
      have same : List.Forall₂ Eq xs ys := by
        refine forall₂_of_mem (keys.mp (fun _ _ => And.intro) values) ?_
        intro x known y _ moved
        have key : x.1 ∈ (Value.dict xs).parts := List.mem_append_left _ (List.mem_map_of_mem known)
        have value : x.2 ∈ (Value.dict xs).parts := List.mem_append_right _ (List.mem_map_of_mem known)
        exact Prod.ext (ih _ (sizeOf_part key) moved.1 (free.part key))
          (ih _ (sizeOf_part value) moved.2 (free.part value))
      rw [List.forall₂_eq_eq_eq] at same
      rw [same]

end Value

inductive Matches {ε α β : Type} (R : α → β → Prop) : Except ε α → Except ε β → Prop where
  | ok {a : α} {b : β} (related : R a b) : Matches R (.ok a) (.ok b)
  | error (fault other : ε) : Matches R (.error fault) (.error other)

section
variable {ε α β γ δ : Type} {R : α → β → Prop} {S : γ → δ → Prop}

theorem Matches.refl {R : α → α → Prop} (each : ∀ a, R a a) (x : Except ε α) : Matches R x x := by
  cases x with
  | ok a => exact .ok (each a)
  | error fault => exact .error fault fault

variable {x : Except ε α} {f : α → Except ε γ}

theorem Matches.bind {y : Except ε β} {k : β → Except ε δ} (first : Matches R x y)
    (next : ∀ a b, x = .ok a → y = .ok b → R a b → Matches S (f a) (k b)) :
    Matches S (x >>= f) (y >>= k) := by
  cases first with
  | ok related => exact next _ _ rfl rfl related
  | error fault other => exact .error fault other

theorem Matches.next {k : α → Except ε δ} (next : ∀ a, x = .ok a → Matches S (f a) (k a)) :
    Matches S (x >>= f) (x >>= k) := by
  cases x with
  | ok a => exact next a rfl
  | error fault => exact .error fault fault

theorem matches_mapM {f : γ → Except ε α} {k : δ → Except ε β} {as : List γ} {bs : List δ}
    (each : List.Forall₂ (fun a b => Matches R (f a) (k b)) as bs) :
    Matches (List.Forall₂ R) (as.mapM f) (bs.mapM k) := by
  induction each with
  | nil => exact .ok .nil
  | cons first _ ih =>
    rw [List.mapM_cons, List.mapM_cons]
    exact first.bind fun _ _ _ _ here => ih.bind fun _ _ _ _ later => .ok (.cons here later)

theorem matches_mapM_perm {f k : γ → Except ε α} {R : α → α → Prop} {as order bs : List γ}
    (each : List.Forall₂ (fun a b => Matches R (f a) (k b)) as order) (moved : order.Perm bs) :
    Matches (fun xs ys => ∃ zs, List.Forall₂ R xs zs ∧ zs.Perm ys) (as.mapM f) (bs.mapM k) := by
  have first := matches_mapM each
  cases left : as.mapM f <;> cases right : bs.mapM k <;> rw [left] at first
  · exact .error ..
  · obtain ⟨zs, done, -⟩ := mapM_perm moved.symm right
    rw [done] at first
    cases first
  · cases middle : order.mapM k <;> rw [middle] at first <;> cases first
    obtain ⟨ys, done, -⟩ := mapM_perm moved middle
    cases right.symm.trans done
  · cases middle : order.mapM k <;> rw [middle] at first <;> cases first
    obtain ⟨ys, done, reordered⟩ := mapM_perm moved middle
    cases right.symm.trans done
    exact .ok ⟨_, ‹_›, reordered⟩

end

namespace Expr

def Alike (e e' : Expr) : Prop := ∀ home level, e.lower home level = e'.lower home level

theorem lowerAll_congr (each : List.Forall₂ Alike es es') (home : Option String) (level : Int) :
    lowerAll home level es = lowerAll home level es' := by
  induction each with
  | nil => rfl
  | cons first _ ih => rw [lowerAll, lowerAll, first home level, ih]

theorem lowerEntries_congr {xs ys : List (Expr × Expr)}
    (each : List.Forall₂ (fun x y => Alike x.1 y.1 ∧ Alike x.2 y.2) xs ys) (home : Option String)
    (level : Int) : lowerEntries home level xs = lowerEntries home level ys := by
  induction each with
  | nil => rfl
  | cons first _ ih => rw [lowerEntries, lowerEntries, first.1 home level, first.2 home level, ih]

variable {xs ys : List (String × Expr)}

theorem lowerKeywords_congr (each : List.Forall₂ (fun x y => x.1 = y.1 ∧ Alike x.2 y.2) xs ys)
    (home : Option String) (level : Int) :
    lowerKeywords home level xs = lowerKeywords home level ys := by
  induction each with
  | nil => rfl
  | cons first _ ih => rw [lowerKeywords, lowerKeywords, first.1, first.2 home level, ih]

theorem alike_list (each : List.Forall₂ Alike es es') : Alike (.list es) (.list es') := by
  intro home level
  rw [lower, lower, lowerAll_congr each]

theorem alike_tuple (each : List.Forall₂ Alike es es') : Alike (.tuple es) (.tuple es') := by
  intro home level
  rw [lower, lower, lowerAll_congr each]

theorem alike_set (each : List.Forall₂ Alike es es') : Alike (.set es) (.set es') := by
  intro home level
  rw [lower, lower, lowerAll_congr each]
  cases each <;> rfl

theorem alike_frozen (alike : Alike e e') : Alike (Group.frozen e) (Group.frozen e') := by
  intro home level
  simp only [Group.frozen, lower, lowerAll, lowerKeywords, argumentLevel, isSpread, alike home]

theorem alike_shape (shape : Group.Shape) (isFrozen : Bool) (each : List.Forall₂ Alike es es') :
    Alike (shape.expr isFrozen es) (shape.expr isFrozen es') := by
  unfold Group.Shape.expr
  split
  · split
    · exact alike_tuple each
    · exact alike_list each
  · split
    · exact alike_list each
    · split
      · exact alike_frozen (alike_list each)
      · exact alike_set each

theorem alike_entries (isFrozen hashes : Bool) {xs ys : List (Expr × Expr)}
    (each : List.Forall₂ (fun x y => Alike x.1 y.1 ∧ Alike x.2 y.2) xs ys) :
    Alike (Group.entriesExpr isFrozen hashes xs) (Group.entriesExpr isFrozen hashes ys) := by
  have pairs : Alike (Group.pairList xs) (Group.pairList ys) := by
    refine alike_list (List.forall₂_map_left_iff.mpr (List.forall₂_map_right_iff.mpr ?_))
    exact each.imp fun x y both => alike_tuple (.cons both.1 (.cons both.2 .nil))
  unfold Group.entriesExpr
  split
  · exact alike_frozen pairs
  · split
    · intro home level
      rw [lower, lower, lowerEntries_congr each]
    · exact pairs

theorem alike_record (cls : Ref)
    (each : List.Forall₂ (fun x y => x.1 = y.1 ∧ Alike x.2 y.2) xs ys) :
    Alike (.call (.ref cls) [] xs) (.call (.ref cls) [] ys) := by
  intro home level
  have spread : isSpread xs = isSpread ys := by rw [isSpread, isSpread, each.length_eq]
  simp only [lower, argumentLevel, spread, lowerKeywords_congr each]

end Expr

structure Spelled (r : Ref) (e : Expr) (f : Form) : Prop where
  formed : f.Formed
  text : ∀ home level, (e.lower home level).toList = f.text (r.lower home).toList

theorem alike_of_spelled {f f' : Form} (spelled : Spelled r e f) (spelled' : Spelled r e' f')
    (same : e.lower none 0 = e'.lower none 0) : e.Alike e' := by
  have texts : f.text (r.lower none).toList = f'.text (r.lower none).toList := by
    rw [← spelled.text none 0, ← spelled'.text none 0, same]
  obtain rfl := Form.text_inj spelled.formed spelled'.formed texts
  intro home level
  rw [← String.toList_inj, spelled.text, spelled'.text]

section
variable (each : ∀ e ∈ es, ∃ f, Spelled r e f)
include each

theorem exists_forms :
    ∃ fs : List Form, (∀ f ∈ fs, f.Formed) ∧ fs.length = es.length ∧ ∀ home level,
      (Expr.lowerAll home level es).map String.toList = Form.texts (r.lower home).toList fs := by
  induction es with
  | nil => exact ⟨[], List.forall_mem_nil _, rfl, fun _ _ => rfl⟩
  | cons e rest ih =>
    obtain ⟨⟨f, spelled⟩, later⟩ := List.forall_mem_cons.mp each
    obtain ⟨fs, formed, size, texts⟩ := ih later
    refine ⟨f :: fs, List.forall_mem_cons.mpr ⟨spelled.formed, formed⟩, by simp [size], ?_⟩
    intro home level
    rw [Expr.lowerAll, List.map_cons, spelled.text, texts, Form.texts]

theorem spelled_list : ∃ fs, Spelled r (.list es) (.node (some []) .square fs false) := by
  obtain ⟨fs, formed, -, texts⟩ := exists_forms each
  refine ⟨fs, .node (by simp) formed (by simp), fun home level => ?_⟩
  simp [Expr.lower, Value.bracketed, String.toList_intercalate, texts, Form.text, Bracket.left,
    Bracket.right]

theorem spelled_tuple : ∃ f, Spelled r (.tuple es) f := by
  obtain ⟨fs, formed, size, texts⟩ := exists_forms each
  refine ⟨.node (some []) .round fs (es.length == 1), .node (by simp) formed ?_, fun home level => ?_⟩
  · rintro - many chars rfl
    rw [← size] at many
    cases many
  · have texts := texts home level
    rcases es with _ | ⟨e, _ | ⟨e', rest⟩⟩ <;>
      simp only [Expr.lower, Expr.lowerAll, Value.tupleText, Form.text, ← texts] <;>
      simp [Value.bracketed, String.toList_intercalate, Bracket.left, Bracket.right]

theorem spelled_set : ∃ f, Spelled r (.set es) f := by
  obtain ⟨fs, formed, -, texts⟩ := exists_forms each
  cases es with
  | nil =>
    refine ⟨.node (some ['s', 'e', 't']) .round [] false,
      .node (List.all_eq_true.mp rfl) (by simp) (by simp), ?_⟩
    intro home level
    simp [Expr.lower, Form.text, Form.texts, Bracket.left, Bracket.right]
  | cons e rest =>
    refine ⟨.node (some []) .curly fs false, .node (by simp) formed (by simp), fun home level => ?_⟩
    simp [Expr.lower, Value.bracketed, String.toList_intercalate, texts, Form.text, Bracket.left,
      Bracket.right]

theorem spelled_shape (shape : Group.Shape) (isFrozen : Bool) :
    ∃ f, Spelled r (shape.expr isFrozen es) f := by
  obtain ⟨fs, listed⟩ := spelled_list each
  unfold Group.Shape.expr
  split
  · split
    · exact spelled_tuple each
    · exact ⟨_, listed⟩
  · split
    · exact ⟨_, listed⟩
    · split
      · refine ⟨.node (some ['f', 'r', 'o', 'z', 'e', 'n', 's', 'e', 't']) .round [_] false,
          .node (List.all_eq_true.mp rfl) (List.forall_mem_singleton.mpr listed.formed) (by simp), ?_⟩
        intro home level
        have text := listed.text home level
        simp [Group.frozen, Expr.lower, Expr.lowerAll, Expr.lowerKeywords, Expr.callText,
          Expr.argumentLevel, Expr.isSpread, Value.bracketed, Form.text, Form.texts, Bracket.left,
          Bracket.right] at text ⊢
        simp [text]
      · exact spelled_set each

end

namespace Group

variable {g : Group}

inductive ItemClass (g : Group) : Option FieldType → Ref → Prop where
  | enum {type : Option FieldType} {e : Enum} {r : Ref}
      (resolves : g.resolveType? type = .ok (some (.enum e))) (named : g.classRef e.name = .ok r) :
      ItemClass g type r
  | item {type : Option FieldType} {resolved : Option Resolved} {r : Ref}
      (resolves : g.resolveType? type = .ok resolved) (deeper : ItemClass g (itemType? resolved) r) :
      ItemClass g type r

variable {v : Value}

theorem not_itemClass_none (item : g.ItemClass type r) : type ≠ none := by
  induction item with
  | enum resolves =>
    rintro rfl
    cases resolves
  | item resolves _ ih =>
    rintro rfl
    cases resolves
    exact ih rfl

theorem ItemClass.unique {r' : Ref} (item : g.ItemClass type r) (item' : g.ItemClass type r') :
    r = r' := by
  induction item with
  | enum resolves named =>
    cases item' with
    | enum resolves' named' =>
      cases resolves.symm.trans resolves'
      exact Except.ok.inj (named.symm.trans named')
    | item resolves' deeper =>
      cases resolves.symm.trans resolves'
      exact absurd rfl (not_itemClass_none deeper)
  | item resolves deeper ih =>
    cases item' with
    | enum resolves' =>
      cases resolves.symm.trans resolves'
      exact absurd rfl (not_itemClass_none deeper)
    | item resolves' deeper' =>
      cases resolves.symm.trans resolves'
      exact ih deeper'

theorem spelled_literal (scalar : Expr.isScalar v) (r : Ref) : ∃ f, Spelled r (.literal v) f := by
  obtain ⟨f, formed, text⟩ := Form.exists_form_literalText scalar
  exact ⟨f, formed, fun home level => by rw [text, Expr.lower]⟩

theorem spelled_scalarExpr {resolved : Option Resolved} (scalar : Expr.isScalar v)
    (made : scalarExpr v resolved = .ok e) (r : Ref) : ∃ f, Spelled r e f := by
  have isLiteral : ∃ w, Expr.isScalar w ∧ e = .literal w := by
    unfold scalarExpr at made
    grind [Expr.isScalar]
  obtain ⟨w, plain, rfl⟩ := isLiteral
  exact spelled_literal plain r

theorem exists_spelled (literal : v.IsLiteral) (hashes : v.hashable)
    (only : ∀ r', g.ItemClass type r' → r' = r) (made : g.literalExpr v type isFrozen = .ok e) :
    ∃ f, Spelled r e f := by
  induction literal generalizing type isFrozen e with
  | @scalar v scalar =>
    cases v with
    | int n =>
      rw [literalExpr] at made
      obtain ⟨resolved, resolves, made⟩ := bind_eq_ok.mp made
      split at made
      · obtain ⟨cls, named, made⟩ := bind_eq_ok.mp made
        cases made
        obtain rfl := only cls (.enum resolves named)
        refine ⟨.node none .round [.word (integerText n).toList] false,
          .call (Form.formed_integerText n), fun home level => ?_⟩
        simp [Expr.lower, Expr.lowerAll, Expr.lowerKeywords, Expr.callText, Expr.isSpread,
          Expr.literalText, Value.literal, Value.bracketed, Form.text, Form.texts, Bracket.left,
          Bracket.right]
      · exact spelled_scalarExpr rfl made r
    | null | bool | float | text | bytes =>
      rw [literalExpr] at made
      · obtain ⟨resolved, -, made⟩ := bind_eq_ok.mp made
        exact spelled_scalarExpr rfl made r
      all_goals simp
    | _ => cases scalar
  | tuple each ih =>
    rw [literalExpr] at made
    obtain ⟨resolved, resolves, made⟩ := bind_eq_ok.mp made
    obtain ⟨shape, shaped, made⟩ := bind_eq_ok.mp made
    obtain ⟨exprs, items, made⟩ := bind_eq_ok.mp made
    cases made
    rw [literalItems_eq_mapM, element_shapeOf shaped] at items
    refine spelled_shape (fun e member => ?_) _ _
    obtain ⟨v, known, written⟩ := mem_of_mapM items member
    exact ih v known ((Value.hashableList_iff _).mp hashes v known)
      (fun r' deeper => only r' (.item resolves deeper)) written
  | frozenset each _ ih =>
    rw [literalExpr] at made
    obtain ⟨resolved, resolves, made⟩ := bind_eq_ok.mp made
    obtain ⟨shape, shaped, made⟩ := bind_eq_ok.mp made
    obtain ⟨exprs, items, made⟩ := bind_eq_ok.mp made
    cases made
    rw [literalItems_eq_mapM, element_shapeOf shaped] at items
    refine spelled_shape (fun e member => ?_) _ _
    obtain ⟨v, known, written⟩ := mem_of_mapM items ((List.mergeSort_perm ..).mem_iff.mp member)
    exact ih v known ((Value.hashableList_iff _).mp hashes v known)
      (fun r' deeper => only r' (.item resolves deeper)) written
  | _ => cases hashes

theorem alike_sortByText {order : List Expr} (each : List.Forall₂ Expr.Alike es order)
    (moved : order.Perm es') (spelled : ∀ e ∈ es, ∃ f, Spelled r e f)
    (spelled' : ∀ e ∈ es', ∃ f, Spelled r e f) :
    List.Forall₂ Expr.Alike (sortByText es) (sortByText es') := by
  let key (e : Expr) : String := e.lower none 0
  have sorted (es : List Expr) : ((sortByText es).map key).Pairwise (· ≤ ·) := by
    have ordered : (sortByText es).Pairwise fun a b => decide (key a ≤ key b) :=
      List.pairwise_mergeSort (fun a b c => by simpa using String.le_trans)
        (fun a b => by simpa using String.le_total _ _) es
    exact List.pairwise_map.mpr (ordered.imp of_decide_eq_true)
  have texts : es.map key = order.map key := by
    rw [← List.forall₂_eq_eq_eq, List.forall₂_map_left_iff, List.forall₂_map_right_iff]
    exact each.imp fun _ _ alike => alike none 0
  have permuted : ((sortByText es).map key).Perm ((sortByText es').map key) :=
    ((List.mergeSort_perm ..).map key).trans
      (texts ▸ (moved.map key).trans ((List.mergeSort_perm ..).map key).symm)
  have same := permuted.eq_of_pairwise (fun _ _ _ _ => String.le_antisymm) (sorted es) (sorted es')
  rw [← List.forall₂_eq_eq_eq, List.forall₂_map_left_iff, List.forall₂_map_right_iff] at same
  refine Value.forall₂_of_mem same fun e known e' found texts => ?_
  obtain ⟨f, here⟩ := spelled e ((List.mergeSort_perm ..).mem_iff.mp known)
  obtain ⟨f', there⟩ := spelled' e' ((List.mergeSort_perm ..).mem_iff.mp found)
  exact alike_of_spelled here there texts

/-- No set names a field of a record that is written in a literal, at any depth. -/
def NamesSetFree (g : Group) (part : Value × Option FieldType) : Prop :=
  ∀ other, Relation.ReflTransGen g.LiteralPart part other → ∀ entries r, other.1 = .dict entries →
    g.resolveType? other.2 = .ok (some (.record r)) → ∀ entry ∈ entries, entry.1.SetFree

theorem NamesSetFree.part {part other : Value × Option FieldType} (free : g.NamesSetFree part)
    (isPart : g.LiteralPart part other) : g.NamesSetFree other :=
  fun deeper within => free deeper (.head isPart within)

section
variable {xs ys order : List Value}

def ItemsMatch (g : Group) (type : Option FieldType) (xs ys : List Value) : Prop :=
  ∀ resolved, g.resolveType? type = .ok resolved → ∀ isFrozen, List.Forall₂ (fun x y =>
    Matches Expr.Alike (g.literalExpr x (itemType? resolved) isFrozen)
      (g.literalExpr y (itemType? resolved) isFrozen)) xs ys

theorem matches_sequence (each : g.ItemsMatch type xs ys) :
    Matches Expr.Alike (g.literalExpr (.list xs) type isFrozen)
      (g.literalExpr (.list ys) type isFrozen) := by
  rw [literalExpr, literalExpr]
  refine Matches.next fun resolved resolves => Matches.next fun shape shaped => ?_
  rw [literalItems_eq_mapM, literalItems_eq_mapM, element_shapeOf shaped]
  exact (matches_mapM (each resolved resolves _)).bind fun es es' _ _ alike =>
    .ok (Expr.alike_shape shape isFrozen alike)

theorem matches_collection (each : g.ItemsMatch type xs order) (moved : order.Perm ys)
    (literal : ∀ x ∈ xs, x.IsLiteral ∧ x.hashable) (literal' : ∀ y ∈ ys, y.IsLiteral ∧ y.hashable) :
    Matches Expr.Alike (g.literalExpr (.set xs) type isFrozen)
      (g.literalExpr (.set ys) type isFrozen) := by
  rw [literalExpr, literalExpr]
  refine Matches.next fun resolved resolves => Matches.next fun shape shaped => ?_
  rw [literalItems_eq_mapM, literalItems_eq_mapM, element_shapeOf shaped]
  obtain ⟨r, only⟩ : ∃ r, ∀ r', g.ItemClass (itemType? resolved) r' → r' = r := by
    by_cases cited : ∃ r, g.ItemClass (itemType? resolved) r
    · exact ⟨cited.choose, fun r' item => item.unique cited.choose_spec⟩
    · exact ⟨default, fun r' item => absurd ⟨r', item⟩ cited⟩
  refine (matches_mapM_perm (each resolved resolves _) moved).bind
    fun es es' made made' ⟨order, alike, sorted⟩ => ?_
  refine .ok (Expr.alike_shape shape isFrozen (alike_sortByText (r := r) alike sorted ?_ ?_))
  · intro e member
    obtain ⟨x, known, written⟩ := mem_of_mapM made member
    exact exists_spelled (literal x known).1 (literal x known).2 only written
  · intro e member
    obtain ⟨y, known, written⟩ := mem_of_mapM made' member
    exact exists_spelled (literal' y known).1 (literal' y known).2 only written

end

theorem matches_literalExpr {w : Value} (reordered : v.Reordered w) (literal : v.IsLiteral)
    (literal' : w.IsLiteral) (type : Option FieldType) (isFrozen : Bool)
    (names : g.NamesSetFree (v, type)) :
    Matches Expr.Alike (g.literalExpr v type isFrozen) (g.literalExpr w type isFrozen) := by
  induction v using Value.induction_on_size generalizing w type isFrozen with
  | step v ih =>
    have items {xs ys : List Value} (written : v.collection? = some xs)
        (each : List.Forall₂ Value.Reordered xs ys) (literals : ∀ y ∈ ys, y.IsLiteral) :
        g.ItemsMatch type xs ys := by
      intro resolved resolves isFrozen
      refine Value.forall₂_of_mem each fun x known y found moved => ?_
      have isPart : g.LiteralPart (v, type) (x, itemType? resolved) := .item written resolves known
      exact ih x isPart.sizeOf_lt moved (literal.item written known) (literals y found) _ _
        (names.part isPart)
    cases reordered with
    | same => exact .refl (fun _ _ _ => rfl) _
    | list each => exact matches_sequence (items rfl each fun y => literal'.item rfl)
    | tuple each => exact matches_sequence (items rfl each fun y => literal'.item rfl)
    | set each moved =>
      refine matches_collection (items rfl each fun y found => ?_) moved
        (fun x => Value.IsLiteral.element (.inl literal)) (fun y => Value.IsLiteral.element (.inl literal'))
      exact literal'.item rfl (moved.mem_iff.mp found)
    | frozenset each moved =>
      refine matches_collection (items rfl each fun y found => ?_) moved
        (fun x => Value.IsLiteral.element (.inr literal)) (fun y => Value.IsLiteral.element (.inr literal'))
      exact literal'.item rfl (moved.mem_iff.mp found)
    | @dict xs ys keys values =>
      cases literal with | scalar scalar => cases scalar | dict keyLiterals valueLiterals =>
      cases literal' with | scalar scalar => cases scalar | dict keyLiterals' valueLiterals' =>
      have both := keys.mp (fun _ _ => And.intro) values
      rw [literalExpr, literalExpr]
      refine Matches.next fun resolved resolves => ?_
      split
      · rename_i r
        rw [literalFields_eq_mapM, literalFields_eq_mapM]
        refine (matches_mapM (R := fun x y : String × Expr => x.1 = y.1 ∧ x.2.Alike y.2)
          (Value.forall₂_of_mem both fun x known y found moved => ?_)).bind
          fun kwargs kwargs' _ _ alike => ?_
        · rw [← moved.1.eq_of_setFree (names _ .refl xs _ rfl resolves x known)]
          have isPart := LiteralPart.field resolves known
          exact (ih _ isPart.sizeOf_lt moved.2 (valueLiterals x known) (valueLiterals' y found) _ _
            (names.part isPart)).bind fun e e' _ _ alike => .ok ⟨rfl, alike⟩
        · exact Matches.next fun cls _ => .ok (Expr.alike_record cls alike)
      · rename_i plain
        refine Matches.next fun types typed => ?_
        obtain ⟨keyType, valueType, hashes⟩ := types
        obtain ⟨rfl, rfl⟩ := Prod.mk.inj (types_entryTypes typed)
        simp only [literalEntries_eq_mapM]
        refine (matches_mapM (R := fun x y : Expr × Expr => x.1.Alike y.1 ∧ x.2.Alike y.2)
          (Value.forall₂_of_mem both fun x known y found moved => ?_)).bind
          fun pairs pairs' _ _ alike => .ok (Expr.alike_entries isFrozen hashes alike)
        have isKey := LiteralPart.key resolves plain known
        have isValue := LiteralPart.value resolves plain known
        refine (ih _ isKey.sizeOf_lt moved.1 (keyLiterals x known) (keyLiterals' y found) _ _
          (names.part isKey)).bind fun e e' _ _ key => ?_
        exact (ih _ isValue.sizeOf_lt moved.2 (valueLiterals x known) (valueLiterals' y found) _ _
          (names.part isValue)).bind fun e e' _ _ value => .ok ⟨key, value⟩

/-- Literals without references that differ only in the order of sets are written alike in every
    module, or both not at all, if no set names a field of a record in them. -/
theorem literal_text_of_reordered (g : Group) {v w : Value} (reordered : v.Reordered w)
    (literal : v.IsLiteral) (literal' : w.IsLiteral) (type : Option FieldType) (isFrozen : Bool)
    (names : g.NamesSetFree (v, type)) (home : Option String) (level : Int) :
    (g.literalExpr v type isFrozen).toOption.map (·.lower home level) =
      (g.literalExpr w type isFrozen).toOption.map (·.lower home level) := by
  have related := matches_literalExpr reordered literal literal' type isFrozen names
  generalize g.literalExpr v type isFrozen = x at related
  generalize g.literalExpr w type isFrozen = y at related
  cases related with
  | ok alike => exact congrArg some (alike home level)
  | error => rfl

def paletteGroup : Group where
  schemas := [(.text "paint", {
    module := .text "paint"
    structs := [("Can", { kind := .struct, name := "paint.Can", fields := [] })]
    enums := [("Hue", { name := "paint.Hue", values := [("RED", 1), ("BLUE", 2)] })] })]

def paletteText (home : Option String) (type : FieldType) (v : Value) : Option String :=
  (paletteGroup.literalExpr v (some type) false).toOption.map (·.lower home 0)

theorem isLiteral_ints (numbers : List Int) :
    (∀ v ∈ numbers.map Value.int, v.IsLiteral) ∧ ∀ v ∈ numbers.map Value.int, v.hashable := by
  simp only [List.forall_mem_map]
  exact ⟨fun _ _ => .scalar rfl, fun _ _ => rfl⟩

/-- Two orders of a set of members, written in the module of their enum. -/
theorem hues_in_one_order :
    (Value.set [.int 2, .int 1]).Reordered (.set [.int 1, .int 2]) ∧
      (paletteText (some "hue") (.set (.ref "paint.Hue")) (.set [.int 2, .int 1])).isSome ∧
      paletteText (some "hue") (.set (.ref "paint.Hue")) (.set [.int 2, .int 1]) =
        paletteText (some "hue") (.set (.ref "paint.Hue")) (.set [.int 1, .int 2]) := by
  have moved : (Value.set [.int 2, .int 1]).Reordered (.set [.int 1, .int 2]) :=
    .set (.cons (.same _) (.cons (.same _) .nil)) (.swap ..)
  have first := isLiteral_ints [2, 1]
  have second := isLiteral_ints [1, 2]
  refine ⟨moved, by decide +kernel, literal_text_of_reordered paletteGroup moved (.set first.1 first.2)
    (.set second.1 second.2) _ _ ?_ _ _⟩
  -- A set of numbers has no dictionaries in it.
  intro other within entries r isDict
  rcases within.cases_head with rfl | ⟨part, isPart, deeper⟩
  · cases isDict
  · cases isPart with
    | @item _ v _ _ _ written _ member =>
      cases written
      obtain ⟨n, rfl⟩ : ∃ n, v = .int n := (List.mem_pair.mp member).elim (⟨2, ·⟩) (⟨1, ·⟩)
      rcases deeper.cases_head with rfl | ⟨_, inner, -⟩
      · cases isDict
      · cases inner
        cases ‹_ = some _›

/-- A set that names a field of a record shows its order. -/
theorem naming_set_shows_order :
    ∃ v w : Value, v.Reordered w ∧ v.IsLiteral ∧ w.IsLiteral ∧
      paletteText none (.ref "paint.Can") v ≠ paletteText none (.ref "paint.Can") w := by
  have literal (numbers : List Int) :
      (Value.dict [(.frozenset (numbers.map .int), .int 1)]).IsLiteral := by
    obtain ⟨each, hashes⟩ := isLiteral_ints numbers
    exact .dict (List.forall_mem_singleton.mpr (.frozenset each hashes))
      (List.forall_mem_singleton.mpr (.scalar rfl))
  refine ⟨.dict [(.frozenset [.int 8, .int 0], .int 1)], .dict [(.frozenset [.int 0, .int 8], .int 1)],
    .dict (.cons (.frozenset (.cons (.same _) (.cons (.same _) .nil)) (.swap ..)) .nil)
      (.cons (.same _) .nil), literal [8, 0], literal [0, 8], ?_⟩
  decide +kernel

end Group

end IdlGen
