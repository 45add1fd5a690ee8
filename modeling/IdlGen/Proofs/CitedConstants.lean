import IdlGen.Proofs.Closure
import IdlGen.Proofs.LiteralRuns

/-!
Literals that cite constants. A constant holds plain containers, so one of a container type cannot
stand where a set element or a key is frozen; all other literals evaluate to a value of their
annotation.
-/
namespace IdlGen

open Run Outcome

variable {hashes : Bool} {r : Record} {name : String} {fuel : Nat} {es : List Expr} {e : Expr}

section
variable {g : Group} {s : Surroundings} {type : FieldType} {frozen : Bool} {hint : TypeHint}
variable {v : Value} {c : Constant}

def Fails (s : Surroundings) (frozen : Bool) (e : Expr) : Prop :=
  ∀ o, e.meaning s = .ok o → frozen = true ∧ ¬ o.toValue.hashable

variable {o : Object}

theorem Expr.exists_of_meanings {os : List Object} (mean : Expr.meanings s es = .ok os)
    (member : e ∈ es) : ∃ o ∈ os, e.meaning s = .ok o := by
  rw [Expr.meanings_eq_mapM] at mean
  exact exists_of_mapM mean member

theorem Expr.of_meaning_list (means : (Expr.list es).meaning s = .ok o) :
    ∃ items, o = .value (.list items) ∧
      ∀ e ∈ es, ∃ part, e.meaning s = .ok part ∧ part.toValue ∈ items := by
  obtain ⟨os, mean, made⟩ := bind_eq_ok.mp means
  cases made
  refine ⟨_, rfl, fun e member => ?_⟩
  obtain ⟨part, known, partMeans⟩ := Expr.exists_of_meanings mean member
  exact ⟨part, partMeans, List.mem_map_of_mem known⟩

theorem Expr.of_meaning_pair {first second : Expr}
    (means : (Expr.tuple [first, second]).meaning s = .ok o) :
    ∃ key value, first.meaning s = .ok key ∧ second.meaning s = .ok value ∧
      o = .value (.tuple [key.toValue, value.toValue]) := by
  obtain ⟨os, mean, made⟩ := bind_eq_ok.mp means
  cases made
  simp only [Expr.meanings] at mean
  obtain ⟨key, keyMeans, mean⟩ := bind_eq_ok.mp mean
  obtain ⟨rest, mean, made⟩ := bind_eq_ok.mp mean
  obtain ⟨value, valueMeans, mean⟩ := bind_eq_ok.mp mean
  cases mean
  cases made
  exact ⟨key, value, keyMeans, valueMeans, rfl⟩

theorem Group.hashable_of_meaning_frozen (freezes : s.name "frozenset" = .ok (.native .frozenset))
    (means : (Group.frozen (.list es)).meaning s = .ok o) :
    ∀ e ∈ es, ∃ part, e.meaning s = .ok part ∧ part.toValue.hashable := by
  rw [Group.frozen, Expr.meaning] at means
  obtain ⟨func, native, means⟩ := bind_eq_ok.mp means
  obtain ⟨args, argsMean, means⟩ := bind_eq_ok.mp means
  obtain ⟨kwargs, noKeywords, called⟩ := bind_eq_ok.mp means
  cases freezes.symm.trans native
  cases noKeywords
  rw [Expr.meanings] at argsMean
  obtain ⟨inner, listMeans, argsMean⟩ := bind_eq_ok.mp argsMean
  cases argsMean
  obtain ⟨items, rfl, each⟩ := Expr.of_meaning_list listMeans
  obtain ⟨kept, made, -⟩ := bind_eq_ok.mp called
  intro e member
  obtain ⟨part, partMeans, known⟩ := each e member
  exact ⟨part, partMeans, (of_setItems made).2 _ known⟩

namespace Fails

theorem sequence (member : e ∈ es) (fails : Fails s frozen e) :
    Fails s frozen (if frozen then .tuple es else .list es) := by
  intro o means
  cases frozen with
  | false =>
    obtain ⟨items, -, each⟩ := Expr.of_meaning_list means
    obtain ⟨part, partMeans, -⟩ := each e member
    exact absurd (fails part partMeans).1 Bool.false_ne_true
  | true =>
    obtain ⟨os, mean, made⟩ := bind_eq_ok.mp means
    cases made
    obtain ⟨part, known, partMeans⟩ := Expr.exists_of_meanings mean member
    refine ⟨rfl, fun hashable => (fails part partMeans).2 ?_⟩
    exact (Value.hashableList_iff _).mp hashable _ (List.mem_map_of_mem known)

theorem collection (freezes : s.name "frozenset" = .ok (.native .frozenset)) (member : e ∈ es)
    (fails : Fails s (frozen || hashes) e) :
    Fails s frozen
      (if hashes then if frozen then Group.frozen (.list es) else .set es else .list es) := by
  intro o means
  cases hashes with
  | false =>
    obtain ⟨items, rfl, each⟩ := Expr.of_meaning_list means
    obtain ⟨part, partMeans, -⟩ := each e member
    rw [Bool.or_false] at fails
    exact ⟨(fails part partMeans).1, Bool.false_ne_true⟩
  | true =>
    -- A set has no room for an element that cannot be hashed, frozen or not.
    exfalso
    cases frozen with
    | true =>
      obtain ⟨part, partMeans, hashable⟩ := Group.hashable_of_meaning_frozen freezes means e member
      exact (fails part partMeans).2 hashable
    | false =>
      obtain ⟨os, mean, means⟩ := bind_eq_ok.mp means
      obtain ⟨kept, made, -⟩ := bind_eq_ok.mp means
      obtain ⟨part, known, partMeans⟩ := Expr.exists_of_meanings mean member
      exact (fails part partMeans).2 ((of_setItems made).2 _ (List.mem_map_of_mem known))

theorem entries (freezes : s.name "frozenset" = .ok (.native .frozenset))
    {pairs : List (Expr × Expr)} {pair : Expr × Expr} (member : pair ∈ pairs)
    (fails : Fails s hashes pair.1 ∨ Fails s frozen pair.2) :
    Fails s frozen (Group.entriesExpr frozen hashes pairs) := by
  intro o means
  exfalso
  have tuple : Expr.tuple [pair.1, pair.2] ∈ pairs.map fun pair => Expr.tuple [pair.1, pair.2] :=
    List.mem_map_of_mem member
  cases frozen with
  | true =>
    obtain ⟨part, partMeans, hashable⟩ := Group.hashable_of_meaning_frozen freezes means _ tuple
    obtain ⟨key, value, keyMeans, valueMeans, rfl⟩ := Expr.of_meaning_pair partMeans
    have both : key.toValue.hashable ∧ value.toValue.hashable := by
      simpa [Object.toValue, Value.hashable, Value.hashableList] using hashable
    rcases fails with keyFails | valueFails
    · exact (keyFails key keyMeans).2 both.1
    · exact (valueFails value valueMeans).2 both.2
  | false =>
    cases hashes with
    | true =>
      obtain ⟨results, mean, means⟩ := bind_eq_ok.mp means
      obtain ⟨kept, made, -⟩ := bind_eq_ok.mp means
      rw [Expr.entryMeanings_eq_mapM] at mean
      obtain ⟨result, known, meanPair⟩ := exists_of_mapM mean member
      obtain ⟨key, keyMeans, meanPair⟩ := bind_eq_ok.mp meanPair
      obtain ⟨value, valueMeans, meanPair⟩ := bind_eq_ok.mp meanPair
      cases meanPair
      rcases fails with keyFails | valueFails
      · exact (keyFails key keyMeans).2 ((of_dictEntries made).2 _ known)
      · exact absurd (valueFails value valueMeans).1 Bool.false_ne_true
    | false =>
      obtain ⟨items, -, each⟩ := Expr.of_meaning_list means
      obtain ⟨part, partMeans, -⟩ := each _ tuple
      obtain ⟨key, value, keyMeans, valueMeans, -⟩ := Expr.of_meaning_pair partMeans
      rcases fails with keyFails | valueFails
      · exact absurd (keyFails key keyMeans).1 Bool.false_ne_true
      · exact absurd (valueFails value valueMeans).1 Bool.false_ne_true

theorem call {cls : Ref} {kwargs : List (String × Expr)} {arg : String × Expr}
    (member : arg ∈ kwargs) (fails : Fails s false arg.2) :
    Fails s frozen (.call (.ref cls) [] kwargs) := by
  intro o means
  rw [Expr.meaning] at means
  obtain ⟨func, -, means⟩ := bind_eq_ok.mp means
  obtain ⟨args, -, means⟩ := bind_eq_ok.mp means
  obtain ⟨given, mean, -⟩ := bind_eq_ok.mp means
  rw [Expr.keywordMeanings_eq_mapM] at mean
  obtain ⟨_, -, meanArg⟩ := exists_of_mapM mean member
  obtain ⟨part, partMeans, -⟩ := bind_eq_ok.mp meanArg
  exact absurd (fails part partMeans).1 Bool.false_ne_true

end Fails

theorem not_hashable_of_layout {R : FieldType → Bool → Value → Prop} {resolved : Group.Resolved}
    (layout : g.Layout R false v resolved) (container : resolved.container? ≠ none) :
    ¬ v.hashable := by
  cases resolved with
  | list element =>
    obtain ⟨items, rfl, -⟩ := layout
    exact Bool.false_ne_true
  | set element =>
    obtain ⟨hashes, items, -, rfl, -⟩ := layout
    cases hashes <;> exact Bool.false_ne_true
  | map key value =>
    obtain ⟨hashes, entries, -, rfl, -⟩ := layout
    cases hashes <;> exact Bool.false_ne_true
  | _ => exact absurd rfl container

theorem exists_field {r : Record} {entry : Value × Value}
    (apart : (r.fields.map fun f => Name.attributeName f.name).Nodup)
    (data : ∀ f ∈ r.fields, g.ReachesData f.type)
    (named : ∃ name : String, entry.1 = .text name ∧ ∃ f ∈ r.fields, f.name = .text name)
    (each : entry.2 ≠ .null → ∀ f ∈ r.fields, f.name = entry.1 →
      ∃ e, g.literalExpr entry.2 (some f.type) false = .ok e ∧
        ∀ c, g.Cites f.type false entry.2 true c → ¬ g.IsFlat c.type → Fails s false e) :
    ∃ e, g.literalExpr entry.2 (Group.fieldType? r.fields entry.1) false = .ok e ∧
      ∀ c type, Group.fieldType? r.fields entry.1 = some type → g.Cites type false entry.2 true c →
        ¬ g.IsFlat c.type → Fails s false e := by
  obtain ⟨name, key, f, known, fName⟩ := named
  have found := fieldType?_of_field apart known ⟨name, key, f, known, fName⟩ (fName.trans key.symm)
  rw [found]
  by_cases null : entry.2 = .null
  · obtain ⟨resolved, resolves⟩ := (data f known).dataType.resolves
    rw [null]
    refine ⟨.literal .null, ?_, fun c type _ cited => ?_⟩
    · rw [Group.literalExpr, resolveType?_some resolves]
      · rfl
      all_goals simp
    · obtain ⟨part, position, -⟩ := cited.exists_position (by rintro name ⟨⟩)
      rw [Group.positions_leaf rfl rfl rfl] at position
      cases position
  · obtain ⟨e, made, fails⟩ := each null f known (fName.trans key.symm)
    refine ⟨e, made, fun c type same => ?_⟩
    cases same
    exact fails c

/-- A literal is written whatever it cites, and fails if it cites a container at a frozen
    position. -/
theorem WellCited.written (finds : s.FindsClasses g) (attributes : g.AttributesApart)
    (holds : s.HoldsConstants g) (data : g.ReachesData type) (typed : WellCited g type v)
    (frozen : Bool) :
    ∃ e, g.literalExpr v (some type) frozen = .ok e ∧
      ∀ c, g.Cites type frozen v true c → ¬ g.IsFlat c.type → Fails s frozen e := by
  induction typed generalizing frozen with
  | @scalar type p v resolves stands =>
    obtain ⟨w, is⟩ := Option.isSome_iff_exists.mp stands
    refine ⟨.literal w, literalExpr_scalar resolves is, fun c cited => ?_⟩
    obtain ⟨part, position, -⟩ := cited.exists_position (by rintro name rfl; cases stands)
    simp [Group.positions, resolves] at position
  | @enum type e n resolves member =>
    obtain ⟨hint, hinted⟩ := finds.hint_exists data frozen
    have evaluated : Evaluates g s true type frozen hint (.int n) :=
      evaluates_enum hinted finds resolves member
    obtain ⟨e, w, made, -⟩ := evaluated
    refine ⟨e, made, fun c cited => ?_⟩
    obtain ⟨part, position, -⟩ := cited.exists_position (by rintro name ⟨⟩)
    simp [Group.positions, resolves] at position
  | @list type element v items resolves written each ih =>
    choose! e made fails using fun item member =>
      ih item member (data.held resolves (List.mem_singleton_self _)) frozen
    have madeAll : g.literalItems (some element) frozen items = .ok (items.map e) := by
      rw [literalItems_eq_mapM]
      exact mapM_eq_map made
    refine ⟨_, literalExpr_list resolves written madeAll, fun c cited container => ?_⟩
    obtain ⟨part, position, inside⟩ := cited.exists_position (by rintro name rfl; cases written)
    rw [Group.positions_list resolves written] at position
    obtain ⟨item, member, rfl⟩ := List.mem_map.mp position
    exact .sequence (List.mem_map_of_mem member) (fails item member c inside container)
  | @set type element v items resolves written each ih =>
    have dataElement := data.held resolves (List.mem_singleton_self _)
    obtain ⟨answer, answered⟩ := dataElement.isHashable_answers
    choose! e made fails using fun item member => ih item member dataElement (frozen || answer)
    have madeAll : g.literalItems (some element) (frozen || answer) items = .ok (items.map e) := by
      rw [literalItems_eq_mapM]
      exact mapM_eq_map made
    obtain ⟨order, sorted, whole⟩ := literalExpr_set resolves answered written madeAll
    refine ⟨_, whole, fun c cited container => ?_⟩
    obtain ⟨part, position, inside⟩ := cited.exists_position (by rintro name rfl; cases written)
    rw [Group.positions_set resolves answered written] at position
    obtain ⟨item, member, rfl⟩ := List.mem_map.mp position
    exact .collection finds.frozenset (sorted.mem_iff.mp (List.mem_map_of_mem member))
      (fails item member c inside container)
  | @map type key value entries resolves keys values keysIh valuesIh =>
    obtain ⟨dataKey, dataValue⟩ := data.entries resolves
    obtain ⟨answer, answered⟩ := dataKey.isHashable_answers
    choose! k keyMade keyFails using fun entry member => keysIh entry member dataKey answer
    choose! w valueMade valueFails using fun entry member => valuesIh entry member dataValue frozen
    have madeAll : g.literalEntries (some key) (some value) answer frozen entries =
        .ok (entries.map fun entry => (k entry, w entry)) := by
      rw [literalEntries_eq_mapM]
      refine mapM_eq_map fun entry member => ?_
      rw [keyMade entry member, valueMade entry member]
      rfl
    refine ⟨_, literalExpr_map resolves answered madeAll, fun c cited container => ?_⟩
    obtain ⟨part, position, inside⟩ := cited.exists_position (by rintro name ⟨⟩)
    rw [Group.positions_map resolves answered] at position
    obtain ⟨entry, member, which⟩ := List.mem_flatMap.mp position
    refine .entries finds.frozenset (List.mem_map_of_mem member) ?_
    rcases List.mem_pair.mp which with rfl | rfl
    · exact .inl (keyFails entry member c inside container)
    · exact .inr (valueFails entry member c inside container)
  | @record type r entries resolves apart names each ih =>
    have declared : r ∈ g.records := Group.declared_of_resolveType resolves
    obtain ⟨cls, t, named, -⟩ := finds.record r declared
    choose! e made fails using fun entry member =>
      exists_field (attributes r declared) (fun f known => data.field resolves known)
        (names entry member) fun present f known fName =>
          ih entry member present f known fName (data.field resolves known) false
    have madeAll : g.literalFields r.fields entries =
        .ok (entries.map fun entry => (Name.attributeName entry.1, e entry)) := by
      rw [literalFields_eq_mapM]
      refine mapM_eq_map fun entry member => ?_
      rw [made entry member]
      rfl
    refine ⟨_, literalExpr_record resolves madeAll named, fun c cited container => ?_⟩
    obtain ⟨part, position, inside⟩ := cited.exists_position (by rintro name ⟨⟩)
    rw [Group.positions_record resolves] at position
    obtain ⟨entry, member, which⟩ := List.mem_flatMap.mp position
    obtain ⟨fieldType, found, rfl⟩ := List.mem_map.mp which
    exact .call (List.mem_map_of_mem member)
      (fails entry member c fieldType (Option.mem_toList.mp found) inside container)
  | @constant type name c resolved _ cites position declared value ih =>
    obtain ⟨r, named, found⟩ := holds name c cites
    have dataConstant := data.of_resolved position declared
    obtain ⟨e, made, fails⟩ := ih dataConstant false
    refine ⟨.ref r, literalExpr_ref cites named, fun d cited container o means => ?_⟩
    have held : e.meaning s = .ok o := (found e made o).mp means
    by_cases flat : g.FrozenCitesFlat c.type false c.value
    · cases cited with
      | here cites' =>
        cases cites.symm.trans cites'
        obtain ⟨hint, hinted⟩ := finds.hint_exists dataConstant false
        obtain ⟨e', w, made', means', represents, -⟩ := WellCited.evaluates finds attributes
          dataConstant (fun impossible => by cases impossible) hinted holds value flat
        cases made.symm.trans made'
        cases held.symm.trans means'
        obtain ⟨resolved', resolves, layout⟩ :=
          finds.laidOut c.type false w ⟨dataConstant, _, hint, hinted, represents⟩
        cases declared.symm.trans resolves
        exact ⟨rfl, not_hashable_of_layout layout fun leaf => container ⟨resolved, declared, leaf⟩⟩
      | through cites' inside =>
        cases cites.symm.trans cites'
        exact absurd (flat d inside) container
      | within part position inside =>
        rw [Group.positions_leaf rfl rfl rfl] at position
        cases position
    · obtain ⟨other, inside, otherContainer⟩ : ∃ other, g.Cites c.type false c.value true other ∧
          ¬ g.IsFlat other.type := by
        simpa [Group.FrozenCitesFlat] using flat
      exact absurd (fails other inside otherContainer o held).1 Bool.false_ne_true

end

/-- Where references find the classes and constants of a group, a literal that cites constants of
    the types of their positions evaluates exactly if those cited at frozen positions are of flat
    types. The value is in the representation of its annotation and has the content of the literal
    and the constants. -/
theorem cited_literal_evaluates_iff {g : Group} (attributes : g.AttributesApart)
    {s : Surroundings} (finds : s.FindsClasses g) (holds : s.HoldsConstants g) {type : FieldType}
    {v : Value} (data : g.ReachesData type) (typed : WellCited g type v) :
    ∃ hint e, (g.hint type false).outcome = .ok hint ∧
      g.literalExpr v (some type) false = .ok e ∧
      (g.FrozenCitesFlat type false v → ∃ w, e.meaning s = .ok (.value w) ∧
        (∀ h scope home m, Expr.Agree s (m.around scope home) e.nodes →
          ShowsBuiltins (m.around scope home) →
            (eval h scope (e.term home)).run m = (.ok (.value w), m)) ∧
        Represents g s hint w ∧ w.KeysHashed ∧ DenotesCited g type v w) ∧
      (¬ g.FrozenCitesFlat type false v → ∀ o, e.meaning s ≠ .ok o) := by
  obtain ⟨hint, hinted⟩ := finds.hint_exists data false
  obtain ⟨e, written, fails⟩ := typed.written finds attributes holds data false
  refine ⟨hint, e, hinted, written, fun flat => ?_, fun blocked o means => ?_⟩
  · obtain ⟨e', w, written', means, represents, denotes⟩ :=
      typed.evaluates finds attributes data (fun impossible => by cases impossible) hinted holds flat
    cases written.symm.trans written'
    refine ⟨w, means, ?_, represents, ?_, denotes⟩
    · exact fun h scope home m agree shows => returns_of_meaning means agree shows
    · exact finds.laidOut.keysHashed ⟨data, _, hint, hinted, represents⟩
  · obtain ⟨c, cited, container⟩ : ∃ c, g.Cites type false v true c ∧ ¬ g.IsFlat c.type := by
      simpa [Group.FrozenCitesFlat] using blocked
    exact absurd (fails c cited container o means).1 Bool.false_ne_true

/-! ### A shelf of names -/

def firstConstant : Constant where
  name := "stock.FIRST"
  type := .primitive .string
  value := .text "x"

def namesConstant : Constant where
  name := "stock.NAMES"
  type := .set (.primitive .string)
  value := .list [.ref "stock.FIRST", .text "y"]

def stockSchema : Schema where
  module := .text "stock"
  constants := [("FIRST", firstConstant), ("NAMES", namesConstant)]

def stockGroup : Group := { schemas := [(.text "stock", stockSchema)] }

def shelfType : FieldType := .map (.primitive .string) (.set (.primitive .string))

def shelfLiteral : Value :=
  .dict [(.text "all", .ref "stock.NAMES"), (.text "one", .list [.ref "stock.FIRST"])]

theorem stock_resolves :
    stockGroup.resolveValue "stock.FIRST" = .ok (.constant firstConstant) ∧
      stockGroup.resolveValue "stock.NAMES" = .ok (.constant namesConstant) := by
  constructor <;> with_unfolding_all rfl

theorem shelf_wellCited : WellCited stockGroup shelfType shelfLiteral := by
  obtain ⟨first, names⟩ := stock_resolves
  have cited : WellCited stockGroup (.primitive .string) (.ref "stock.FIRST") :=
    .constant rfl first rfl rfl (.scalar rfl rfl)
  refine .map rfl ?_ ?_
  · simp only [List.forall_mem_cons]
    exact ⟨.scalar rfl rfl, .scalar rfl rfl, by simp⟩
  · simp only [List.forall_mem_cons]
    refine ⟨.constant rfl names rfl rfl (.set rfl rfl ?_), .set rfl rfl ?_, by simp⟩
    · simp only [List.forall_mem_cons]
      exact ⟨cited, .scalar rfl rfl, by simp⟩
    · exact List.forall_mem_singleton.mpr cited

theorem shelf_frozenCitesFlat : stockGroup.FrozenCitesFlat shelfType false shelfLiteral := by
  obtain ⟨first, names⟩ := stock_resolves
  have answered : stockGroup.isHashable (.primitive .string) true = .ok true := rfl
  have text {frozen : Bool} {t : String} :
      stockGroup.FrozenCitesFlat (.primitive .string) frozen (.text t) :=
    .of_positions (by rintro name ⟨⟩)
      (by rw [Group.positions_leaf rfl rfl rfl]; exact List.forall_mem_nil _)
  have element : stockGroup.FrozenCitesFlat (.primitive .string) true (.ref "stock.FIRST") :=
    .of_constant first (fun _ => ⟨.primitive .string, rfl, rfl⟩) text
  have listed : stockGroup.FrozenCitesFlat namesConstant.type false namesConstant.value := by
    refine .of_positions (by rintro name ⟨⟩) ?_
    rw [namesConstant, Group.positions_set rfl answered rfl]
    exact List.forall_mem_cons.mpr ⟨element, List.forall_mem_singleton.mpr text⟩
  refine .of_positions (by rintro name ⟨⟩) ?_
  rw [shelfType, shelfLiteral, Group.positions_map rfl answered]
  simp only [List.flatMap_cons, List.flatMap_nil, List.cons_append, List.nil_append,
    List.forall_mem_cons]
  refine ⟨text, .of_constant names (fun frozen => by cases frozen) listed, text, ?_, by simp⟩
  refine .of_positions (by rintro name ⟨⟩) ?_
  rw [Group.positions_set rfl answered rfl]
  exact List.forall_mem_singleton.mpr element

def showsText (t : String) : Except Fault Object → Bool
  | .ok (.value (.text found)) => found == t
  | _ => false

def showsTexts (first second : String) : Except Fault Object → Bool
  | .ok (.value (.set [.text a, .text b])) => a == first && b == second
  | _ => false

theorem holds_stock {s : Surroundings}
    (shownText : showsText "x" (s.ref { module := "stock", attr := "FIRST" }))
    (shownTexts : showsTexts "x" "y" (s.ref { module := "stock", attr := "NAMES" })) :
    s.HoldsConstants stockGroup := by
  have first : s.ref { module := "stock", attr := "FIRST" } = .ok (.value (.text "x")) := by
    unfold showsText at shownText
    split at shownText
    · rename_i found same
      rw [same, eq_of_beq shownText]
    · cases shownText
  have names : s.ref { module := "stock", attr := "NAMES" } =
      .ok (.value (.set [.text "x", .text "y"])) := by
    unfold showsTexts at shownTexts
    split at shownTexts
    · rename_i a b same
      obtain ⟨isFirst, isSecond⟩ := Bool.and_eq_true_iff.mp shownTexts
      rw [same, eq_of_beq isFirst, eq_of_beq isSecond]
    · cases shownTexts
  intro name c resolves
  have declared := (Group.declared_of_resolveValue resolves).1 c rfl
  have which : c = firstConstant ∨ c = namesConstant := by
    simpa [Group.constants, stockGroup, stockSchema, Table.values] using declared
  have named : stockGroup.constantRef firstConstant = .ok { module := "stock", attr := "FIRST" } :=
    toOption_eq_some.mp (by decide +kernel)
  rcases which with rfl | rfl
  · refine ⟨{ module := "stock", attr := "FIRST" }, named, fun e made o => ?_⟩
    have written : stockGroup.literalExpr firstConstant.value (some firstConstant.type) false =
        .ok (.literal (.text "x")) := rfl
    cases written.symm.trans made
    rw [first]
    rfl
  · refine ⟨{ module := "stock", attr := "NAMES" }, toOption_eq_some.mp (by decide +kernel),
      fun e made o => ?_⟩
    have written : stockGroup.literalExpr namesConstant.value (some namesConstant.type) false =
        .ok (.set [.ref { module := "stock", attr := "FIRST" }, .literal (.text "y")]) := by
      have items : stockGroup.literalItems (some (.primitive .string)) true
          [.ref "stock.FIRST", .text "y"] =
            .ok [.ref { module := "stock", attr := "FIRST" }, .literal (.text "y")] := by
        rw [literalItems_eq_mapM]
        exact mapM_eq_ok.mpr (.cons (literalExpr_ref stock_resolves.1 named) (.cons rfl .nil))
      have answered : stockGroup.isHashable (.primitive .string) true = .ok true := rfl
      rw [namesConstant, Group.literalExpr, resolveType?_some rfl]
      simp only [bind, Except.bind, Group.shapeOf, answered, pure, Except.pure, Bool.or_true, items]
      rfl
    cases written.symm.trans made
    rw [names]
    have mean : Expr.meanings s [.ref { module := "stock", attr := "FIRST" }, .literal (.text "y")] =
        .ok (List.map .value [.text "x", .text "y"]) := by
      simp [Expr.meanings, Expr.meaning, first, bind, Except.bind, pure, Except.pure]
    have hashed : ∀ w ∈ [Value.text "x", .text "y"], w.Hashed := by simp [Value.Hashed.text]
    have apart : Value.distinct [.text "x", .text "y"] = [.text "x", .text "y"] := by
      simp [Value.distinct, Value.equal]
    rw [meaning_set mean hashed, apart]

def showsStock (p : Program) : Bool :=
  (p.importPath "stock").ends {} fun id m =>
    let s := m.around { home := id } "stock"
    s.showsClasses stockGroup && s.showsBuiltins &&
      showsText "x" (s.ref { module := "stock", attr := "FIRST" }) &&
      showsTexts "x" "y" (s.ref { module := "stock", attr := "NAMES" })

def shelfNodes : List FieldType := [shelfType, .primitive .string, .set (.primitive .string)]

/-- The shelf evaluates in the running module of its constants. -/
theorem shelf_evaluates :
    ∃ streams, Stream.resolved stockGroup = .ok streams ∧
      ∃ id m, ((Program.ofStreams streams).importPath "stock").run {} = (.ok id, m) ∧
      ∃ hint e w, (stockGroup.hint shelfType false).outcome = .ok hint ∧
        stockGroup.literalExpr shelfLiteral (some shelfType) false = .ok e ∧
        (∀ h, (eval h { home := id } (e.term "stock")).run m = (.ok (.value w), m)) ∧
        Represents stockGroup (m.around { home := id } "stock") hint w ∧ w.KeysHashed ∧
        DenotesCited stockGroup shelfType shelfLiteral w := by
  have shown : (Stream.resolved stockGroup).toOption.any fun streams =>
      showsStock (Program.ofStreams streams) := by
    decide +kernel
  have closed : ∀ node ∈ shelfNodes, stockGroup.isDataWithin 3 node ∧
      ∀ part ∈ stockGroup.reached node, part ∈ shelfNodes := by
    decide +kernel
  have attributes : stockGroup.AttributesApart := fun r none => by cases none
  obtain ⟨streams, resolved, shown⟩ := exists_of_any_toOption shown
  obtain ⟨id, m, imported, shown⟩ := Running.exists_of_ends shown
  simp only [Bool.and_eq_true] at shown
  obtain ⟨⟨⟨classes, builtins⟩, text⟩, texts⟩ := shown
  obtain ⟨hint, e, hinted, written, evaluates, -⟩ :=
    cited_literal_evaluates_iff attributes (Surroundings.findsClasses_of_shows classes)
      (holds_stock text texts) (Group.reachesData_of_closed closed (List.mem_cons_self ..))
      shelf_wellCited
  obtain ⟨w, -, runs, represents, keys, denotes⟩ := evaluates shelf_frozenCitesFlat
  exact ⟨streams, resolved, id, m, imported, hint, e, w, hinted, written,
    fun h => runs h _ _ m ⟨fun _ _ => rfl, fun _ _ => rfl⟩ (Surroundings.builtins_of_shows builtins),
    represents, keys, denotes⟩

def pairConstant : Constant where
  name := "crate.PAIR"
  type := .list (.primitive .i32)
  value := .list [.int 1, .int 2]

def pairsConstant : Constant where
  name := "crate.PAIRS"
  type := .set (.list (.primitive .i32))
  value := .list [.ref "crate.PAIR"]

def crateSchema : Schema where
  module := .text "crate"
  constants := [("PAIR", pairConstant), ("PAIRS", pairsConstant)]

def crateGroup : Group := { schemas := [(.text "crate", crateSchema)] }

/-- The group is accepted, and the cited list has the type of the elements of the set. But the list
    is no tuple where the set asks for one, so the module of the constants does not run. -/
theorem listed_pair_fails :
    ((Session.generate crateGroup ["a", "b"] false).run { working := "/" }).1.toOption.isSome ∧
    crateGroup.AttributesApart ∧ crateGroup.ReachesData pairsConstant.type ∧
    WellCited crateGroup pairsConstant.type pairsConstant.value ∧
    ∃ streams, Stream.resolved crateGroup = .ok streams ∧
      ∃ fault, (((Program.ofStreams streams).annotatedValues "Crate").run {}).1 = .error fault := by
  obtain ⟨accepted, fails⟩ : ((Session.generate crateGroup ["a", "b"] false).run
        { working := "/" }).1.toOption.isSome ∧
      (Stream.resolved crateGroup).toOption.any fun streams =>
        (((Program.ofStreams streams).annotatedValues "Crate").run {}).1.toOption.isNone := by
    decide +kernel
  have nodes : ∀ node ∈ [pairsConstant.type, .list (.primitive .i32), .primitive .i32],
      crateGroup.isDataWithin 3 node ∧ ∀ part ∈ crateGroup.reached node,
        part ∈ [pairsConstant.type, .list (.primitive .i32), .primitive .i32] := by
    decide +kernel
  have cites : crateGroup.resolveValue "crate.PAIR" = .ok (.constant pairConstant) := by
    with_unfolding_all rfl
  have listed : WellCited crateGroup pairConstant.type pairConstant.value := by
    refine .list rfl rfl ?_
    simp only [List.forall_mem_cons]
    exact ⟨.scalar rfl rfl, .scalar rfl rfl, by simp⟩
  have typed : WellCited crateGroup pairsConstant.type pairsConstant.value :=
    .set rfl rfl (List.forall_mem_singleton.mpr (.constant rfl cites rfl rfl listed))
  obtain ⟨streams, resolved, failed⟩ := exists_of_any_toOption fails
  have attributes : crateGroup.AttributesApart := fun r none => by cases none
  exact ⟨accepted, attributes, Group.reachesData_of_closed nodes (List.mem_cons_self ..), typed,
    streams, resolved, isNone_toOption.mp failed⟩

end IdlGen
