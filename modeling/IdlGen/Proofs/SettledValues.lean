import IdlGen.Proofs.UnionMembers

/-!
Values that have their defaults already: applying declared defaults gives the same value, with the
same containers at every depth (`apply_defaults_settled`).
-/
namespace IdlGen

open Run Outcome

variable {items : List Value} {u v : Value}

namespace Value

theorem length_foldl_keep_le (kept items : List Value) :
    (items.foldl keep kept).length ≤ kept.length + items.length := by
  induction items generalizing kept with
  | nil => simp
  | cons v rest ih =>
    have first : (keep kept v).length ≤ kept.length + 1 := by
      unfold keep
      split <;> simp
    have later := ih (keep kept v)
    simp only [List.foldl_cons, List.length_cons]
    omega

theorem apart_of_foldl_keep {kept : List Value} (apart : Apart kept)
    (size : (items.foldl keep kept).length = kept.length + items.length) :
    Apart (kept ++ items) := by
  induction items generalizing kept with
  | nil => simpa using apart
  | cons v rest ih =>
    by_cases known : kept.any fun k => equal k v
    · -- An item that is not kept leaves too few.
      have few := length_foldl_keep_le kept rest
      simp only [List.foldl_cons, keep, known, if_true, List.length_cons] at size
      omega
    · have unequal : ∀ k ∈ kept, equal k v = false := by simpa using known
      rw [List.foldl_cons, keep_of_new unequal] at size
      have apart := ih (keep_of_new unequal ▸ apart_keep apart v) (by simp at size ⊢; omega)
      simpa using apart

theorem apart_of_length_distinct (size : (distinct items).length = items.length) : Apart items := by
  have whole : Apart ([] ++ items) :=
    apart_of_foldl_keep List.Pairwise.nil (size.trans (Nat.zero_add _).symm)
  exact whole

/-- Sets have hashable elements and dictionaries hashable keys, no two of them equal, at every
    depth. -/
def Proper (v : Value) : Prop :=
  ∀ u : Value, u.Within v → (∀ k ∈ u.elements, k.hashable) ∧ Apart u.elements

theorem Proper.part (proper : v.Proper) (member : u ∈ v.parts) : u.Proper :=
  fun w within => proper w (.part member within)

end Value

/-- Whether an instance has no absent field that declares a default, and has a member if it is of
    a union that declares one. -/
def Record.isComplete (r : Record) (fields : List (String × Value)) : Bool :=
  if r.kind = .union then
    r.firstDeclared?.isNone || fields.any fun field => !field.2.isNull
  else (r.fields.zip fields).all fun pair => !(pair.1.declares && pair.2.2.isAbsent)

/-- Every instance of a record in a value, at any depth, is complete. -/
def Group.Complete (g : Group) (v : Value) : Prop :=
  ∀ cls fields, (Value.record cls fields).Within v → ∀ r, g.recordOf? cls.name = some r →
    r.isComplete fields

def Group.Filled (g : Group) (default : Field → Value) (v : Value) : Prop :=
  ∀ cls fields, (Value.record cls fields).Within v → ∀ r, g.recordOf? cls.name = some r →
    r.filled default fields = fields

section
variable {g : Group} {default : Field → Value}

theorem Record.filled_of_isComplete {r : Record} {fields : List (String × Value)}
    (size : r.fields.length = fields.length) (complete : r.isComplete fields) :
    r.filled default fields = fields := by
  by_cases isUnion : r.kind = .union
  · simp only [isComplete, isUnion, if_true, Bool.or_eq_true] at complete
    cases first : r.firstDeclared? with
    | none => simp [filled, isUnion, first]
    | some f =>
      have held : (fields.any fun field => !field.2.isNull) = true := by
        simpa [first] using complete
      have notEmpty : (fields.all fun field => field.2.isNull) = false := by
        rw [List.any_eq_not_all_not] at held
        simpa using held
      simp [filled, isUnion, first, notEmpty]
  · simp only [isComplete, isUnion, if_false, List.all_eq_true] at complete
    have kept : ∀ pair ∈ r.fields.zip fields,
        (pair.2.1, pair.1.filled default pair.2.2) = pair.2 := by
      intro pair member
      have present := complete pair member
      rw [Bool.not_eq_true'] at present
      simp [Field.filled, present]
    simp only [filled, isUnion, if_false]
    rw [List.map_congr_left kept]
    exact List.map_snd_zip (Nat.le_of_eq size.symm)

theorem Group.Complete.filled (complete : g.Complete v) (built : v.Built g.Instance) :
    g.Filled default v := by
  intro cls fields within r known
  have form : (Value.record cls fields).Built g.Instance := built.within within
  obtain ⟨-, other, same, names⟩ := form.form
  cases known.symm.trans same
  have size : r.fields.length = fields.length := by
    simpa using (congrArg List.length names).symm
  exact Record.filled_of_isComplete size (complete cls fields within r known)

namespace Group

theorem Filled.part (filled : g.Filled default v) (member : u ∈ v.parts) : g.Filled default u :=
  fun cls fields within => filled cls fields (.part member within)

/-- Images of items that are the items again once equal ones are merged are so without it. -/
theorem eq_of_distinct_map {f : Value → Value} (same : items = Value.distinct (items.map f)) :
    items.map f = items := by
  have apart : Value.Apart (items.map f) := Value.apart_of_length_distinct (by simp [← same])
  rw [Value.distinct_of_apart apart] at same
  exact same.symm

theorem eq_of_distinctEntries_map {f : Value × Value → Value × Value}
    {entries : List (Value × Value)} (same : entries = Value.distinctEntries (entries.map f)) :
    entries.map f = entries := by
  have keys := congrArg (List.map (·.1)) same
  rw [Value.keys_distinctEntries] at keys
  have apart : Value.Apart ((entries.map f).map (·.1)) :=
    Value.apart_of_length_distinct (by rw [← keys]; simp)
  rw [Value.distinctEntries_of_apart apart] at same
  exact same.symm

theorem rebuilt_id (proper : v.Proper) (filled : g.Filled default v) :
    g.rebuilt default id v = .ok v := by
  obtain ⟨hashable, apart⟩ := proper v (.self v)
  cases v with
  | list items | tuple items => simp [rebuilt]
  | set items | frozenset items =>
    have kept : setItems items = .ok items :=
      (setItems_eq_ok hashable).trans (congrArg _ (Value.distinct_of_apart apart))
    rw [rebuilt, List.map_id, kept]
    rfl
  | dict entries =>
    have keys : ∀ entry ∈ entries, entry.1.hashable := List.forall_mem_map.mp hashable
    have same : (entries.map fun entry => (id entry.1, id entry.2)) = entries := List.map_id entries
    rw [rebuilt, same, dictEntries_eq_ok keys, Value.distinctEntries_of_apart apart]
    rfl
  | record cls fields =>
    have same : (fields.map fun field => (field.1, id field.2)) = fields := List.map_id fields
    rw [rebuilt, same]
    cases known : g.recordOf? cls.name with
    | none => rfl
    | some r => rw [Option.elim, filled cls fields (.self _) r known]
  | _ => rfl

theorem defaulted_of_filled (proper : v.Proper) (filled : g.Filled default v) :
    g.defaulted default v = .ok v := by
  induction v using Value.induction_on_size with
  | step v ih =>
    have each : ∀ u ∈ v.parts, g.defaulted default u = .ok (id u) := fun u member =>
      ih u (Value.sizeOf_part member) (proper.part member) (filled.part member)
    rw [defaulted_of_parts each, rebuilt_id proper filled]

theorem map_eq_self {α : Type} {f : α → α} {items : List α} (same : items.map f = items) :
    ∀ a ∈ items, f a = a :=
  List.map_inj_left.mp (same.trans (List.map_id items).symm)

theorem defaulted_part_self (done : g.defaulted default v = .ok v) (member : u ∈ v.parts) :
    g.defaulted default u = .ok u := by
  suffices same : g.image default u = u by rw [defaulted_part done member, same]
  have rebuilt := rebuilt_of_defaulted done
  cases v with
  | list items =>
    injection rebuilt with same
    exact map_eq_self (Value.list.inj same) u member
  | tuple items =>
    injection rebuilt with same
    exact map_eq_self (Value.tuple.inj same) u member
  | set items | frozenset items =>
    obtain ⟨kept, collected, same⟩ := map_eq_ok.mp rebuilt
    cases same
    obtain ⟨same, -⟩ := of_setItems collected
    exact map_eq_self (eq_of_distinct_map same) u member
  | dict entries =>
    obtain ⟨kept, collected, same⟩ := map_eq_ok.mp rebuilt
    cases same
    obtain ⟨same, -⟩ := of_dictEntries collected
    have entriesSame := map_eq_self (eq_of_distinctEntries_map same)
    rcases List.mem_append.mp member with inKeys | inValues
    · obtain ⟨entry, known, rfl⟩ := List.mem_map.mp inKeys
      exact congrArg Prod.fst (entriesSame entry known)
    · obtain ⟨entry, known, rfl⟩ := List.mem_map.mp inValues
      exact congrArg Prod.snd (entriesSame entry known)
  | record cls fields =>
    obtain ⟨field, inFields, rfl⟩ := List.mem_map.mp member
    cases known : g.recordOf? cls.name with
    | none =>
      rw [Group.rebuilt, known] at rebuilt
      injection rebuilt with same
      exact congrArg Prod.snd (map_eq_self (Value.record.inj same).2 field inFields)
    | some r =>
      rw [defaulted_record known] at done
      obtain ⟨inner, mapped, made⟩ := bind_eq_ok.mp done
      injection made with made
      injection made with _ same
      exact image_eq (settled_of_filled mapped same field inFields)
  | _ => cases member

/-- A value stays as it is exactly if setting defaults changes no fields of instances in it. -/
theorem defaulted_eq_self_iff (proper : v.Proper) :
    g.defaulted default v = .ok v ↔ g.Filled default v := by
  refine ⟨fun done cls fields within r known => ?_, defaulted_of_filled proper⟩
  have here : g.defaulted default (.record cls fields) = .ok (.record cls fields) := by
    clear known proper
    induction within with
    | self => exact done
    | part member _ ih => exact ih (defaulted_part_self done member)
  have each : ∀ u ∈ (Value.record cls fields).parts, g.defaulted default u = .ok (id u) :=
    fun u member => defaulted_part_self here member
  have same : (fields.map fun field => (field.1, id field.2)) = fields := List.map_id fields
  rw [defaulted_of_parts each, rebuilt, same, known] at here
  injection here with here
  exact (Value.record.inj here).2

end Group

end

/-- In the program of an accepted group with declared defaults of their types, a value with nothing
    left to default is returned as it is, down to its containers, and in general exactly if setting
    defaults would change no fields of the instances in it. -/
theorem apply_defaults_settled {g : Group} {directories : List String} {format : Bool}
    {world : World} {written : List String}
    (accepted : ((Session.generate g directories format).run world).1 = .ok written)
    (attributes : g.AttributesApart) :
    ∃ streams, Stream.resolved g = .ok streams ∧
      ∀ s m, (Program.ofStreams streams).Serves g s m → s.DefaultsSuit g →
        ∀ c v, v.Built g.Instance → v.Proper → ∃ outcome after,
          ((Program.ofStreams streams).applyDefaults c v).run m = (outcome, after) ∧
          (g.Complete v → outcome = .ok v) ∧
          (outcome = .ok v ↔ g.Filled (g.evaluatedDefault s) v) := by
  obtain ⟨streams, raw, accepted, program⟩ := isProgram_of_generate accepted
  refine ⟨streams, accepted.resolved, fun s m serves suit c v built proper => ?_⟩
  have evaluate := suit.defaultsEvaluate program attributes serves.classes
  obtain ⟨after, ran, -⟩ := Program.run_applyDefaults (Program.holdsCompanions program) attributes
    evaluate.exists_default evaluate.built_default serves c built
  refine ⟨_, after, ran, fun complete => ?_, Group.defaulted_eq_self_iff proper⟩
  exact Group.defaulted_of_filled proper (complete.filled built)

namespace Value

def passesWithin (test : Value → Bool) : Nat → Value → Bool
  | 0, _ => false
  | fuel + 1, v => test v && v.parts.all (passesWithin test fuel)

theorem passes_of_within {test : Value → Bool} (fuel : Nat) (passes : v.passesWithin test fuel)
    (within : u.Within v) : test u := by
  induction within generalizing fuel with
  | self =>
    cases fuel with
    | zero => cases passes
    | succ fuel => exact (Bool.and_eq_true_iff.mp passes).1
  | part member _ ih =>
    cases fuel with
    | zero => cases passes
    | succ fuel =>
      obtain ⟨-, parts⟩ := Bool.and_eq_true_iff.mp passes
      exact ih fuel (List.all_eq_true.mp parts _ member)

instance (items : List Value) : Decidable (Apart items) :=
  inferInstanceAs (Decidable (items.Pairwise fun k l => equal k l = false))

def hasProperElements (v : Value) : Bool := v.elements.all hashable && decide (Apart v.elements)

theorem proper_of_passes (fuel : Nat) (passes : v.passesWithin hasProperElements fuel) :
    v.Proper := by
  intro u within
  have here := passes_of_within fuel passes within
  obtain ⟨hashable, apart⟩ := Bool.and_eq_true_iff.mp here
  exact ⟨List.all_eq_true.mp hashable, of_decide_eq_true apart⟩

def isCompleteIn (g : Group) : Value → Bool
  | .record cls fields => (g.recordOf? cls.name).all fun r => r.isComplete fields
  | _ => true

theorem complete_of_passes {g : Group} (fuel : Nat)
    (passes : v.passesWithin (isCompleteIn g) fuel) : g.Complete v := by
  intro cls fields within r known
  have here := passes_of_within fuel passes within
  simpa [isCompleteIn, known] using here

end Value

def home (level : Value) : Value :=
  .record { name := "Home" } [("city", .null), ("level", level), ("safe", .bool true)]

def settledOrder : Value :=
  .record { name := "Order" } [
    ("home", home (.int 1)), ("lines", .list [line (.text "")]), ("spare", home (.int 0))]

def settledOrders : Value :=
  .list [
    .dict [
      (home (.int 1), .tuple [settledOrder, .bool false]),
      (home (.int 0), .list [])],
    .frozenset [home (.int 2), .tuple []]]

theorem settledOrders_stay :
    ∃ streams, Stream.resolved shippingGroup = .ok streams ∧
      ∃ m, (Program.ofStreams streams).Serves shippingGroup m.linked m ∧
        m.linked.DefaultsSuit shippingGroup ∧ settledOrders.Built shippingGroup.Instance ∧
        settledOrders.Proper ∧ shippingGroup.Complete settledOrders ∧
        ∀ c, ∃ after, ((Program.ofStreams streams).applyDefaults c settledOrders).run m =
          (.ok settledOrders, after) := by
  have built : settledOrders.Built shippingGroup.Instance :=
    Value.built_of_isBuiltWithin 8 (by decide +kernel)
  have proper : settledOrders.Proper := Value.proper_of_passes 8 (by decide +kernel)
  have complete : shippingGroup.Complete settledOrders :=
    Value.complete_of_passes 8 (by decide +kernel)
  obtain ⟨written, accepted⟩ := shipping_accepted
  obtain ⟨streams, resolved, settled⟩ := apply_defaults_settled accepted shipping_attributesApart
  obtain ⟨m, offers⟩ := shipping_offers resolved
  have suit := shipping_defaultsSuit m.linked
  refine ⟨streams, resolved, m, offers.toServes, suit, built, proper, complete, fun c => ?_⟩
  obtain ⟨outcome, after, ran, stays, -⟩ := settled _ m offers.toServes suit c _ built proper
  rw [stays complete] at ran
  exact ⟨after, ran⟩

/-- The group is accepted and its default is of its type. But a link with a target, which needs no
    default, is not returned, since the companion evaluates the default all the same and does
    not find the enum. -/
theorem hidden_module_fails_settled :
    ((Session.generate linkGroup ["", ""] false).run { working := "/" }).1.toOption.isSome ∧
    linkGroup.AttributesApart ∧
    (∀ r ∈ linkGroup.records, ∀ f ∈ r.fields, f.declares → WellTyped linkGroup f.type f.default) ∧
    (link (.member "Context" "HOME" 1)).Built linkGroup.Instance ∧
    (link (.member "Context" "HOME" 1)).Proper ∧
    linkGroup.Complete (link (.member "Context" "HOME" 1)) ∧
    ∃ streams, Stream.resolved linkGroup = .ok streams ∧ ∃ after,
      ((Program.ofStreams streams).applyDefaults {} (link (.member "Context" "HOME" 1))).run {} =
        (.error (.missingAttribute "Context"), after) := by
  obtain ⟨streams, resolved, -, lacks⟩ := Link.fails
  exact ⟨Link.checked.1, Link.attributesApart, Link.wellTyped,
    Value.built_of_isBuiltWithin 2 (by decide +kernel),
    Value.proper_of_passes 2 (by decide +kernel),
    Value.complete_of_passes 2 (by decide +kernel), streams, resolved,
    Running.exists_of_lacks lacks⟩

end IdlGen
