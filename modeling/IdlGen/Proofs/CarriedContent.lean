import IdlGen.Proofs.SettledValues

/-!
What values hold after declared defaults are applied: the content of a value is carried over at
every depth exactly if no two keys of a dictionary in it become equal
(`apply_defaults_carries_content`).
-/
namespace IdlGen

open Run Outcome

namespace Value

variable {kept items : List Value}

theorem mem_foldl_keep {k : Value} (member : k ∈ kept) : k ∈ items.foldl keep kept := by
  induction items generalizing kept with
  | nil => exact member
  | cons v rest ih =>
    refine ih ?_
    unfold keep
    split
    · exact member
    · exact List.mem_append_left _ member

theorem exists_kept_foldl {u : Value} (member : u ∈ items) :
    ∃ k ∈ items.foldl keep kept, k = u ∨ equal k u := by
  induction items generalizing kept with
  | nil => cases member
  | cons v rest ih =>
    rcases List.mem_cons.mp member with rfl | later
    · by_cases known : kept.any fun k => equal k u
      · obtain ⟨k, inKept, same⟩ := List.any_eq_true.mp known
        refine ⟨k, ?_, .inr same⟩
        rw [List.foldl_cons, keep, if_pos known]
        exact mem_foldl_keep inKept
      · refine ⟨u, ?_, .inl rfl⟩
        rw [List.foldl_cons, keep, if_neg known]
        exact mem_foldl_keep (List.mem_append_right _ (List.mem_singleton_self u))
    · exact ih later

theorem exists_kept {u : Value} (member : u ∈ items) : ∃ k ∈ distinct items, k = u ∨ equal k u :=
  exists_kept_foldl member

/-- What a value holds is there in another one, where parts are changed by `f`: every item of a list
    or a tuple in its place, every entry of a dictionary with its key and its value, every
    element of a set or one that equals it, and every field of an instance that is not absent. -/
def KeptIn (f : Value → Value) : Value → Value → Prop
  | .list items, w => w = .list (items.map f)
  | .tuple items, w => w = .tuple (items.map f)
  | .set items, w => ∃ kept, w = .set kept ∧ ∀ u ∈ items, ∃ k ∈ kept, k = f u ∨ equal k (f u)
  | .frozenset items, w =>
    ∃ kept, w = .frozenset kept ∧ ∀ u ∈ items, ∃ k ∈ kept, k = f u ∨ equal k (f u)
  | .dict entries, w => w = .dict (entries.map fun entry => (f entry.1, f entry.2))
  | .record cls fields, w =>
    ∃ results, w = .record cls results ∧
      ∀ field ∈ fields, field.2.isAbsent ∨ (field.1, f field.2) ∈ results
  | v, w => w = v

end Value

theorem Record.mem_filled_of_present {default : Field → Value} {r : Record}
    {fields : List (String × Value)} {field : String × Value}
    (size : r.fields.length = fields.length) (member : field ∈ fields)
    (present : field.2.isAbsent = false) : field ∈ r.filled default fields := by
  by_cases isUnion : r.kind = .union
  · have held : ¬ fields.all fun field => field.2.isNull := by
      intro all
      have null := List.all_eq_true.mp all field member
      simp [Value.isAbsent, null] at present
    cases first : r.firstDeclared? with
    | none => simpa [filled, isUnion, first] using member
    | some f => simpa [filled, isUnion, first, held] using member
  · rw [← List.map_snd_zip (Nat.le_of_eq size.symm)] at member
    obtain ⟨⟨f, same⟩, paired, rfl⟩ := List.mem_map.mp member
    simp only [filled, isUnion, if_false]
    refine List.mem_map.mpr ⟨(f, same), paired, ?_⟩
    simp [Field.filled, present]

namespace Group

/-- The content of a value is there in another one, at every depth, with declared defaults
    applied to items, keys and values. -/
inductive Carries (g : Group) (default : Field → Value) : Value → Value → Prop where
  | mk {v w : Value} (here : v.KeptIn (g.image default) w)
      (each : ∀ u ∈ v.parts, Carries g default u (g.image default u)) : Carries g default v w

/-- No two keys of a dictionary become equal when declared defaults are applied to them, at any
    depth. -/
def KeysStayApart (g : Group) (default : Field → Value) (v : Value) : Prop :=
  ∀ entries, (Value.dict entries).Within v →
    Value.Apart (entries.map fun entry => g.image default entry.1)

variable {g : Group} {default : Field → Value} {v w : Value}

theorem keptIn_dict_iff {entries : List (Value × Value)}
    (done : g.defaulted default (.dict entries) = .ok w) :
    (Value.dict entries).KeptIn (g.image default) w ↔
      Value.Apart (entries.map fun entry => g.image default entry.1) := by
  obtain ⟨kept, collected, rfl⟩ := map_eq_ok.mp (rebuilt_of_defaulted done)
  obtain ⟨rfl, -⟩ := of_dictEntries collected
  have keys : ((entries.map fun entry => (g.image default entry.1, g.image default entry.2)).map
      (·.1)) = entries.map fun entry => g.image default entry.1 := by
    rw [List.map_map]
    rfl
  rw [← keys]
  constructor
  · intro here
    have same := congrArg (List.map (·.1)) (Value.dict.inj here)
    rw [Value.keys_distinctEntries] at same
    rw [← same]
    exact Value.apart_distinct _
  · intro apart
    exact congrArg Value.dict (Value.distinctEntries_of_apart apart)

theorem keptIn_of_defaulted (form : v.HasForm g.Instance) (done : g.defaulted default v = .ok w)
    (apart : ∀ entries, v = .dict entries →
      Value.Apart (entries.map fun entry => g.image default entry.1)) :
    v.KeptIn (g.image default) w := by
  have rebuilt := rebuilt_of_defaulted done
  cases v with
  | list items | tuple items =>
    cases rebuilt
    rfl
  | set items | frozenset items =>
    obtain ⟨kept, collected, rfl⟩ := map_eq_ok.mp rebuilt
    obtain ⟨rfl, -⟩ := of_setItems collected
    exact ⟨_, rfl, fun u member => Value.exists_kept (List.mem_map_of_mem member)⟩
  | dict entries => exact (keptIn_dict_iff done).mpr (apart entries rfl)
  | record cls fields =>
    obtain ⟨-, r, known, names⟩ := form
    rw [Group.rebuilt, known] at rebuilt
    cases rebuilt
    have size : r.fields.length =
        (fields.map fun field => (field.1, g.image default field.2)).length := by
      simpa using (congrArg List.length names).symm
    refine ⟨_, rfl, fun field member => ?_⟩
    cases absent : field.2.isAbsent with
    | true => exact .inl rfl
    | false =>
      have part := defaulted_part done (List.mem_map_of_mem member)
      have present : (g.image default field.2).isAbsent = false := by
        refine Bool.eq_false_iff.mpr fun imageAbsent => ?_
        rw [eq_of_absent part imageAbsent, imageAbsent] at absent
        cases absent
      exact .inr (Record.mem_filled_of_present size
        (List.mem_map.mpr ⟨field, member, rfl⟩) present)
  | _ =>
    cases rebuilt
    rfl

theorem carries_iff (built : v.Built g.Instance) (done : g.defaulted default v = .ok w) :
    g.Carries default v w ↔ g.KeysStayApart default v := by
  constructor
  · intro carries entries within
    induction within generalizing w with
    | self =>
      cases carries with
      | mk here each => exact (keptIn_dict_iff done).mp here
    | part member _ ih =>
      cases carries with
      | mk here each => exact ih (built.part member) (defaulted_part done member) (each _ member)
  · intro apart
    induction built generalizing w with
    | @mk v form each ih =>
      refine .mk (keptIn_of_defaulted form done ?_) fun u member => ?_
      · rintro entries rfl
        exact apart entries (.self _)
      · exact ih u member (defaulted_part done member) fun entries within =>
          apart entries (.part member within)

end Group

/-- In the program of an accepted group whose declared defaults evaluate, applying defaults returns
    exactly if elements and keys stay hashable, and the result has the content of the value exactly
    if no two keys of a dictionary become equal. -/
theorem apply_defaults_carries_content {g : Group} {directories : List String} {format : Bool}
    {world : World} {written : List String}
    (accepted : ((Session.generate g directories format).run world).1 = .ok written)
    (attributes : g.AttributesApart) :
    ∃ streams, Stream.resolved g = .ok streams ∧
      ∀ s m, (Program.ofStreams streams).Presents g s m → s.DefaultsEvaluate g →
        (∀ type v, s.Declares g type false v → v.Built g.Instance) ∧
        ∀ c v, v.Built g.Instance → ∃ outcome after,
          ((Program.ofStreams streams).applyDefaults c v).run m = (outcome, after) ∧
          ((∃ w, outcome = .ok w) ↔ g.StaysHashable (g.evaluatedDefault s) v) ∧
          (∀ w, outcome = .ok w → (g.Carries (g.evaluatedDefault s) v w ↔
            g.KeysStayApart (g.evaluatedDefault s) v)) ∧
          (s.DefaultsSuit g → ∀ type, s.Declares g type false v →
            ∃ w, outcome = .ok w ∧ s.Declares g type false w) := by
  obtain ⟨streams, raw, accepted, program⟩ := isProgram_of_generate accepted
  refine ⟨streams, accepted.resolved, fun s m presents evaluate =>
    ⟨fun type v => presents.toOffers.built program, fun c v built => ?_⟩⟩
  obtain ⟨after, ran, -⟩ := Program.run_applyDefaults (Program.holdsCompanions program) attributes
    evaluate.exists_default evaluate.built_default presents.toServes c built
  exact ⟨_, after, ran, Group.exists_defaulted_iff, fun w => Group.carries_iff built,
    fun suit type => presents.declares_defaulted program attributes suit⟩

/-! ### Prices by code -/

def codeRecord : Record where
  kind := .struct
  name := "bill.Code"
  fields := [{ name := .text "part", type := .primitive .i32, default := .int 5 }]

def billGroup : Group where
  schemas := [(.text "bill", {
    module := .text "bill"
    structs := [("Code", codeRecord)]
    typedefs := [("Prices", {
      name := "bill.Prices"
      type := .map (.ref "bill.Code") (.primitive .i32) })] })]

def code (part : Value) : Value := .record { name := "Code" } [("part", part)]

def prices (first second : Value) : Value :=
  .dict [(code first, .int 1), (code second, .int 2)]

def Value.isDict : Value → Bool
  | .dict _ => true
  | _ => false

namespace Bill

/-- The group is accepted, and its program presents it once the class is imported. -/
theorem checked :
    ((Session.generate billGroup ["", ""] false).run { working := "/" }).1.toOption.isSome ∧
      (Stream.resolved billGroup).toOption.any fun streams =>
        (Program.ofStreams streams).presentsLoaded billGroup
          ((Program.ofStreams streams).afterImports ["Code"]) := by
  decide +kernel

theorem accepted : ∃ written,
    ((Session.generate billGroup ["", ""] false).run { working := "/" }).1 = .ok written :=
  isSome_toOption.mp checked.1

theorem attributesApart : billGroup.AttributesApart := by
  have records : billGroup.records = [codeRecord] := rfl
  simp [Group.AttributesApart, records, codeRecord]

theorem defaultsSuit (s : Surroundings) : s.DefaultsSuit billGroup := by
  have records : billGroup.records = [codeRecord] := rfl
  suffices s.Suits billGroup
      { name := .text "part", type := .primitive .i32, default := .int 5 } by
    simpa [Surroundings.DefaultsSuit, records, codeRecord, Field.declares, Value.isNull]
  exact .inl (.scalar rfl rfl)

theorem presents : ∃ streams, Stream.resolved billGroup = .ok streams ∧
    ∃ m, (Program.ofStreams streams).Presents billGroup m.linked m := by
  obtain ⟨streams, resolved, loaded⟩ := exists_of_any_toOption checked.2
  exact ⟨streams, resolved, _, Program.presents_of_loaded loaded⟩

theorem outputName_code : billGroup.outputName "bill.Code" = .ok "Code" :=
  toOption_eq_some.mp (by decide +kernel)

theorem recordOf?_code : billGroup.recordOf? "Code" = some codeRecord := by
  have records : billGroup.records = [codeRecord] := rfl
  simp [Group.recordOf?, records, codeRecord, outputName_code, Except.toOption]

theorem resolves_code : billGroup.resolveType (.ref "bill.Code") = .ok (.record codeRecord) :=
  Group.resolveType_record (Group.resolve_of_find rfl Group.schemaNamed?_head rfl)

theorem resolves_prices : billGroup.resolveType (.ref "bill.Prices") =
    .ok (.map (.ref "bill.Code") (.primitive .i32)) := by
  have known : billGroup.resolve "bill.Prices" = .ok (.typedef
      { name := "bill.Prices", type := .map (.ref "bill.Code") (.primitive .i32) }) :=
    Group.resolve_of_find rfl Group.schemaNamed?_head rfl
  simp [Group.resolveType, Group.follow, known, bind, Except.bind]

theorem number : billGroup.DataType (.primitive .i32) := .primitive rfl (by simp)

theorem reachesData {type : FieldType} (data : billGroup.DataType type) :
    billGroup.ReachesData type := by
  refine Group.reachesData_of_fields ?_ data
  have records : billGroup.records = [codeRecord] := rfl
  simp [records, codeRecord, number]

variable {p : Program} {s : Surroundings} {m : Machine}

theorem declares_int (frozen : Bool) (n : Int) :
    s.Declares billGroup (.primitive .i32) frozen (.int n) :=
  Surroundings.declares_scalar (reachesData number) rfl rfl rfl

theorem declares_code (presents : p.Presents billGroup s m) {part : Value}
    (typed : part = .null ∨ ∃ n, part = .int n) :
    s.Declares billGroup (.ref "bill.Code") true (code part) := by
  refine presents.declares_record (reachesData (.record resolves_code)) resolves_code
    outputName_code rfl ?_
  rcases typed with rfl | ⟨n, rfl⟩
  · simp
  · simp [codeRecord, declares_int]

theorem declares_prices (presents : p.Presents billGroup s m) {first second : Value}
    (firstTyped : first = .null ∨ ∃ n, first = .int n)
    (secondTyped : second = .null ∨ ∃ n, second = .int n) :
    s.Declares billGroup (.ref "bill.Prices") false (prices first second) := by
  have answered : billGroup.hashableWithin 2 [] true (.ref "bill.Code") = .ok true := by
    rw [Group.hashableWithin, resolves_code]
    rfl
  have hashable := Group.isHashable_of_within answered
  have data := reachesData (.map resolves_prices (.record resolves_code) number)
  refine Surroundings.declares_dict data resolves_prices presents.classes hashable ?_
  simp [declares_code presents firstTyped, declares_code presents secondTyped, declares_int]

theorem defaulted_code_null :
    billGroup.defaulted (billGroup.evaluatedDefault s) (code .null) = .ok (code (.int 5)) := by
  rw [code, Group.defaulted_record recordOf?_code]
  rfl

theorem defaulted_code_int (n : Int) :
    billGroup.defaulted (billGroup.evaluatedDefault s) (code (.int n)) = .ok (code (.int n)) := by
  rw [code, Group.defaulted_record recordOf?_code]
  rfl

theorem equal_code (n k : Int) : Value.equal (code (.int n)) (code (.int k)) = (n == k) := by
  simp [code, Value.equal, Value.equalFields, Value.equalNumbers, Value.number?,
    Value.Number.equal]

theorem defaulted_prices (n : Int) :
    billGroup.defaulted (billGroup.evaluatedDefault s) (prices .null (.int n)) =
      .dict <$> dictEntries [(code (.int 5), .int 1), (code (.int n), .int 2)] := by
  simp only [prices, Group.defaulted, Group.defaultedEntries, defaulted_code_null,
    defaulted_code_int, bind, Except.bind, pure, Except.pure]
  rfl

theorem defaulted_equal_prices :
    billGroup.defaulted (billGroup.evaluatedDefault s) (prices .null (.int 5)) =
      .ok (.dict [(code (.int 5), .int 2)]) := by
  have merged : dictEntries [(code (.int 5), .int 1), (code (.int 5), .int 2)] =
      .ok [(code (.int 5), .int 2)] := by
    rw [dictEntries_eq_ok (by simp [code, Value.hashable, Value.hashableFields])]
    simp [Value.distinctEntries, Value.putEntry, equal_code]
  rw [defaulted_prices, merged]
  rfl

theorem keysStayApart_prices :
    billGroup.KeysStayApart (billGroup.evaluatedDefault s) (prices .null (.int 7)) := by
  intro entries within
  have flat : ∀ u ∈ (prices .null (.int 7)).parts,
      u.passesWithin (fun u => !u.isDict) 3 := by
    simp [prices, code, Value.parts, Value.passesWithin, Value.isDict]
  cases within with
  | self =>
    simp only [List.map_cons, List.map_nil, Group.image_eq defaulted_code_null,
      Group.image_eq (defaulted_code_int 7)]
    simp [Value.Apart, equal_code]
  | part member deeper => cases Value.passes_of_within 3 (flat _ member) deeper

theorem runs : ∃ raw streams, IsProgram billGroup raw streams ∧
    Stream.resolved billGroup = .ok streams ∧
    ∃ m, (Program.ofStreams streams).Presents billGroup m.linked m ∧
      m.linked.DefaultsEvaluate billGroup := by
  obtain ⟨written, generated⟩ := accepted
  obtain ⟨streams, raw, accepted, program⟩ := isProgram_of_generate generated
  obtain ⟨_, same, m, presents⟩ := Bill.presents
  rw [accepted.resolved] at same
  cases same
  exact ⟨raw, streams, program, accepted.resolved, m, presents,
    (defaultsSuit m.linked).defaultsEvaluate program attributesApart presents.classes⟩

end Bill

/-- A default for one of two codes leaves both prices, each under its code. -/
theorem distinct_prices_are_carried :
    ∃ streams, Stream.resolved billGroup = .ok streams ∧
      ∃ m, (Program.ofStreams streams).Presents billGroup m.linked m ∧
        m.linked.DefaultsEvaluate billGroup ∧ m.linked.DefaultsSuit billGroup ∧
        m.linked.Declares billGroup (.ref "bill.Prices") false (prices .null (.int 7)) ∧
        ∀ c, ∃ w after,
          ((Program.ofStreams streams).applyDefaults c (prices .null (.int 7))).run m =
            (.ok w, after) ∧
          m.linked.Declares billGroup (.ref "bill.Prices") false w ∧
          billGroup.Carries (billGroup.evaluatedDefault m.linked) (prices .null (.int 7)) w := by
  obtain ⟨written, accepted⟩ := Bill.accepted
  obtain ⟨streams, resolved, carries⟩ :=
    apply_defaults_carries_content accepted Bill.attributesApart
  obtain ⟨_, _, -, same, m, presents, evaluate⟩ := Bill.runs
  rw [resolved] at same
  cases same
  have suit := Bill.defaultsSuit m.linked
  have declares := Bill.declares_prices presents (.inl rfl) (.inr ⟨7, rfl⟩)
  obtain ⟨built, runs⟩ := carries m.linked m presents evaluate
  refine ⟨streams, resolved, m, presents, evaluate, suit, declares, fun c => ?_⟩
  obtain ⟨outcome, after, ran, -, carried, typed⟩ := runs c _ (built _ _ declares)
  obtain ⟨w, rfl, still⟩ := typed suit _ declares
  exact ⟨w, after, ran, still, (carried w rfl).mpr Bill.keysStayApart_prices⟩

/-- The group is accepted and its defaults are of their types. A code without a part becomes equal
    to the code of the other price, and one of the two prices is lost. -/
theorem equal_codes_lose_price :
    (∃ written, ((Session.generate billGroup ["", ""] false).run { working := "/" }).1 =
      .ok written) ∧
    billGroup.AttributesApart ∧
    ∃ streams, Stream.resolved billGroup = .ok streams ∧
      ∃ m, (Program.ofStreams streams).Presents billGroup m.linked m ∧
        m.linked.DefaultsSuit billGroup ∧
        m.linked.Declares billGroup (.ref "bill.Prices") false (prices .null (.int 5)) ∧
        ∀ c, ∃ after, ((Program.ofStreams streams).applyDefaults c (prices .null (.int 5))).run m =
          (.ok (.dict [(code (.int 5), .int 2)]), after) := by
  obtain ⟨raw, streams, program, resolved, m, presents, evaluate⟩ := Bill.runs
  have declares := Bill.declares_prices presents (.inl rfl) (.inr ⟨5, rfl⟩)
  refine ⟨Bill.accepted, Bill.attributesApart, streams, resolved, m, presents,
    Bill.defaultsSuit m.linked, declares, fun c => ?_⟩
  obtain ⟨after, ran, -⟩ := Program.run_applyDefaults (Program.holdsCompanions program)
    Bill.attributesApart evaluate.exists_default evaluate.built_default presents.toServes c
    (presents.toOffers.built program declares)
  rw [Bill.defaulted_equal_prices] at ran
  exact ⟨after, ran⟩

end IdlGen
