import IdlGen.Proofs.TypedDefaults

/-!
The members of unions. The companion of a union never gives it a second member and never unsets
one (`companion_keeps_union_members`).
-/
namespace IdlGen

open Run Outcome

variable {fields : List (String × Value)} {name : String}

/-- The names of the fields that are set. -/
def heldNames (fields : List (String × Value)) : List String :=
  (fields.filter fun field => !field.2.isNull).map (·.1)

/-- The member that defaults give to an empty union. -/
def Record.defaultMember (r : Record) : List String :=
  r.firstDeclared?.toList.map fun f => Name.attributeName f.name

section
theorem heldNames_eq_nil_iff : heldNames fields = [] ↔ ∀ field ∈ fields, field.2.isNull := by
  simp [heldNames]

theorem heldNames_map {f : Value → Value}
    (same : ∀ field ∈ fields, (f field.2).isNull = field.2.isNull) :
    heldNames (fields.map fun field => (field.1, f field.2)) = heldNames fields := by
  have kept : (fields.filter ((fun field => !field.2.isNull) ∘ fun field => (field.1, f field.2))) =
      fields.filter fun field => !field.2.isNull := by
    refine List.filter_congr fun field member => ?_
    simp [same field member]
  rw [heldNames, List.filter_map, kept, List.map_map]
  rfl

theorem heldNames_setField {value : Value} (apart : (fields.map (·.1)).Nodup)
    (known : name ∈ fields.map (·.1)) (empty : ∀ field ∈ fields, field.2.isNull)
    (present : value.isNull = false) : heldNames (setField name value fields) = [name] := by
  have held : heldNames (setField name value fields) = (fields.map (·.1)).filter (· == name) := by
    clear apart known
    induction fields with
    | nil => rfl
    | cons field rest ih =>
      obtain ⟨first, later⟩ := List.forall_mem_cons.mp empty
      have others := ih later
      by_cases same : field.1 = name
      · simp_all [heldNames, setField]
      · simp_all [heldNames, setField]
  rw [held, List.filter_beq, List.count_eq_one_of_mem apart known]
  rfl

end

section
variable {default : Field → Value} {r : Record}

/-- Setting defaults in a union keeps its members, or gives it the first declared one. -/
theorem Record.heldNames_filled (isUnion : r.kind = .union)
    (names : fields.map (·.1) = r.fields.map fun f => Name.attributeName f.name)
    (apart : (r.fields.map fun f => Name.attributeName f.name).Nodup)
    (present : ∀ f ∈ r.fillable, (default f).isNull = false) :
    heldNames (r.filled default fields) =
      if heldNames fields = [] then r.defaultMember else heldNames fields := by
  cases first : r.firstDeclared? with
  | none =>
    have unchanged : r.filled default fields = fields := by simp [filled, isUnion, first]
    have noMember : r.defaultMember = [] := by simp [defaultMember, first]
    rw [unchanged, noMember]
    split
    · assumption
    · rfl
  | some f =>
    by_cases empty : heldNames fields = []
    · have allNull := heldNames_eq_nil_iff.mp empty
      have filledIn : r.filled default fields =
          setField (Name.attributeName f.name) (default f) fields := by
        simp [filled, isUnion, first, List.all_eq_true.mpr allNull]
      have known : Name.attributeName f.name ∈ fields.map (·.1) := by
        rw [names]
        exact List.mem_map_of_mem (List.mem_of_find?_eq_some first)
      have nonNull := present f (by simp [fillable, isUnion, first])
      rw [if_pos empty, filledIn, heldNames_setField (names ▸ apart) known allNull nonNull]
      simp [defaultMember, first]
    · have unchanged : r.filled default fields = fields := by
        have held : ¬ fields.all fun field => field.2.isNull := fun all =>
          empty (heldNames_eq_nil_iff.mpr (List.all_eq_true.mp all))
        simp [filled, isUnion, first, held]
      rw [if_neg empty, unchanged]

theorem Record.mem_filled_of_empty {f : Field} (isUnion : r.kind = .union)
    (names : fields.map (·.1) = r.fields.map fun f => Name.attributeName f.name)
    (first : r.firstDeclared? = some f) (empty : heldNames fields = []) :
    (Name.attributeName f.name, default f) ∈ r.filled default fields := by
  have known : Name.attributeName f.name ∈ fields.map (·.1) := by
    rw [names]
    exact List.mem_map_of_mem (List.mem_of_find?_eq_some first)
  obtain ⟨field, member, same⟩ := List.mem_map.mp known
  have allNull := List.all_eq_true.mpr (heldNames_eq_nil_iff.mp empty)
  simp only [filled, isUnion, first, allNull, if_true]
  exact List.mem_map.mpr ⟨field, member, by simp [same]⟩

variable {g : Group} {cls : RecordClass} {w : Value}

theorem Group.heldNames_defaulted (known : g.recordOf? cls.name = some r)
    (isUnion : r.kind = .union)
    (names : fields.map (·.1) = r.fields.map fun f => Name.attributeName f.name)
    (apart : (r.fields.map fun f => Name.attributeName f.name).Nodup)
    (present : ∀ f ∈ r.fillable, (default f).isNull = false)
    (done : g.defaulted default (.record cls fields) = .ok w) :
    ∃ result, w = .record cls result ∧ result.map (·.1) = fields.map (·.1) ∧
      heldNames result = (if heldNames fields = [] then r.defaultMember else heldNames fields) ∧
      ∀ f, heldNames fields = [] → r.firstDeclared? = some f →
        (Name.attributeName f.name, default f) ∈ result := by
  have parts (field : String × Value) (member : field ∈ fields) :
      g.defaulted default field.2 = .ok (g.image default field.2) :=
    defaulted_part done (List.mem_map_of_mem member)
  have rebuilt := rebuilt_of_defaulted done
  rw [Group.rebuilt, known] at rebuilt
  cases rebuilt
  have sameNames : (fields.map fun field => (field.1, g.image default field.2)).map (·.1) =
      fields.map (·.1) := by
    rw [List.map_map]
    rfl
  have size : r.fields.length =
      (fields.map fun field => (field.1, g.image default field.2)).length := by
    simpa using (congrArg List.length names).symm
  have sameHeld : heldNames (fields.map fun field => (field.1, g.image default field.2)) =
      heldNames fields := heldNames_map fun field member => isNull_of_defaulted (parts field member)
  refine ⟨_, rfl, (Record.names_filled size).trans sameNames, ?_, fun f empty first => ?_⟩
  · rw [Option.elim, Record.heldNames_filled isUnion (sameNames.trans names) apart present,
      sameHeld]
  · exact Record.mem_filled_of_empty isUnion (sameNames.trans names) first (sameHeld.trans empty)

end

/-- In the program of an accepted group with declared defaults of their types, the companion of a
    union keeps the members of every instance that has any, and gives one without a member the first
    that declares a default. It returns exactly if elements and keys stay hashable. -/
theorem companion_keeps_union_members {g : Group} {directories : List String} {format : Bool}
    {world : World} {written : List String}
    (accepted : ((Session.generate g directories format).run world).1 = .ok written)
    (attributes : g.AttributesApart) :
    ∃ streams, Stream.resolved g = .ok streams ∧
      ∀ s m, (Program.ofStreams streams).Offers g s m → s.DefaultsSuit g →
        ∀ c cls fields r, (Value.record cls fields).Built g.Instance →
          g.recordOf? cls.name = some r → r.kind = .union → ∃ outcome after,
            ((Program.ofStreams streams).companionDefaults cls.name c
              (pure (.record cls fields))).run m = (outcome, after) ∧
            (∀ w, outcome = .ok w → ∃ result, w = .record cls result ∧
              result.map (·.1) = fields.map (·.1) ∧
              heldNames result =
                (if heldNames fields = [] then r.defaultMember else heldNames fields) ∧
              ∀ f, heldNames fields = [] → r.firstDeclared? = some f →
                (Name.attributeName f.name, g.evaluatedDefault s f) ∈ result) ∧
            ((∃ w, outcome = .ok w) ↔
              g.StaysHashable (g.evaluatedDefault s) (.record cls fields)) ∧
            ((Program.ofStreams streams).Presents g s m → ∀ type,
              s.Declares g type false (.record cls fields) → ∃ w, outcome = .ok w) := by
  obtain ⟨streams, raw, accepted, program⟩ := isProgram_of_generate accepted
  refine ⟨streams, accepted.resolved, ?_⟩
  intro s m offers suit c cls fields r built known isUnion
  obtain ⟨declared, -⟩ := Group.recordOf?_eq_some known
  have evaluate := suit.defaultsEvaluate program attributes offers.classes
  obtain ⟨after, ran, -⟩ := Program.run_companionDefaults (Program.holdsCompanions program) attributes
    evaluate.exists_default evaluate.built_default offers.toServes (offers.named _ r known)
    (offers.absolute _ r known) c built
  have present : ∀ f ∈ r.fillable, (g.evaluatedDefault s f).isNull = false := by
    intro f fills
    obtain ⟨member, declares⟩ := Record.mem_fillable fills
    exact (suit.declares program attributes offers.classes r declared f member declares).isNull
  obtain ⟨-, other, same, names⟩ := built.form
  cases known.symm.trans same
  refine ⟨_, after, ran, fun w done => ?_, Group.exists_defaulted_iff,
    fun presents type typed => ?_⟩
  · exact Group.heldNames_defaulted known isUnion names (attributes r declared) present done
  · obtain ⟨w, done, -⟩ := presents.declares_defaulted program attributes suit typed
    exact ⟨w, done⟩

def line (mail : Value) : Value := .record { name := "Line" } [("mail", mail), ("call", .null)]

theorem shipping_defaultsSuit (s : Surroundings) : s.DefaultsSuit shippingGroup :=
  fun r declared f member declares => .inl (shipping_wellTyped r declared f member declares)

/-- A contact with an empty address keeps it, and one without a member gets the other. -/
theorem lines_keep_members :
    ∃ streams, Stream.resolved shippingGroup = .ok streams ∧
      ∃ m, (Program.ofStreams streams).Offers shippingGroup m.linked m ∧
        m.linked.DefaultsSuit shippingGroup ∧
        ∀ c, ∀ before ∈ [(Value.text "", "mail"), (.null, "call")], ∃ result after,
          ((Program.ofStreams streams).companionDefaults "Line" c (pure (line before.1))).run m =
              (.ok (.record { name := "Line" } result), after) ∧
          heldNames result = [before.2] := by
  obtain ⟨written, accepted⟩ := shipping_accepted
  obtain ⟨streams, resolved, keeps⟩ :=
    companion_keeps_union_members accepted shipping_attributesApart
  obtain ⟨m, offers⟩ := shipping_offers resolved
  have suit := shipping_defaultsSuit m.linked
  refine ⟨streams, resolved, m, offers, suit, fun c => ?_⟩
  have known : shippingGroup.recordOf? "Line" = some lineRecord := by
    have output : shippingGroup.outputName "post.Line" = .ok "Line" :=
      toOption_eq_some.mp (by decide +kernel)
    have declared : lineRecord ∈ shippingGroup.records := List.mem_of_getElem? (i := 2) rfl
    exact offers.classes.recordOf?_eq declared output
  have kept (mail : Value) (built : (line mail).Built shippingGroup.Instance)
      (done : ∃ w, shippingGroup.defaulted (shippingGroup.evaluatedDefault m.linked) (line mail) =
        .ok w)
      {name : String} (held : (if heldNames [("mail", mail), ("call", .null)] = [] then
        lineRecord.defaultMember else heldNames [("mail", mail), ("call", .null)]) = [name]) :
      ∃ result after,
        ((Program.ofStreams streams).companionDefaults "Line" c (pure (line mail))).run m =
          (.ok (.record { name := "Line" } result), after) ∧ heldNames result = [name] := by
    obtain ⟨outcome, after, ran, members, returns, -⟩ :=
      keeps m.linked m offers suit c _ _ lineRecord built known rfl
    obtain ⟨w, rfl⟩ := returns.mpr (Group.exists_defaulted_iff.mp done)
    obtain ⟨result, rfl, -, after', -⟩ := members w rfl
    exact ⟨result, after, ran, after'.trans held⟩
  refine List.forall_mem_cons.mpr
    ⟨kept _ ?_ ?_ rfl, List.forall_mem_singleton.mpr (kept _ ?_ ?_ rfl)⟩
  · exact Value.built_of_isBuiltWithin 2 (by decide +kernel)
  · exact ⟨_, by rw [line, Group.defaulted_record known]; rfl⟩
  · exact Value.built_of_isBuiltWithin 2 (by decide +kernel)
  · exact ⟨_, by rw [line, Group.defaulted_record known]; rfl⟩

def linkRecord : Record where
  kind := .union
  name := "site.Link"
  fields := [{ name := .text "target", type := .ref "site.Context", default := .int 1 }]

def contextEnum : Enum where
  name := "site.Context"
  values := [("HOME", 1)]

/-- A union with an enum whose module has the name of a parameter of companions. -/
def linkGroup : Group where
  schemas := [(.text "site", {
    module := .text "site"
    unions := [("Link", linkRecord)]
    enums := [("Context", contextEnum)] })]

def link (target : Value) : Value := .record { name := "Link" } [("target", target)]

namespace Run.Running

def lacks {α : Type} (step : Running α) (m : Machine) (name : String) : Bool :=
  match (step.run m).1 with
  | .error (.missingAttribute found) => found == name
  | _ => false

theorem exists_of_lacks {α : Type} {step : Running α} {m : Machine} (lacks : step.lacks m name) :
    ∃ after, step.run m = (.error (.missingAttribute name), after) := by
  unfold Running.lacks at lacks
  split at lacks
  · rename_i found failed
    refine ⟨(step.run m).2, ?_⟩
    rw [← eq_of_beq lacks, ← failed]
    rfl
  · cases lacks

end Run.Running

namespace Link

theorem checked :
    ((Session.generate linkGroup ["", ""] false).run { working := "/" }).1.toOption.isSome ∧
      (Stream.resolved linkGroup).toOption.any fun streams =>
        ((Program.ofStreams streams).companionDefaults "Link" {} (pure (link .null))).lacks {}
            "Context" &&
          ((Program.ofStreams streams).applyDefaults {}
            (link (.member "Context" "HOME" 1))).lacks {} "Context" := by
  decide +kernel

theorem attributesApart : linkGroup.AttributesApart := by
  have records : linkGroup.records = [linkRecord] := rfl
  simp [Group.AttributesApart, records, linkRecord]

theorem wellTyped : ∀ r ∈ linkGroup.records, ∀ f ∈ r.fields, f.declares →
    WellTyped linkGroup f.type f.default := by
  have resolves : linkGroup.resolveType (.ref "site.Context") = .ok (.enum contextEnum) :=
    Group.resolveType_enum (Group.resolve_of_find rfl Group.schemaNamed?_head rfl)
  have records : linkGroup.records = [linkRecord] := rfl
  suffices WellTyped linkGroup (.ref "site.Context") (.int 1) by
    simpa [records, linkRecord, Field.declares, Value.isNull]
  exact .enum resolves (by simp [contextEnum])

theorem fails : ∃ streams, Stream.resolved linkGroup = .ok streams ∧
    ((Program.ofStreams streams).companionDefaults "Link" {} (pure (link .null))).lacks {}
      "Context" ∧
    ((Program.ofStreams streams).applyDefaults {} (link (.member "Context" "HOME" 1))).lacks {}
      "Context" := by
  obtain ⟨streams, resolved, fails⟩ := exists_of_any_toOption checked.2
  exact ⟨streams, resolved, Bool.and_eq_true_iff.mp fails⟩

end Link

/-- The group is accepted and its default is of its type. But in the companion of the union the
    parameter hides the module of the enum, and a union without a member does not get the one
    with the default. -/
theorem hidden_module_fails_union :
    ((Session.generate linkGroup ["", ""] false).run { working := "/" }).1.toOption.isSome ∧
    linkGroup.AttributesApart ∧
    (∀ r ∈ linkGroup.records, ∀ f ∈ r.fields, f.declares → WellTyped linkGroup f.type f.default) ∧
    (link .null).Built linkGroup.Instance ∧
    ∃ streams, Stream.resolved linkGroup = .ok streams ∧ ∃ after,
      ((Program.ofStreams streams).companionDefaults "Link" {} (pure (link .null))).run {} =
        (.error (.missingAttribute "Context"), after) := by
  obtain ⟨streams, resolved, lacks, -⟩ := Link.fails
  exact ⟨Link.checked.1, Link.attributesApart, Link.wellTyped,
    Value.built_of_isBuiltWithin 2 (by decide +kernel), streams, resolved,
    Running.exists_of_lacks lacks⟩

end IdlGen
