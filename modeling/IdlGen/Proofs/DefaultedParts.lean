import IdlGen.Proofs.Defaults

/-!
Declared defaults, one level of a value at a time: what a pass does to a value follows from what
it does to its parts (`defaulted_of_parts`, `defaulted_part`).
-/
namespace IdlGen

open Run Outcome

def Value.elements : Value → List Value
  | .set items => items
  | .frozenset items => items
  | .dict entries => entries.map (·.1)
  | _ => []

theorem Value.Built.within {allows : RecordClass → List String → Prop} {u v : Value}
    (built : v.Built allows) (within : u.Within v) : u.Built allows := by
  induction within with
  | self => exact built
  | part member _ ih => exact ih (built.part member)

namespace Group

def image (g : Group) (default : Field → Value) (v : Value) : Value :=
  (g.defaulted default v).toOption.getD v

def rebuilt (g : Group) (default : Field → Value) (f : Value → Value) : Value → Except Fault Value
  | .list items => .ok (.list (items.map f))
  | .tuple items => .ok (.tuple (items.map f))
  | .set items => .set <$> setItems (items.map f)
  | .frozenset items => .frozenset <$> setItems (items.map f)
  | .dict entries => .dict <$> dictEntries (entries.map fun entry => (f entry.1, f entry.2))
  | .record cls fields =>
    let inner := fields.map fun field => (field.1, f field.2)
    .ok (.record cls ((g.recordOf? cls.name).elim inner fun r => r.filled default inner))
  | v => .ok v

variable {g : Group} {default : Field → Value} {f : Value → Value} {u v w : Value}

theorem image_eq (done : g.defaulted default v = .ok w) : g.image default v = w := by
  rw [image, done]
  rfl

theorem defaulted_image {P : Value → Prop} (done : ∃ w, g.defaulted default v = .ok w ∧ P w) :
    g.defaulted default v = .ok (g.image default v) ∧ P (g.image default v) := by
  obtain ⟨w, done, holds⟩ := done
  rw [image_eq done]
  exact ⟨done, holds⟩

theorem defaulted_of_parts (each : ∀ u ∈ v.parts, g.defaulted default u = .ok (f u)) :
    g.defaulted default v = g.rebuilt default f v := by
  cases v with
  | list items | tuple items | set items | frozenset items =>
    have results : items.mapM (g.defaulted default) = .ok (items.map f) := mapM_eq_map each
    rw [defaulted, defaultedAll_eq_mapM, results]
    rfl
  | dict entries =>
    have pairs : ∀ entry ∈ entries, (do
        return (← g.defaulted default entry.1, ← g.defaulted default entry.2)) =
          (.ok (f entry.1, f entry.2) : Except Fault (Value × Value)) := by
      intro entry member
      rw [each entry.1 (List.mem_append_left _ (List.mem_map_of_mem member)),
        each entry.2 (List.mem_append_right _ (List.mem_map_of_mem member))]
      rfl
    rw [defaulted, defaultedEntries_eq_mapM, mapM_eq_map pairs]
    rfl
  | record cls fields =>
    have inner : ∀ field ∈ fields, (do return (field.1, ← g.defaulted default field.2)) =
        (.ok (field.1, f field.2) : Except Fault (String × Value)) := by
      intro field member
      rw [each field.2 (List.mem_map_of_mem member)]
      rfl
    rw [defaulted, defaultedFields_eq_mapM, mapM_eq_map inner, rebuilt]
    cases g.recordOf? cls.name <;> rfl
  | _ => rfl

section
variable (done : g.defaulted default v = .ok w)
include done

theorem exists_part (member : u ∈ v.parts) : ∃ x, g.defaulted default u = .ok x := by
  have found {items results : List Value} (mapped : items.mapM (g.defaulted default) = .ok results)
      (member : u ∈ items) : ∃ x, g.defaulted default u = .ok x := by
    obtain ⟨x, -, made⟩ := exists_of_mapM mapped member
    exact ⟨x, made⟩
  cases v with
  | list items =>
    obtain ⟨results, mapped, -⟩ := defaulted_list done
    exact found mapped member
  | tuple items =>
    obtain ⟨results, mapped, -⟩ := defaulted_tuple done
    exact found mapped member
  | set items =>
    obtain ⟨results, mapped, -⟩ := defaulted_set done
    exact found mapped member
  | frozenset items =>
    obtain ⟨results, mapped, -⟩ := defaulted_frozenset done
    exact found mapped member
  | dict entries =>
    obtain ⟨results, mapped, -⟩ := defaulted_dict done
    rw [defaultedEntries_eq_mapM] at mapped
    rcases List.mem_append.mp member with inKeys | inValues
    · obtain ⟨entry, known, rfl⟩ := List.mem_map.mp inKeys
      obtain ⟨_, -, made⟩ := exists_of_mapM mapped known
      obtain ⟨key, made, -⟩ := bind_eq_ok.mp made
      exact ⟨key, made⟩
    · obtain ⟨entry, known, rfl⟩ := List.mem_map.mp inValues
      obtain ⟨_, -, made⟩ := exists_of_mapM mapped known
      obtain ⟨_, -, made⟩ := bind_eq_ok.mp made
      obtain ⟨value, made, -⟩ := bind_eq_ok.mp made
      exact ⟨value, made⟩
  | record cls fields =>
    obtain ⟨inner, mapped, -⟩ := bind_eq_ok.mp done
    rw [defaultedFields_eq_mapM] at mapped
    obtain ⟨field, known, rfl⟩ := List.mem_map.mp member
    obtain ⟨_, -, made⟩ := exists_of_mapM mapped known
    obtain ⟨value, made, -⟩ := bind_eq_ok.mp made
    exact ⟨value, made⟩
  | _ => cases member

theorem defaulted_part (member : u ∈ v.parts) :
    g.defaulted default u = .ok (g.image default u) := by
  obtain ⟨x, made⟩ := exists_part done member
  rw [image_eq made, made]

theorem rebuilt_of_defaulted : g.rebuilt default (g.image default) v = .ok w := by
  rw [← defaulted_of_parts fun u member => defaulted_part done member, done]

theorem isNull_of_defaulted : w.isNull = v.isNull := by
  cases isNull : w.isNull with
  | true =>
    have same := eq_of_absent done (by simp [Value.isAbsent, isNull])
    rw [same, isNull]
  | false =>
    cases v with
    | null =>
      cases done
      cases isNull
    | _ => rfl

end

theorem exists_rebuilt_iff :
    (∃ w, g.rebuilt default f v = .ok w) ↔ ∀ k ∈ v.elements, (f k).hashable := by
  have collected {items : List Value} (wrap : List Value → Value) :
      (∃ w, wrap <$> setItems (items.map f) = .ok w) ↔ ∀ k ∈ items, (f k).hashable := by
    constructor
    · rintro ⟨w, made⟩
      obtain ⟨kept, made, -⟩ := map_eq_ok.mp made
      exact List.forall_mem_map.mp (of_setItems made).2
    · intro hashable
      exact ⟨_, map_eq_ok.mpr ⟨_, setItems_eq_ok (List.forall_mem_map.mpr hashable), rfl⟩⟩
  cases v with
  | set items => exact collected .set
  | frozenset items => exact collected .frozenset
  | dict entries =>
    rw [rebuilt, Value.elements, List.forall_mem_map]
    constructor
    · rintro ⟨w, made⟩
      obtain ⟨kept, made, -⟩ := map_eq_ok.mp made
      exact List.forall_mem_map.mp (of_dictEntries made).2
    · intro hashable
      exact ⟨_, map_eq_ok.mpr ⟨_, dictEntries_eq_ok (List.forall_mem_map.mpr hashable), rfl⟩⟩
  | _ => exact ⟨fun _ k none => (by cases none), fun _ => ⟨_, rfl⟩⟩

/-- All elements and keys of a value are hashable with their defaults, at every depth. -/
def StaysHashable (g : Group) (default : Field → Value) (v : Value) : Prop :=
  ∀ u : Value, u.Within v → ∀ k ∈ u.elements, (g.image default k).hashable

theorem exists_defaulted_iff :
    (∃ w, g.defaulted default v = .ok w) ↔ g.StaysHashable default v := by
  constructor
  · rintro ⟨w, done⟩ u within
    induction within generalizing w with
    | self => exact exists_rebuilt_iff.mp ⟨w, rebuilt_of_defaulted done⟩
    | part member _ ih => exact ih _ (defaulted_part done member)
  · intro hashable
    induction v using Value.induction_on_size with
    | step v ih =>
      have each : ∀ u ∈ v.parts, g.defaulted default u = .ok (g.image default u) := by
        intro u member
        obtain ⟨x, done⟩ := ih u (Value.sizeOf_part member) fun k within =>
          hashable k (.part member within)
        rw [image_eq done, done]
      rw [defaulted_of_parts each]
      exact exists_rebuilt_iff.mpr (hashable v (.self v))

end Group

end IdlGen
