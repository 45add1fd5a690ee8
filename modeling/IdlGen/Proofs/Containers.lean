import IdlGen.Proofs.Outcomes
import IdlGen.Run.Object

/-!
Sets, dictionaries and records as a running program puts them together: keeping again what is kept
changes nothing, and a field that is given anew has the last value (`replaceFields_eq`).
-/
namespace IdlGen

open Run Outcome

variable {kept items : List Value} {v : Value} {entries : List (Value × Value)}

namespace Value

/-- No two items are equal. -/
def Apart (items : List Value) : Prop := items.Pairwise fun v w => equal v w = false

def keep (kept : List Value) (v : Value) : List Value :=
  if kept.any (fun k => equal k v) then kept else kept ++ [v]

theorem keep_of_new (new : ∀ k ∈ kept, equal k v = false) : keep kept v = kept ++ [v] := by
  have unequal : kept.any (fun k => equal k v) = false := by simpa using new
  simp [keep, unequal]

theorem apart_keep (apart : Apart kept) (v : Value) : Apart (keep kept v) := by
  unfold keep
  split
  · exact apart
  · rename_i new
    have unequal : ∀ k ∈ kept, equal k v = false := by simpa using new
    exact List.pairwise_append.mpr ⟨apart, List.pairwise_singleton .., by simpa using unequal⟩

theorem apart_distinct (items : List Value) : Apart (distinct items) :=
  List.foldlRecOn items keep List.Pairwise.nil fun _ apart v _ => apart_keep apart v

variable {kept : List (Value × Value)} {entry : Value × Value}

theorem mem_of_mem_distinct (member : v ∈ distinct items) : v ∈ items := by
  have all : ∀ v ∈ distinct items, v ∈ items := by
    refine List.foldlRecOn (motive := fun kept => ∀ v ∈ kept, v ∈ items) items keep (by simp) ?_
    intro kept known w inItems v member
    unfold keep at member
    split at member
    · exact known v member
    · rcases List.mem_append.mp member with before | new
      · exact known v before
      · rwa [List.mem_singleton.mp new]
  exact all v member

theorem foldl_keep_of_apart {kept : List Value} (apart : Apart (kept ++ items)) :
    items.foldl keep kept = kept ++ items := by
  induction items generalizing kept with
  | nil => simp
  | cons v rest ih =>
    have new : ∀ k ∈ kept, equal k v = false := fun k member =>
      (List.pairwise_append.mp apart).2.2 k member v (List.mem_cons_self ..)
    rw [List.foldl_cons, keep_of_new new, ih (by simpa using apart)]
    simp

theorem distinct_of_apart (apart : Apart items) : distinct items = items :=
  foldl_keep_of_apart apart

def keepEntry (kept : List (Value × Value)) (entry : Value × Value) : List (Value × Value) :=
  putEntry kept entry.1 entry.2

theorem keepEntry_of_new (new : ∀ k ∈ kept.map (·.1), equal k entry.1 = false) :
    keepEntry kept entry = kept ++ [entry] := by
  have unequal : kept.any (fun old => equal old.1 entry.1) = false := by simpa using new
  simp [keepEntry, putEntry, unequal]

theorem keys_keepEntry (kept : List (Value × Value)) (entry : Value × Value) :
    (keepEntry kept entry).map (·.1) = keep (kept.map (·.1)) entry.1 := by
  by_cases known : kept.any (fun old => equal old.1 entry.1)
  · have sameKeys : (kept.map fun old =>
        if equal old.1 entry.1 then (old.1, entry.2) else old).map (·.1) = kept.map (·.1) := by
      rw [List.map_map]
      refine List.map_congr_left fun old _ => ?_
      simp only [Function.comp]
      split <;> rfl
    simp only [keepEntry, putEntry, keep, List.any_map, Function.comp_def, known, if_true, sameKeys]
  · simp [keepEntry, putEntry, keep, List.any_map, Function.comp_def, known]

theorem keys_distinctEntries (entries : List (Value × Value)) :
    (distinctEntries entries).map (·.1) = distinct (entries.map (·.1)) := by
  have general (kept : List (Value × Value)) :
      (entries.foldl keepEntry kept).map (·.1) =
        (entries.map (·.1)).foldl keep (kept.map (·.1)) := by
    induction entries generalizing kept with
    | nil => rfl
    | cons entry rest ih => rw [List.foldl_cons, ih, keys_keepEntry, List.map_cons, List.foldl_cons]
  exact general []

theorem foldl_keepEntry_of_apart (apart : Apart ((kept ++ entries).map (·.1))) :
    entries.foldl keepEntry kept = kept ++ entries := by
  induction entries generalizing kept with
  | nil => simp
  | cons entry rest ih =>
    have new : ∀ k ∈ kept.map (·.1), equal k entry.1 = false := by
      rw [List.map_append] at apart
      exact fun k member => (List.pairwise_append.mp apart).2.2 k member _ (by simp)
    rw [List.foldl_cons, keepEntry_of_new new, ih (by simpa using apart)]
    simp

theorem distinctEntries_of_apart (apart : Apart (entries.map (·.1))) :
    distinctEntries entries = entries :=
  foldl_keepEntry_of_apart apart

theorem mem_of_mem_distinctEntries (member : entry ∈ distinctEntries entries) :
    entry.1 ∈ entries.map (·.1) ∧ entry.2 ∈ entries.map (·.2) := by
  have all : ∀ entry ∈ entries.foldl keepEntry [],
      entry.1 ∈ entries.map (·.1) ∧ entry.2 ∈ entries.map (·.2) := by
    refine List.foldlRecOn (motive := fun kept => ∀ entry ∈ kept,
      entry.1 ∈ entries.map (·.1) ∧ entry.2 ∈ entries.map (·.2)) entries keepEntry ?_ ?_
    · simp
    · intro kept known new inEntries entry member
      have newKey : new.1 ∈ entries.map (·.1) := List.mem_map_of_mem inEntries
      have newValue : new.2 ∈ entries.map (·.2) := List.mem_map_of_mem inEntries
      unfold keepEntry putEntry at member
      split at member
      · obtain ⟨old, inKept, rfl⟩ := List.mem_map.mp member
        split
        · exact ⟨(known old inKept).1, newValue⟩
        · exact known old inKept
      · rcases List.mem_append.mp member with before | last
        · exact known entry before
        · rw [List.mem_singleton.mp last]
          exact ⟨newKey, newValue⟩
  exact all entry member

end Value

theorem lookup_of_mem {α : Type} {entries : List (String × α)} {name : String} {a : α}
    (apart : (entries.map (·.1)).Nodup) (member : (name, a) ∈ entries) :
    entries.lookup name = some a := by
  obtain ⟨before, after, rfl⟩ := List.append_of_mem member
  rw [List.map_append, List.map_cons] at apart
  have fresh : ∀ entry ∈ before, name ≠ entry.1 := by
    rintro entry known rfl
    have repeats := (List.nodup_append.mp apart).2.2 entry.1 (List.mem_map_of_mem known) entry.1
    exact repeats (List.mem_cons_self ..) rfl
  exact List.lookup_eq_some_iff.mpr ⟨before, after, rfl, by simpa using fresh⟩

namespace Run

variable {fields given : List (String × Value)}

theorem setItems_eq_ok (each : ∀ v ∈ items, v.hashable) :
    setItems items = .ok (Value.distinct items) := by
  have none : items.find? (fun v => !v.hashable) = none := by simpa using each
  simp [setItems, none]

theorem dictEntries_eq_ok (each : ∀ entry ∈ entries, entry.1.hashable) :
    dictEntries entries = .ok (Value.distinctEntries entries) := by
  have none : entries.find? (fun entry => !entry.1.hashable) = none := by simpa using each
  simp [dictEntries, none]

theorem of_setItems (made : setItems items = .ok kept) :
    kept = Value.distinct items ∧ ∀ v ∈ items, v.hashable := by
  unfold setItems at made
  split at made
  · cases made
  · rename_i none
    cases made
    exact ⟨rfl, by simpa using none⟩

theorem of_dictEntries {kept : List (Value × Value)} (made : dictEntries entries = .ok kept) :
    kept = Value.distinctEntries entries ∧ ∀ entry ∈ entries, entry.1.hashable := by
  unfold dictEntries at made
  split at made
  · cases made
  · rename_i none
    cases made
    exact ⟨rfl, by simpa using none⟩

theorem replaceFields_eq (known : ∀ d ∈ given, d.1 ∈ fields.map (·.1)) :
    replaceFields fields given =
      .ok (fields.map fun field => (field.1, (given.reverse.lookup field.1).getD field.2)) := by
  induction given generalizing fields with
  | nil => simp [replaceFields]
  | cons d rest ih =>
    obtain ⟨first, later⟩ := List.forall_mem_cons.mp known
    obtain ⟨name, value⟩ := d
    have present : fields.any (fun field => field.1 == name) := by simpa using first
    have names : (fields.map fun field => if field.1 == name then (name, value) else field).map
        (·.1) = fields.map (·.1) := by
      rw [List.map_map]
      refine List.map_congr_left fun field _ => ?_
      simp only [Function.comp]
      split <;> simp_all
    rw [replaceFields, if_pos present, ih (by rwa [names]), List.map_map]
    congr 1
    refine List.map_congr_left fun field _ => ?_
    by_cases same : field.1 = name
    · simp [same, List.lookup_append]
    · have other : (field.1 == name) = false := by simpa using same
      simp [same, other, List.lookup_append, List.lookup_cons]

theorem replaceFields_all (names : given.map (·.1) = fields.map (·.1))
    (apart : (fields.map (·.1)).Nodup) : replaceFields fields given = .ok given := by
  have known : ∀ d ∈ given, d.1 ∈ fields.map (·.1) := fun d member =>
    names ▸ List.mem_map_of_mem member
  have looked : ∀ d ∈ given, given.reverse.lookup d.1 = some d.2 := by
    intro d member
    refine lookup_of_mem ?_ (List.mem_reverse.mpr member)
    rw [List.map_reverse, names]
    exact List.pairwise_reverse.mpr (apart.imp Ne.symm)
  have same : fields.map (fun field => (field.1, (given.reverse.lookup field.1).getD field.2)) =
      given :=
    calc fields.map (fun field => (field.1, (given.reverse.lookup field.1).getD field.2))
        = (fields.map (·.1)).map fun name => (name, (given.reverse.lookup name).getD .null) := by
          rw [List.map_map]
          refine List.map_congr_left fun field member => ?_
          obtain ⟨d, inGiven, same⟩ : ∃ d ∈ given, d.1 = field.1 :=
            List.mem_map.mp (names ▸ List.mem_map_of_mem member)
          simp [← same, looked d inGiven]
      _ = given.map id := by
          rw [← names, List.map_map]
          refine List.map_congr_left fun d member => ?_
          simp [looked d member]
      _ = given := List.map_id given
  rw [replaceFields_eq known, same]

end Run
end IdlGen
