import IdlGen.Table
import Mathlib.Data.List.Induction
import Mathlib.Data.List.Nodup

/-!
Tables and first occurrences: what a table gives after a write (`get?_put`), and
`firstOccurrences` as the library's `eraseDups`.
-/
namespace IdlGen

section
variable {α : Type} [BEq α] [LawfulBEq α] {items : List α} {item : α}

theorem eraseDups_concat_of_mem (known : item ∈ items) :
    (items ++ [item]).eraseDups = items.eraseDups := by
  simp [List.eraseDups_append, List.removeAll, known]

theorem eraseDups_concat_of_not_mem (fresh : item ∉ items) :
    (items ++ [item]).eraseDups = items.eraseDups ++ [item] := by
  simp [List.eraseDups_append, List.removeAll, fresh, List.eraseDups_cons]

theorem nodup_eraseDups (items : List α) : items.eraseDups.Nodup := by
  induction items using List.reverseRecOn with
  | nil => simp
  | append_singleton items item ih =>
    by_cases known : item ∈ items
    · rwa [eraseDups_concat_of_mem known]
    · have fresh : item ∉ items.eraseDups := fun member => known (List.mem_eraseDups.mp member)
      rw [eraseDups_concat_of_not_mem known]
      exact ih.append (List.nodup_singleton item) (List.disjoint_singleton.mpr fresh)

theorem eraseDups_eraseDups (items : List α) : items.eraseDups.eraseDups = items.eraseDups := by
  induction items using List.reverseRecOn with
  | nil => rfl
  | append_singleton items item ih =>
    by_cases known : item ∈ items
    · rw [eraseDups_concat_of_mem known, ih]
    · have fresh : item ∉ items.eraseDups := fun member => known (List.mem_eraseDups.mp member)
      rw [eraseDups_concat_of_not_mem known, eraseDups_concat_of_not_mem fresh, ih]

theorem eraseDups_eraseDups_append (items more : List α) :
    (items.eraseDups ++ more).eraseDups = (items ++ more).eraseDups := by
  induction more using List.reverseRecOn with
  | nil => rw [List.append_nil, List.append_nil, eraseDups_eraseDups]
  | append_singleton more item ih =>
    rw [← List.append_assoc, ← List.append_assoc]
    by_cases known : item ∈ items ++ more
    · have before : item ∈ items.eraseDups ++ more := by
        simpa [List.mem_eraseDups] using known
      rw [eraseDups_concat_of_mem known, eraseDups_concat_of_mem before, ih]
    · have fresh : item ∉ items.eraseDups ++ more := by
        simpa [List.mem_eraseDups] using known
      rw [eraseDups_concat_of_not_mem known, eraseDups_concat_of_not_mem fresh, ih]

theorem firstOccurrences_eq (items : List α) : firstOccurrences items = items.eraseDups := by
  induction items using List.reverseRecOn with
  | nil => rfl
  | append_singleton items item ih =>
    rw [firstOccurrences, List.foldl_append, ← firstOccurrences, ih]
    by_cases known : item ∈ items
    · simp [eraseDups_concat_of_mem known, List.mem_eraseDups, known]
    · simp [eraseDups_concat_of_not_mem known, List.mem_eraseDups, known]

end

namespace Table

variable {α : Type}

def keys (table : Table α) : List String := table.map (·.1)

theorem keys_cons (key : String) (value : α) (rest : Table α) :
    keys ((key, value) :: rest) = key :: keys rest := rfl

variable {key : String} {value : α} {table : Table α}

private theorem lookup_cons_ne {first : String} {rest : List (String × α)} (away : key ≠ first) :
    List.lookup key ((first, value) :: rest) = List.lookup key rest := by
  have differs : (key == first) = false := beq_eq_false_iff_ne.mpr away
  rw [List.lookup_cons, differs]

theorem get?_put (table : Table α) (key other : String) (value : α) :
    (table.put key value).get? other = if other = key then some value else table.get? other := by
  induction table with
  | nil => by_cases same : other = key <;> simp [put, get?, same]
  | cons entry rest ih =>
    obtain ⟨first, kept⟩ := entry
    simp only [get?] at ih ⊢
    by_cases here : first = key
    · subst here
      by_cases same : other = first
      · simp [put, same]
      · simp [put, lookup_cons_ne same, same]
    · by_cases found : other = first
      · subst found
        simp [put, here]
      · simp [put, here, lookup_cons_ne found, ih]

theorem keys_put_of_mem (value : α) (known : key ∈ table.keys) :
    (table.put key value).keys = table.keys := by
  induction table with
  | nil => simp [keys] at known
  | cons entry rest ih =>
    obtain ⟨first, kept⟩ := entry
    by_cases here : first = key
    · simp [put, here, keys_cons]
    · have later : key ∈ keys rest := by
        rw [keys_cons] at known
        exact (List.mem_cons.mp known).resolve_left (Ne.symm here)
      rw [put, if_neg here, keys_cons, ih later, keys_cons]

theorem put_of_not_mem (value : α) (fresh : key ∉ table.keys) :
    table.put key value = table ++ [(key, value)] := by
  induction table with
  | nil => rfl
  | cons entry rest ih =>
    obtain ⟨first, kept⟩ := entry
    rw [keys_cons, List.mem_cons, not_or] at fresh
    rw [put, if_neg (Ne.symm fresh.1), ih fresh.2, List.cons_append]

theorem keys_put_of_not_mem (value : α) (fresh : key ∉ table.keys) :
    (table.put key value).keys = table.keys ++ [key] := by
  rw [put_of_not_mem value fresh, keys, List.map_append]
  rfl

theorem get?_isSome_iff (table : Table α) (key : String) :
    (table.get? key).isSome ↔ key ∈ table.keys := by
  simp only [get?, keys, List.lookup_isSome_iff, List.mem_map, beq_iff_eq]
  exact ⟨fun ⟨entry, member, same⟩ => ⟨entry, member, same.symm⟩,
    fun ⟨entry, member, same⟩ => ⟨entry, member, same.symm⟩⟩

theorem get?_eq_none_iff (table : Table α) (key : String) :
    table.get? key = none ↔ key ∉ table.keys := by
  rw [← get?_isSome_iff, Option.not_isSome_iff_eq_none]

theorem mem_of_get? (found : table.get? key = some value) : (key, value) ∈ table := by
  obtain ⟨before, after, split, -⟩ := List.lookup_eq_some_iff.mp found
  simp [split]

theorem get?_of_mem (distinct : table.keys.Nodup) (member : (key, value) ∈ table) :
    table.get? key = some value := by
  induction table with
  | nil => simp at member
  | cons entry rest ih =>
    obtain ⟨first, kept⟩ := entry
    rw [keys_cons, List.nodup_cons] at distinct
    rcases List.mem_cons.mp member with here | later
    · cases here
      simp [get?]
    · have away : key ≠ first := by
        rintro rfl
        exact distinct.1 (List.mem_map.mpr ⟨_, later, rfl⟩)
      rw [get?, lookup_cons_ne away]
      exact ih distinct.2 later

end Table
end IdlGen
