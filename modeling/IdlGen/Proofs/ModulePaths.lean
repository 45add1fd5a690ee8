import IdlGen.Proofs.Paths
import IdlGen.Name

/-!
Module paths of output names. The segments of a module path are those of the output name
(`Name.split_modulePath`), and no path has a capital in it.
-/
namespace IdlGen

namespace Text

theorem above_of_mapCodePoint {ranges : List CaseRange} {bound code image : Nat}
    (above : ∀ r ∈ ranges, Int.ofNat bound < Int.ofNat r.first + r.offset)
    (mapped : mapCodePoint ranges code = some image) : bound < image := by
  obtain ⟨r, found, rfl⟩ := Option.map_eq_some_iff.mp mapped
  have start := above r (List.mem_of_find?_eq_some found)
  have inRange := List.find?_some found
  simp only [Bool.and_eq_true, decide_eq_true_eq] at inRange
  obtain ⟨⟨first, -⟩, -⟩ := inRange
  simp only [Int.ofNat_eq_natCast] at start ⊢
  omega

theorem lowerRanges_above : ∀ r ∈ lowerRanges, 0x60 < Int.ofNat r.first + r.offset := by
  decide +kernel

theorem upperRanges_above : ∀ r ∈ upperRanges, 0x40 < Int.ofNat r.first + r.offset := by
  decide +kernel

theorem upperSequences_above : ∀ entry ∈ upperSequences, ∀ code ∈ entry.2, 0x40 < code := by
  decide +kernel

variable {x c : Char} {chars : List Char}

theorem ne_ofNat {n : Nat} (positive : 0 < x.toNat) (above : x.toNat < n) : x ≠ Char.ofNat n := by
  rintro rfl
  by_cases valid : n.isValidChar
  · have same : (Char.ofNat n).toNat = n := by
      rw [Char.ofNat, dif_pos valid]
      rfl
    omega
  · have none : (Char.ofNat n).toNat = 0 := by
      rw [Char.ofNat, dif_neg valid]
      rfl
    omega

def IsLow (x : Char) : Prop := 0 < x.toNat ∧ x.toNat ≤ 0x60

theorem IsLow.ne_ofNat (low : IsLow x) {n : Nat} (above : 0x60 < n) : x ≠ Char.ofNat n :=
  Text.ne_ofNat low.1 (Nat.lt_of_le_of_lt low.2 above)

theorem IsLow.eq_of_toLower (low : IsLow x) (ascii : c.toNat < 0x80) (same : x = c.toLower) :
    c = x ∧ ¬ x.isUpper := by
  have unchanged : ∀ n < 0x80, (Char.ofNat n).toLower.toNat ≤ 0x60 →
      Char.ofNat n = (Char.ofNat n).toLower ∧ ¬ (Char.ofNat n).toLower.isUpper := by decide
  have here := unchanged c.toNat ascii
  rw [Char.ofNat_toNat, ← same] at here
  exact here low.2

theorem IsLow.eq_of_mem_lowerChar (low : IsLow x) (member : x ∈ lowerChar c) :
    c = x ∧ ¬ x.isUpper := by
  unfold lowerChar at member
  split at member
  · rw [List.mem_cons, List.mem_singleton] at member
    rcases member with dotted | mark
    · exact absurd dotted (low.ne_ofNat (n := 0x69) (by decide))
    · exact absurd mark (low.ne_ofNat (by decide))
  · rw [List.mem_singleton, mapSimple] at member
    by_cases ascii : c.toNat < 0x80
    · rw [if_pos ascii] at member
      exact low.eq_of_toLower ascii member
    · rw [if_neg ascii] at member
      cases mapped : mapCodePoint lowerRanges c.toNat with
      | some image =>
        rw [mapped] at member
        exact absurd member (low.ne_ofNat (above_of_mapCodePoint lowerRanges_above mapped))
      | none =>
        rw [mapped] at member
        dsimp only at member
        rw [← member] at ascii
        exact absurd low.2 (by omega)

variable {before : List Char} {sep : Char}

theorem IsLow.eq_of_mem_lowerBetween (low : IsLow x) {after : List Char}
    (member : x ∈ lowerBetween before c after) : c = x ∧ ¬ x.isUpper := by
  unfold lowerBetween at member
  split at member
  · refine absurd (List.mem_singleton.mp member) (low.ne_ofNat ?_)
    split <;> decide
  · exact low.eq_of_mem_lowerChar member

theorem IsLow.mem_of_mem_lowerFrom (low : IsLow x) (member : x ∈ lowerFrom before chars) :
    x ∈ chars ∧ ¬ x.isUpper := by
  induction chars generalizing before with
  | nil => cases member
  | cons c rest ih =>
    rw [lowerFrom, List.mem_append] at member
    rcases member with here | later
    · obtain ⟨same, small⟩ := low.eq_of_mem_lowerBetween here
      exact ⟨List.mem_cons.mpr (.inl same.symm), small⟩
    · exact (ih later).imp_left (List.mem_cons_of_mem c)

theorem lowerFrom_starts_slash :
    (∃ rest, lowerFrom before (c :: chars) = '/' :: rest) ↔ c = '/' := by
  constructor
  · rintro ⟨rest, starts⟩
    have filled : lowerBetween before c chars ≠ [] := by
      unfold lowerBetween lowerChar
      split
      · exact List.cons_ne_nil _ _
      · split <;> exact List.cons_ne_nil _ _
    obtain ⟨head, others, lowered⟩ := List.exists_cons_of_ne_nil filled
    rw [lowerFrom, lowered, List.cons_append] at starts
    have inside : '/' ∈ lowerBetween before c chars := by
      rw [lowered, (List.cons.inj starts).1]
      exact List.mem_cons_self
    exact (IsLow.eq_of_mem_lowerBetween ⟨by decide, by decide⟩ inside).1
  · rintro rfl
    exact ⟨_, rfl⟩

theorem IsLow.mem_of_mem_lower (low : IsLow x) (member : x ∈ lower chars) :
    x ∈ chars ∧ ¬ x.isUpper := low.mem_of_mem_lowerFrom member

theorem eq_dot_of_mem_upperChar (member : '.' ∈ upperChar c) : c = '.' := by
  unfold upperChar sequenceOf at member
  by_cases ascii : c.toNat < 0x80
  · rw [if_pos ascii, Option.getD_none, List.mem_singleton, mapSimple, if_pos ascii] at member
    have dots : ∀ n < 0x80, '.' = (Char.ofNat n).toUpper → n = 0x2E := by decide
    rw [← Char.ofNat_toNat c] at member ⊢
    rw [dots _ ascii member]
  · rw [if_neg ascii] at member
    exfalso
    cases codes : upperSequences.lookup c.toNat with
    | some image =>
      rw [codes, Option.map_some, Option.getD_some] at member
      obtain ⟨code, known, same⟩ := List.mem_map.mp member
      obtain ⟨_, _, table, -⟩ := List.lookup_eq_some_iff.mp codes
      have entry : (c.toNat, image) ∈ upperSequences := by simp [table]
      have above := upperSequences_above _ entry code known
      exact ne_ofNat (by decide) (Nat.lt_trans (by decide) above) same.symm
    | none =>
      rw [codes, Option.map_none, Option.getD_none, List.mem_singleton, mapSimple,
        if_neg ascii] at member
      cases mapped : mapCodePoint upperRanges c.toNat with
      | some image =>
        rw [mapped] at member
        have above := above_of_mapCodePoint upperRanges_above mapped
        exact ne_ofNat (by decide) (Nat.lt_trans (by decide) above) member
      | none =>
        rw [mapped] at member
        dsimp only at member
        rw [← member] at ascii
        exact ascii (by decide)

theorem getLast?_lowerFrom (small : chars.getLast? = some 'a') (before : List Char) :
    (lowerFrom before chars).getLast? = some 'a' := by
  induction chars generalizing before with
  | nil => cases small
  | cons c rest ih =>
    rw [lowerFrom, List.getLast?_append]
    cases rest with
    | nil =>
      cases small
      rfl
    | cons next others =>
      rw [List.getLast?_cons_cons] at small
      rw [ih small]
      rfl

/-! ### Pieces -/

theorem split_ne_nil (sep : Char) (s : String) : split sep s ≠ [] := by
  simpa [split] using splitAt_ne_nil sep s.toList

theorem split_join_dot {pieces : List String} (nonempty : pieces ≠ [])
    (free : ∀ piece ∈ pieces, '.' ∉ piece.toList) : split '.' (join "." pieces) = pieces := by
  have chars : (join "." pieces).toList = ['.'].intercalate (pieces.map String.toList) := by
    simp [join, String.toList_intercalate]
  rw [split, chars, splitAt_intercalate (by simpa using nonempty) (by simpa using free)]
  simp

theorem split_eq_cons (sep : Char) (s : String) :
    ∃ rest, split sep s = (partition sep s).1 :: rest := by
  obtain ⟨free, whole⟩ := cutFirst_eq sep s.toList
  have first : (partition sep s).1 = String.ofList (cutFirst sep s.toList).1 := rfl
  rw [split, first]
  cases after : (cutFirst sep s.toList).2 with
  | none =>
    rw [after] at whole
    simp only [Option.map_none, Option.getD_none, List.append_nil] at whole
    rw [splitAt_of_not_mem (whole ▸ free)]
    exact ⟨[], by rw [List.map_singleton, ← whole]⟩
  | some rest =>
    rw [after] at whole
    simp only [Option.map_some, Option.getD_some] at whole
    refine ⟨(splitAt sep rest).map String.ofList, ?_⟩
    nth_rewrite 1 [whole]
    rw [splitAt_append_sep, splitAt_of_not_mem free, List.map_append, List.map_singleton,
      List.singleton_append]

theorem splitAt_append {more : List Char} (free : sep ∉ more) (chars : List Char) :
    ∃ front piece, splitAt sep chars = front ++ [piece] ∧
      splitAt sep (chars ++ more) = front ++ [piece ++ more] := by
  induction chars with
  | nil => exact ⟨[], [], rfl, by rw [List.nil_append, splitAt_of_not_mem free]; rfl⟩
  | cons c rest ih =>
    obtain ⟨front, piece, whole, longer⟩ := ih
    by_cases isSep : c = sep
    · subst isSep
      refine ⟨[] :: front, piece, ?_, ?_⟩
      · rw [splitAt_cons_sep, whole, List.cons_append]
      · rw [List.cons_append, splitAt_cons_sep, longer, List.cons_append]
    · rw [List.cons_append, splitAt, splitAt, if_neg isSep, if_neg isSep, whole, longer]
      cases front with
      | nil => exact ⟨[], c :: piece, rfl, rfl⟩
      | cons first others => exact ⟨(c :: first) :: others, piece, rfl, rfl⟩

theorem split_append {more : String} (free : sep ∉ more.toList) (s : String) :
    ∃ front piece, split sep s = front ++ [piece] ∧
      split sep (s ++ more) = front ++ [piece ++ more] := by
  obtain ⟨front, piece, whole, longer⟩ := splitAt_append free s.toList
  refine ⟨front.map String.ofList, String.ofList piece, ?_, ?_⟩
  · rw [split, whole, List.map_append, List.map_singleton]
  · rw [split, String.toList_append, longer, List.map_append, List.map_singleton,
      String.ofList_append, String.ofList_toList]

theorem not_mem_of_mem_split {s piece : String} (member : piece ∈ split sep s) :
    sep ∉ piece.toList := by
  obtain ⟨chars, known, rfl⟩ := List.mem_map.mp member
  rw [String.toList_ofList]
  exact not_mem_of_mem_splitAt known

end Text

namespace Name

theorem mem_of_mem_separateWords {x : Char} {chars : List Char} (other : x ≠ '_')
    (member : x ∈ separateWords chars) : x ∈ chars := by
  induction chars using separateWords.induct with
  | case1 => exact member
  | case2 c => exact member
  | case3 previous current rest starts ih =>
    rw [separateWords, if_pos starts] at member
    simp only [List.mem_cons, other, false_or] at member ih ⊢
    exact member.imp_right ih
  | case4 previous current rest starts ih =>
    rw [separateWords, if_neg starts] at member
    simp only [List.mem_cons] at member ih ⊢
    exact member.imp_right ih

variable {name : String}

/-- The name in small letters has no capitals, and other characters below the small letters only
    if the name has them. -/
theorem mem_of_mem_underscore {x : Char} (low : Text.IsLow x) (other : x ≠ '_')
    (member : x ∈ (underscore name).toList) : x ∈ name.toList ∧ ¬ x.isUpper := by
  rw [underscore, String.toList_ofList] at member
  obtain ⟨mapped, lower⟩ := low.mem_of_mem_lower member
  obtain ⟨c, known, same⟩ := List.mem_map.mp mapped
  by_cases hyphen : c = '-'
  · rw [if_pos hyphen] at same
    exact absurd same.symm other
  · rw [if_neg hyphen] at same
    rw [same] at known
    exact ⟨mem_of_mem_separateWords other known, lower⟩

theorem dot_not_mem_underscore (free : '.' ∉ name.toList) :
    '.' ∉ (underscore name).toList := fun member =>
  free (mem_of_mem_underscore ⟨by decide, by decide⟩ (by decide) member).1

theorem split_modulePath (output : String) :
    Text.split '.' (modulePath output) = (Text.split '.' output).map underscore := by
  have nonempty := Text.split_ne_nil '.' output
  refine Text.split_join_dot (by simpa using nonempty) fun segment member => ?_
  obtain ⟨piece, known, rfl⟩ := List.mem_map.mp member
  exact dot_not_mem_underscore (Text.not_mem_of_mem_split known)

theorem partition_modulePath (output : String) :
    (Text.partition '.' (modulePath output)).1 = underscore (Text.partition '.' output).1 := by
  obtain ⟨rest, pieces⟩ := Text.split_eq_cons '.' output
  obtain ⟨others, segments⟩ := Text.split_eq_cons '.' (modulePath output)
  rw [split_modulePath, pieces, List.map_cons] at segments
  exact (List.cons.inj segments).1.symm

theorem isAbsolute_underscore (name : String) :
    Path.isAbsolute (underscore name) ↔ Path.isAbsolute name := by
  rw [Place.isAbsolute_iff, Place.isAbsolute_iff, underscore, String.toList_ofList, Text.lower]
  cases name.toList with
  | nil => exact Iff.rfl
  | cons c rest =>
    obtain ⟨more, first⟩ : ∃ more, separateWords (c :: rest) = c :: more := by
      cases rest with
      | nil => exact ⟨[], rfl⟩
      | cons next rest =>
        rw [separateWords]
        split <;> exact ⟨_, rfl⟩
    rw [first, List.map_cons, Text.lowerFrom_starts_slash]
    constructor
    · intro same
      split at same
      · cases same
      · exact ⟨rest, by rw [same]⟩
    · rintro ⟨chars, starts⟩
      rw [(List.cons.inj starts).1]
      rfl

theorem getLast?_separateWords (chars : List Char) :
    (separateWords chars).getLast? = chars.getLast? := by
  induction chars using separateWords.induct with
  | case1 => rfl
  | case2 c => rfl
  | case3 previous current rest starts ih =>
    rw [separateWords, if_pos starts, List.getLast?_cons, List.getLast?_cons, ih]
    simp [List.getLast?_cons]
  | case4 previous current rest starts ih =>
    rw [separateWords, if_neg starts, List.getLast?_cons, ih]
    simp [List.getLast?_cons]

theorem getLast?_underscore (small : name.toList.getLast? = some 'a') :
    (underscore name).toList.getLast? = some 'a' := by
  rw [underscore, String.toList_ofList]
  refine Text.getLast?_lowerFrom ?_ []
  rw [List.getLast?_map, getLast?_separateWords, small]
  rfl

theorem split_companion (output : String) :
    ∃ front piece, Text.split '.' output = front ++ [piece] ∧
      Text.split '.' (modulePath (companion output)) =
        front.map underscore ++ [underscore (piece ++ "TestData")] := by
  have free : '.' ∉ "TestData".toList := by decide
  obtain ⟨front, piece, whole, longer⟩ := Text.split_append free output
  refine ⟨front, piece, whole, ?_⟩
  rw [split_modulePath, companion, longer, List.map_append, List.map_singleton]

/-- A path whose last segment does not end as companions do is not the path of a companion. -/
theorem modulePath_companion_ne {path : String} {front : List String} {last : String}
    (segments : Text.split '.' path = front ++ [last]) (other : last.toList.getLast? ≠ some 'a')
    (output : String) : modulePath (companion output) ≠ path := by
  rintro rfl
  obtain ⟨_, piece, -, own⟩ := split_companion output
  obtain ⟨-, same⟩ := List.append_inj' (own.symm.trans segments) rfl
  cases same
  exact other (getLast?_underscore (by simp))

theorem sublist_separateWords (chars : List Char) : chars.Sublist (separateWords chars) := by
  induction chars using separateWords.induct with
  | case1 => exact .refl _
  | case2 c => exact .refl _
  | case3 previous current rest starts ih =>
    rw [separateWords, if_pos starts]
    exact .cons_cons _ (.cons _ ih)
  | case4 previous current rest starts ih =>
    rw [separateWords, if_neg starts]
    exact .cons_cons _ ih

theorem startsWord_of_none {previous current : Char} (starts : startsWord previous current none)
    (next : Option Char) : startsWord previous current next := by
  simp only [startsWord, Option.any_none, Bool.and_false, Bool.or_false, Bool.and_eq_true] at starts
  simp [startsWord, starts]

theorem sublist_separateWords_append (chars more : List Char) :
    (separateWords chars ++ more).Sublist (separateWords (chars ++ more)) := by
  induction chars using separateWords.induct with
  | case1 => exact sublist_separateWords more
  | case2 c => exact sublist_separateWords (c :: more)
  | case3 previous current rest starts ih =>
    have longer : startsWord previous current (rest ++ more).head? := by
      cases rest with
      | nil => exact startsWord_of_none starts _
      | cons next others => exact starts
    have whole : separateWords (previous :: current :: (rest ++ more)) =
        previous :: '_' :: separateWords (current :: (rest ++ more)) := by
      rw [separateWords, if_pos longer]
    rw [separateWords, if_pos starts, List.cons_append, List.cons_append, List.cons_append,
      List.cons_append, whole]
    exact .cons_cons _ (.cons_cons _ ih)
  | case4 previous current rest starts ih =>
    rw [separateWords, if_neg starts, List.cons_append, List.cons_append, List.cons_append]
    by_cases longer : startsWord previous current (rest ++ more).head?
    · have whole : separateWords (previous :: current :: (rest ++ more)) =
          previous :: '_' :: separateWords (current :: (rest ++ more)) := by
        rw [separateWords, if_pos longer]
      rw [whole]
      exact .cons_cons _ (.cons _ ih)
    · have whole : separateWords (previous :: current :: (rest ++ more)) =
          previous :: separateWords (current :: (rest ++ more)) := by
        rw [separateWords, if_neg longer]
      rw [whole]
      exact .cons_cons _ ih

theorem length_lowerFrom (before chars : List Char) :
    (Text.lowerFrom before chars).length = (chars.flatMap Text.lowerChar).length := by
  induction chars generalizing before with
  | nil => rfl
  | cons c rest ih =>
    have here : (Text.lowerBetween before c rest).length = (Text.lowerChar c).length := by
      unfold Text.lowerBetween
      split
      · rename_i sigma
        simp [Text.lowerChar, sigma]
      · rfl
    rw [Text.lowerFrom, List.length_append, here, ih, List.flatMap_cons, List.length_append]

theorem length_flatMap_le {α β : Type} (f : α → List β) {part whole : List α}
    (inside : part.Sublist whole) : (part.flatMap f).length ≤ (whole.flatMap f).length := by
  induction inside with
  | slnil => exact Nat.le_refl _
  | cons a _ ih =>
    rw [List.flatMap_cons, List.length_append]
    omega
  | cons_cons a _ ih =>
    rw [List.flatMap_cons, List.flatMap_cons, List.length_append, List.length_append]
    omega

theorem length_underscore_append (name ending : String) :
    (underscore name).toList.length +
        ((ending.toList.map fun c => if c = '-' then '_' else c).flatMap Text.lowerChar).length ≤
      (underscore (name ++ ending)).toList.length := by
  have inside := (sublist_separateWords_append name.toList ending.toList).map fun c =>
    if c = '-' then '_' else c
  have longer := length_flatMap_le Text.lowerChar inside
  simpa [underscore, Text.lower, length_lowerFrom] using longer

theorem modulePath_ne_companion (output : String) :
    modulePath (companion output) ≠ modulePath output := by
  intro same
  obtain ⟨front, piece, whole, own⟩ := split_companion output
  rw [same, split_modulePath, whole, List.map_append, List.map_singleton] at own
  obtain ⟨-, last⟩ := List.append_inj' own rfl
  have shorter := length_underscore_append piece "TestData"
  rw [← List.singleton_inj.mp last] at shorter
  have ending : 0 < (("TestData".toList.map fun c => if c = '-' then '_' else c).flatMap
      Text.lowerChar).length := by decide
  omega

end Name
end IdlGen
