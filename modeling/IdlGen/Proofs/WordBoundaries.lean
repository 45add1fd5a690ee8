import IdlGen.Proofs.ModulePaths
import IdlGen.Proofs.Numerals

/-!
Names in small letters. An underscore is put before each word inside a name (`separateWords`), as
two passes over the name do (`splitSmall_splitRuns`); in ASCII nothing else is lost, added or moved
(`underscore_keeps_letters`).
-/
namespace IdlGen

open Code.Token (of_ascii)

namespace Text

/-- All characters are of ASCII. -/
def IsAscii (chars : List Char) : Prop := ∀ c ∈ chars, c.toNat < 0x80

instance (chars : List Char) : Decidable (IsAscii chars) :=
  List.decidableBAll _ chars

variable {chars : List Char}

theorem lowerFrom_ascii (ascii : IsAscii chars) (before : List Char) :
    lowerFrom before chars = chars.map Char.toLower := by
  induction chars generalizing before with
  | nil => rfl
  | cons c rest ih =>
    obtain ⟨here, later⟩ := List.forall_mem_cons.mp ascii
    have lowered : lowerBetween before c rest = [c.toLower] := by
      rw [lowerBetween, if_neg (by omega), lowerChar, if_neg (by omega), mapSimple, if_pos here]
    rw [lowerFrom, lowered, ih later, List.map_cons, List.singleton_append]

theorem lower_ascii (ascii : IsAscii chars) :
    lower chars = chars.map Char.toLower := lowerFrom_ascii ascii []

end Text

namespace Name

def isSeparator (c : Char) : Bool := c == '-' || c == '_'

def smallForm (c : Char) : Char := (if c = '-' then '_' else c).toLower

structure SmallForm (c : Char) : Prop where
  ascii : (smallForm c).toNat < 0x80
  not_isUpper : (smallForm c).isUpper = false
  not_isCapital : isCapital (smallForm c) = false
  ne_hyphen : smallForm c ≠ '-'
  idem : smallForm (smallForm c) = smallForm c
  eq_underscore_iff : smallForm c = '_' ↔ isSeparator c
  eq_toLower : isSeparator c = false → smallForm c = c.toLower
  isSeparator_toLower : isSeparator c.toLower = isSeparator c

variable {c : Char} {chars : List Char}

theorem smallForm_ascii (ascii : c.toNat < 0x80) : SmallForm c := by
  refine of_ascii (fun n small => ?_) ascii
  constructor
  all_goals
    revert n
    decide

theorem ascii_of_isCapital (capital : isCapital c) : c.toNat < 0x80 := by
  simp only [isCapital, Bool.and_eq_true, decide_eq_true_eq] at capital
  have bound : c.toNat ≤ 0x5A := UInt32.le_iff_toNat_le.mp capital.2
  omega

theorem not_small_of_isCapital (capital : isCapital c) :
    isSmall c = false ∧ Text.isDecimalDigit c = false := by
  have ascii := ascii_of_isCapital capital
  revert capital
  exact of_ascii (p := fun c => isCapital c = true →
    isSmall c = false ∧ Text.isDecimalDigit c = false) (by decide) ascii

theorem not_isCapital_of_isSmall (small : isSmall c) : isCapital c = false := by
  by_contra capital
  rw [Bool.not_eq_false] at capital
  rw [(not_small_of_isCapital capital).1] at small
  cases small

/-- The pass that puts an underscore before the last capital of a run, if a small letter follows.
    What a match has used up is not looked at again. -/
def splitRuns : List Char → List Char
  | previous :: current :: next :: rest =>
    if isCapital previous && isCapital current && isSmall next then
      previous :: '_' :: current :: next :: splitRuns rest
    else previous :: splitRuns (current :: next :: rest)
  | chars => chars

/-- The pass that puts an underscore between a small letter or a digit and a capital. -/
def splitSmall : List Char → List Char
  | previous :: current :: rest =>
    if (isSmall previous || Text.isDecimalDigit previous) && isCapital current then
      previous :: '_' :: current :: splitSmall rest
    else previous :: splitSmall (current :: rest)
  | chars => chars

theorem splitRuns_of_not_capital (plain : isCapital c = false) (rest : List Char) :
    splitRuns (c :: rest) = c :: splitRuns rest := by
  match rest with
  | [] | [_] => rfl
  | _ :: _ :: _ => simp [splitRuns, plain]

theorem splitSmall_of_not_small (plain : (isSmall c || Text.isDecimalDigit c) = false)
    (rest : List Char) : splitSmall (c :: rest) = c :: splitSmall rest := by
  cases rest with
  | nil => rfl
  | cons _ _ => simp [splitSmall, plain]

/-- What a match has used up begins no other match. -/
theorem splitRuns_cons (previous current : Char) (rest : List Char) :
    splitRuns (previous :: current :: rest) =
      if isCapital previous && isCapital current && rest.head?.any isSmall then
        previous :: '_' :: splitRuns (current :: rest)
      else previous :: splitRuns (current :: rest) := by
  cases rest with
  | nil => simp [splitRuns]
  | cons next rest =>
    by_cases found : isCapital previous && isCapital current && isSmall next
    · have small : isSmall next := (Bool.and_eq_true_iff.mp found).2
      have plain := not_isCapital_of_isSmall small
      have later : splitRuns (current :: next :: rest) = current :: next :: splitRuns rest := by
        rw [← splitRuns_of_not_capital plain]
        cases rest <;> simp [splitRuns, plain]
      rw [splitRuns, if_pos found, later]
      exact (if_pos found).symm
    · rw [splitRuns, if_neg found]
      exact (if_neg found).symm

theorem splitSmall_cons (previous current : Char) (rest : List Char) :
    splitSmall (previous :: current :: rest) =
      if (isSmall previous || Text.isDecimalDigit previous) && isCapital current then
        previous :: '_' :: splitSmall (current :: rest)
      else previous :: splitSmall (current :: rest) := by
  by_cases found : (isSmall previous || Text.isDecimalDigit previous) && isCapital current
  · obtain ⟨small, digit⟩ := not_small_of_isCapital (Bool.and_eq_true_iff.mp found).2
    rw [splitSmall, if_pos found, if_pos found, splitSmall_of_not_small (by simp [small, digit])]
  · rw [splitSmall, if_neg found, if_neg found]

theorem splitRuns_head (c : Char) (rest : List Char) : ∃ tail, splitRuns (c :: rest) = c :: tail := by
  cases rest with
  | nil => exact ⟨[], rfl⟩
  | cons next rest =>
    rw [splitRuns_cons]
    split <;> exact ⟨_, rfl⟩

/-- The two passes put underscores where words start. -/
theorem splitSmall_splitRuns (chars : List Char) :
    splitSmall (splitRuns chars) = separateWords chars := by
  induction chars with
  | nil => rfl
  | cons previous rest ih =>
    cases rest with
    | nil => rfl
    | cons current rest =>
      obtain ⟨tail, later⟩ := splitRuns_head current rest
      rw [separateWords, splitRuns_cons, ← ih, later]
      by_cases inRun : isCapital previous && isCapital current && rest.head?.any isSmall
      · have starts : startsWord previous current rest.head? := by
          simp_all [startsWord]
        have mark : (isSmall '_' || Text.isDecimalDigit '_') = false := by decide
        rw [if_pos inRun, if_pos starts, splitSmall_cons, if_neg (by simp [isCapital]),
          splitSmall_of_not_small mark]
      · have same : startsWord previous current rest.head? =
            ((isSmall previous || Text.isDecimalDigit previous) && isCapital current) := by
          simp only [startsWord]
          grind
        rw [if_neg inRun, splitSmall_cons, same]

theorem filter_separateWords {p : Char → Bool} (mark : p '_' = false) (chars : List Char) :
    (separateWords chars).filter p = chars.filter p := by
  induction chars using separateWords.induct with
  | case1 => rfl
  | case2 c => rfl
  | case3 previous current rest starts ih =>
    have skipped : ('_' :: separateWords (current :: rest)).filter p =
        (current :: rest).filter p := by
      rw [List.filter_cons_of_neg (by simp [mark]), ih]
    rw [separateWords, if_pos starts, List.filter_cons, skipped, ← List.filter_cons]
  | case4 previous current rest starts ih =>
    rw [separateWords, if_neg starts, List.filter_cons, ih, ← List.filter_cons]

theorem separateWords_of_not_isCapital (small : ∀ c ∈ chars, isCapital c = false) :
    separateWords chars = chars := by
  induction chars using separateWords.induct with
  | case1 => rfl
  | case2 c => rfl
  | case3 previous current rest starts ih =>
    rw [startsWord, small current (by simp), Bool.false_and] at starts
    cases starts
  | case4 previous current rest starts ih =>
    rw [separateWords, if_neg starts, ih fun c known => small c (List.mem_cons_of_mem _ known)]

theorem separateWords_ascii (ascii : Text.IsAscii chars) : Text.IsAscii (separateWords chars) := by
  intro c known
  by_cases mark : c = '_'
  · rw [mark]
    decide
  · exact ascii c (mem_of_mem_separateWords mark known)

/-- A name in small letters without its separators. -/
def unseparated (name : String) : List Char :=
  (Text.lower name.toList).filter fun c => !isSeparator c

variable {name : String}

section
variable (ascii : Text.IsAscii name.toList)
include ascii

theorem toList_underscore :
    (underscore name).toList = (separateWords name.toList).map smallForm := by
  have separated := separateWords_ascii ascii
  have replaced : Text.IsAscii
      ((separateWords name.toList).map fun c => if c = '-' then '_' else c) := by
    refine List.forall_mem_map.mpr fun c known => ?_
    split
    · decide
    · exact separated c known
  rw [underscore, String.toList_ofList, Text.lower_ascii replaced, List.map_map]
  rfl

theorem smallForm_of_mem_underscore {x : Char} (known : x ∈ (underscore name).toList) :
    ∃ c, SmallForm c ∧ x = smallForm c := by
  rw [toList_underscore ascii] at known
  obtain ⟨c, inside, rfl⟩ := List.mem_map.mp known
  exact ⟨c, smallForm_ascii (separateWords_ascii ascii c inside), rfl⟩

theorem underscore_ascii : Text.IsAscii (underscore name).toList := by
  intro x known
  obtain ⟨c, form, rfl⟩ := smallForm_of_mem_underscore ascii known
  exact form.ascii

theorem filter_underscore : (underscore name).toList.filter (· ≠ '_') = unseparated name := by
  have forms (c : Char) (known : c ∈ name.toList) := smallForm_ascii (ascii c known)
  calc (underscore name).toList.filter (· ≠ '_')
      = ((separateWords name.toList).filter fun c => smallForm c ≠ '_').map smallForm := by
        rw [toList_underscore ascii, List.filter_map]
        rfl
    _ = (name.toList.filter fun c => smallForm c ≠ '_').map smallForm := by
        rw [filter_separateWords (by decide)]
    _ = (name.toList.filter fun c => !isSeparator c).map smallForm := by
        congr 1
        refine List.filter_congr fun c known => ?_
        simp [(forms c known).eq_underscore_iff]
    _ = (name.toList.filter fun c => !isSeparator c).map Char.toLower := by
        refine List.map_congr_left fun c known => ?_
        obtain ⟨inside, other⟩ := List.mem_filter.mp known
        exact (forms c inside).eq_toLower (by simpa using other)
    _ = (name.toList.map Char.toLower).filter fun c => !isSeparator c := by
        rw [List.filter_map]
        congr 1
        refine List.filter_congr fun c known => ?_
        rw [Function.comp_apply, (forms c known).isSeparator_toLower]
    _ = unseparated name := by rw [unseparated, Text.lower_ascii ascii]

theorem underscore_underscore : underscore (underscore name) = underscore name := by
  have plain : separateWords (underscore name).toList = (underscore name).toList := by
    refine separateWords_of_not_isCapital fun x known => ?_
    obtain ⟨c, form, rfl⟩ := smallForm_of_mem_underscore ascii known
    exact form.not_isCapital
  have settled (x : Char) (known : x ∈ (underscore name).toList) : smallForm x = id x := by
    obtain ⟨c, form, rfl⟩ := smallForm_of_mem_underscore ascii known
    exact form.idem
  rw [← String.toList_inj, toList_underscore (underscore_ascii ascii), plain,
    List.map_congr_left settled, List.map_id]

theorem unseparated_of_modulePath {other : String} (otherAscii : Text.IsAscii other.toList)
    (same : modulePath name = modulePath other) :
    (Text.split '.' name).map unseparated = (Text.split '.' other).map unseparated := by
  have through {output : String} (ascii : Text.IsAscii output.toList) :
      (Text.split '.' output).map unseparated =
        (Text.split '.' (modulePath output)).map fun segment => segment.toList.filter (· ≠ '_') := by
    rw [split_modulePath, List.map_map]
    refine List.map_congr_left fun segment known => ?_
    obtain ⟨chars, cut, rfl⟩ := List.mem_map.mp known
    have piece : Text.IsAscii (String.ofList chars).toList := by
      rw [String.toList_ofList]
      exact fun c inside => ascii c (Text.mem_of_mem_splitAt cut inside)
    rw [Function.comp_apply, filter_underscore piece]
  rw [through ascii, through otherAscii, same]

end

/-- In small letters an ASCII name has no capitals and no hyphens; it has the other characters of
    the name in their order, and is its own form in small letters. So names lie in one module only
    if they agree segment by segment but for case and separators. -/
theorem underscore_keeps_letters (ascii : Text.IsAscii name.toList) :
    (∀ c ∈ (underscore name).toList, c.toNat < 0x80 ∧ c.isUpper = false ∧ c ≠ '-') ∧
    (underscore name).toList.filter (· ≠ '_') = unseparated name ∧
    underscore (underscore name) = underscore name ∧
    ∀ other : String, Text.IsAscii other.toList → modulePath name = modulePath other →
      (Text.split '.' name).map unseparated = (Text.split '.' other).map unseparated := by
  refine ⟨fun x known => ?_, filter_underscore ascii, underscore_underscore ascii,
    fun other otherAscii same => unseparated_of_modulePath ascii otherAscii same⟩
  obtain ⟨c, form, rfl⟩ := smallForm_of_mem_underscore ascii known
  exact ⟨form.ascii, form.not_isUpper, form.ne_hyphen⟩

theorem server_names_share_path :
    modulePath "My-App.HTTPServer2Go" = modulePath "my_app.Http_Server2Go" ∧
    (Text.split '.' "My-App.HTTPServer2Go").map unseparated =
      (Text.split '.' "my_app.Http_Server2Go").map unseparated := by
  have same : modulePath "My-App.HTTPServer2Go" = modulePath "my_app.Http_Server2Go" := by
    decide +kernel
  exact ⟨same, (underscore_keeps_letters (by decide)).2.2.2 _ (by decide) same⟩

end Name
end IdlGen
