import IdlGen.Files.Tree
import Mathlib.Data.List.Basic
import Mathlib.Data.List.TakeWhile

/-!
Paths and the places that they name. A normal path names the same place as the path it comes from
(`ofPath_normalize`).
-/
namespace IdlGen

variable {s before after name : String}

namespace Text

theorem splitAt_ne_nil (sep : Char) (chars : List Char) : splitAt sep chars ≠ [] := by
  induction chars with
  | nil => simp [splitAt]
  | cons c rest ih =>
    rw [splitAt]
    split
    · exact List.cons_ne_nil _ _
    · split <;> exact List.cons_ne_nil _ _

theorem splitAt_cons_sep (sep : Char) (rest : List Char) :
    splitAt sep (sep :: rest) = [] :: splitAt sep rest := by
  simp [splitAt]

variable {sep : Char} {chars piece : List Char}

theorem splitAt_of_not_mem (free : sep ∉ chars) : splitAt sep chars = [chars] := by
  induction chars with
  | nil => rfl
  | cons c rest ih =>
    rw [List.mem_cons, not_or] at free
    rw [splitAt, if_neg (Ne.symm free.1), ih free.2]

theorem splitAt_append_sep (sep : Char) (before after : List Char) :
    splitAt sep (before ++ sep :: after) = splitAt sep before ++ splitAt sep after := by
  induction before with
  | nil => exact splitAt_cons_sep sep after
  | cons c rest ih =>
    by_cases here : c = sep
    · rw [here, List.cons_append, splitAt_cons_sep, splitAt_cons_sep, ih, List.cons_append]
    · rw [List.cons_append, splitAt, if_neg here, ih, splitAt, if_neg here]
      obtain ⟨piece, pieces, split⟩ := List.exists_cons_of_ne_nil (splitAt_ne_nil sep rest)
      rw [split, List.cons_append]
      rfl

theorem not_mem_of_mem_splitAt (member : piece ∈ splitAt sep chars) : sep ∉ piece := by
  induction chars generalizing piece with
  | nil =>
    rw [splitAt, List.mem_singleton] at member
    simp [member]
  | cons c rest ih =>
    by_cases here : c = sep
    · rw [here, splitAt_cons_sep, List.mem_cons] at member
      rcases member with rfl | later
      · simp
      · exact ih later
    · obtain ⟨first, pieces, split⟩ := List.exists_cons_of_ne_nil (splitAt_ne_nil sep rest)
      rw [split] at ih
      rw [splitAt, if_neg here, split, List.mem_cons] at member
      rcases member with rfl | later
      · rw [List.mem_cons, not_or]
        exact ⟨Ne.symm here, ih (List.mem_cons_self ..)⟩
      · exact ih (List.mem_cons_of_mem _ later)

theorem splitAt_intercalate {pieces : List (List Char)} (nonempty : pieces ≠ [])
    (free : ∀ piece ∈ pieces, sep ∉ piece) : splitAt sep ([sep].intercalate pieces) = pieces := by
  induction pieces with
  | nil => exact absurd rfl nonempty
  | cons piece rest ih =>
    have first := splitAt_of_not_mem (free piece (List.mem_cons_self ..))
    by_cases last : rest = []
    · simp [last, first]
    · have joined : [sep].intercalate (piece :: rest) = piece ++ sep :: [sep].intercalate rest := by
        obtain ⟨next, others, rfl⟩ := List.exists_cons_of_ne_nil last
        simp
      rw [joined, splitAt_append_sep, first, ih last (fun p m => free p (List.mem_cons_of_mem _ m)),
        List.singleton_append]

theorem splitAt_replicate (sep : Char) (n : Nat) :
    splitAt sep (List.replicate n sep) = List.replicate (n + 1) [] := by
  induction n with
  | zero => rfl
  | succ n ih => rw [List.replicate_succ, splitAt_cons_sep, ih, ← List.replicate_succ]

theorem cutFirst_eq (sep : Char) (chars : List Char) :
    sep ∉ (cutFirst sep chars).1 ∧
      chars = (cutFirst sep chars).1 ++ ((cutFirst sep chars).2.map (sep :: ·)).getD [] := by
  induction chars with
  | nil => simp [cutFirst]
  | cons c rest ih =>
    by_cases here : c = sep
    · simp [cutFirst, here]
    · refine ⟨?_, ?_⟩
      · rw [cutFirst, if_neg here, List.mem_cons, not_or]
        exact ⟨Ne.symm here, ih.1⟩
      · rw [cutFirst, if_neg here, List.cons_append, ← ih.2]

/-- The last separator divides a text into what stands before it and what is free of it. -/
theorem cutLast_cases (sep : Char) (chars : List Char) :
    (cutLast sep chars = (none, chars) ∧ sep ∉ chars) ∨
      ∃ before last, cutLast sep chars = (some before, last) ∧
        chars = before ++ sep :: last ∧ sep ∉ last := by
  obtain ⟨free, whole⟩ := cutFirst_eq sep chars.reverse
  cases cut : (cutFirst sep chars.reverse).2 with
  | none =>
    left
    rw [cut, Option.map_none, Option.getD_none, List.append_nil] at whole
    have same : (cutFirst sep chars.reverse).1.reverse = chars := by
      rw [← whole, List.reverse_reverse]
    refine ⟨by simp [cutLast, cut, same], ?_⟩
    rwa [← whole, List.mem_reverse] at free
  | some after =>
    right
    rw [cut, Option.map_some, Option.getD_some] at whole
    refine ⟨after.reverse, (cutFirst sep chars.reverse).1.reverse, by simp [cutLast, cut], ?_, ?_⟩
    · calc chars = chars.reverse.reverse := (List.reverse_reverse chars).symm
        _ = ((cutFirst sep chars.reverse).1 ++ sep :: after).reverse := by rw [← whole]
        _ = after.reverse ++ sep :: (cutFirst sep chars.reverse).1.reverse := by simp
    · rwa [List.mem_reverse]

theorem mem_of_mem_splitAt {x : Char} (member : piece ∈ splitAt sep chars) (inPiece : x ∈ piece) :
    x ∈ chars := by
  induction chars generalizing piece with
  | nil =>
    rw [splitAt, List.mem_singleton] at member
    exact member ▸ inPiece
  | cons c rest ih =>
    by_cases here : c = sep
    · rw [here, splitAt_cons_sep, List.mem_cons] at member
      rcases member with rfl | later
      · cases inPiece
      · exact List.mem_cons_of_mem c (ih later inPiece)
    · obtain ⟨first, pieces, split⟩ := List.exists_cons_of_ne_nil (splitAt_ne_nil sep rest)
      rw [split] at ih
      rw [splitAt, if_neg here, split, List.mem_cons] at member
      rcases member with rfl | later
      · exact List.mem_cons.mpr ((List.mem_cons.mp inPiece).imp_right (ih (List.mem_cons_self ..)))
      · exact List.mem_cons_of_mem c (ih (List.mem_cons_of_mem first later) inPiece)

theorem toList_split (sep : Char) (s : String) :
    (split sep s).map String.toList = splitAt sep s.toList := by
  simp [split, Function.comp_def]

theorem split_append_sep (parts : s.toList = before.toList ++ sep :: after.toList) :
    split sep s = split sep before ++ split sep after := by
  rw [split, parts, splitAt_append_sep, List.map_append, split, split]

theorem split_of_not_mem (free : sep ∉ s.toList) : split sep s = [s] := by
  rw [split, splitAt_of_not_mem free, List.map_singleton, String.ofList_toList]

end Text

/-! ### Places -/

namespace Place

open IdlGen.Path (normalStep)

/-- A name that a file or directory can have. -/
def Proper (name : String) : Prop := name ≠ "" ∧ name ≠ "." ∧ name ≠ ".." ∧ '/' ∉ name.toList

theorem normalStep_empty (absolute : Bool) (kept : List String) :
    normalStep absolute kept "" = kept := by
  simp [normalStep]

theorem normalStep_proper (proper : Proper name) (kept : List String) :
    normalStep true kept name = name :: kept := by
  obtain ⟨named, here, up, -⟩ := proper
  simp [normalStep, named, here, up]

variable {kept names : List String} {path : String}

theorem proper_normalStep (proper : ∀ n ∈ kept, Proper n) (free : '/' ∉ name.toList) :
    ∀ n ∈ normalStep true kept name, Proper n := by
  intro n member
  unfold normalStep at member
  split at member
  · exact proper n member
  · rename_i kind
    split at member
    · cases kept with
      | nil => simp at member
      | cons last before =>
        simp only at member
        split at member
        · rename_i up
          exact absurd up (proper last (List.mem_cons_self ..)).2.2.1
        · exact proper n (List.mem_cons_of_mem _ member)
    · rename_i up
      simp only [Bool.or_eq_true, decide_eq_true_eq, not_or] at kind
      rcases List.mem_cons.mp member with rfl | older
      · exact ⟨kind.1, kind.2, up, free⟩
      · exact proper n older

theorem proper_foldl (proper : ∀ n ∈ kept, Proper n) (free : ∀ n ∈ names, '/' ∉ n.toList) :
    ∀ n ∈ names.foldl (normalStep true) kept, Proper n := by
  induction names generalizing kept with
  | nil => exact proper
  | cons name rest ih =>
    exact ih (proper_normalStep proper (free name (List.mem_cons_self ..)))
      (fun n member => free n (List.mem_cons_of_mem _ member))

theorem foldl_proper (proper : ∀ n ∈ names, Proper n) (kept : List String) :
    names.foldl (normalStep true) kept = names.reverse ++ kept := by
  induction names generalizing kept with
  | nil => rfl
  | cons name rest ih =>
    rw [List.foldl_cons, normalStep_proper (proper name (List.mem_cons_self ..)),
      ih (fun n member => proper n (List.mem_cons_of_mem _ member)), List.reverse_cons,
      List.append_assoc, List.singleton_append]

theorem foldl_down {kept : Place} (each : ∀ n ∈ names, n = "" ∨ Proper n) :
    ∃ more, names.foldl (normalStep true) kept = more ++ kept := by
  induction names generalizing kept with
  | nil => exact ⟨[], rfl⟩
  | cons name rest ih =>
    obtain ⟨here, later⟩ := List.forall_mem_cons.mp each
    rw [List.foldl_cons]
    rcases here with rfl | proper
    · rw [normalStep_empty]
      exact ih later
    · rw [normalStep_proper proper]
      obtain ⟨more, went⟩ : ∃ more, rest.foldl (normalStep true) (name :: kept) =
          more ++ name :: kept := ih later
      exact ⟨more ++ [name], by rw [went, List.append_assoc, List.singleton_append]⟩

theorem foldl_replicate_empty (n : Nat) (kept : List String) :
    (List.replicate n "").foldl (normalStep true) kept = kept := by
  induction n with
  | zero => rfl
  | succ n ih => rw [List.replicate_succ, List.foldl_cons, normalStep_empty, ih]

theorem proper_ofPath (path : String) : ∀ n ∈ Place.ofPath path, Proper n := by
  apply proper_foldl
  · simp
  · intro name member
    have piece : name.toList ∈ Text.splitAt '/' path.toList := by
      rw [← Text.toList_split]
      exact List.mem_map_of_mem member
    exact Text.not_mem_of_mem_splitAt piece

theorem ofPath_append_sep (parts : path.toList = before.toList ++ '/' :: after.toList) :
    ofPath path = (Text.split '/' after).foldl (normalStep true) (ofPath before) := by
  rw [ofPath, Text.split_append_sep parts, List.foldl_append, ofPath]

theorem ofPath_append_slashes {n : Nat}
    (parts : path.toList = before.toList ++ List.replicate n '/') :
    ofPath path = ofPath before := by
  cases n with
  | zero =>
    rw [List.replicate_zero, List.append_nil, String.toList_inj] at parts
    rw [parts]
  | succ n =>
    have slashes : Text.split '/' (String.ofList (List.replicate n '/')) =
        List.replicate (n + 1) "" := by
      rw [Text.split, String.toList_ofList, Text.splitAt_replicate, List.map_replicate]
    have cut : path.toList =
        before.toList ++ '/' :: (String.ofList (List.replicate n '/')).toList := by
      rw [parts, String.toList_ofList, List.replicate_succ]
    rw [ofPath_append_sep cut, slashes, foldl_replicate_empty]

theorem ofPath_slashes {n : Nat} (slashes : path.toList = List.replicate n '/') :
    ofPath path = [] := by
  have parts : path.toList = "".toList ++ List.replicate n '/' := by simpa using slashes
  rw [ofPath_append_slashes parts]
  simp [ofPath, Text.split, Text.splitAt, normalStep_empty]

private theorem trailing_slashes (chars : List Char) :
    ∃ n, chars = (chars.reverse.dropWhile (· == '/')).reverse ++ List.replicate n '/' := by
  have slashes : chars.reverse.takeWhile (· == '/') =
      List.replicate (chars.reverse.takeWhile (· == '/')).length '/' := by
    rw [List.eq_replicate_iff]
    exact ⟨rfl, fun c member => by simpa using List.mem_takeWhile_imp member⟩
  refine ⟨(chars.reverse.takeWhile (· == '/')).length, ?_⟩
  calc chars
      = (chars.reverse.takeWhile (· == '/') ++ chars.reverse.dropWhile (· == '/')).reverse := by
        rw [List.takeWhile_append_dropWhile, List.reverse_reverse]
    _ = (chars.reverse.dropWhile (· == '/')).reverse ++
          (chars.reverse.takeWhile (· == '/')).reverse := List.reverse_append
    _ = _ := by rw [slashes, List.reverse_replicate, List.length_replicate]

theorem ofPath_splitLast (path : String) :
    ofPath path = normalStep true (ofPath (Path.splitLast path).1) (Path.splitLast path).2 := by
  rcases Text.cutLast_cases '/' path.toList with ⟨cut, free⟩ | ⟨before, last, cut, parts, free⟩
  · simp only [Path.splitLast, cut, String.ofList_toList]
    rw [ofPath, Text.split_of_not_mem free]
    simp [ofPath, Text.split, Text.splitAt, normalStep_empty]
  · have step : ofPath path =
        normalStep true (ofPath (String.ofList before)) (String.ofList last) := by
      have cutAt : path.toList =
          (String.ofList before).toList ++ '/' :: (String.ofList last).toList := by
        simpa using parts
      rw [ofPath_append_sep cutAt, Text.split_of_not_mem (by simpa using free), List.foldl_cons,
        List.foldl_nil]
    obtain ⟨n, trailing⟩ := trailing_slashes before
    simp only [Path.splitLast, cut]
    rw [step]
    congr 1
    by_cases root : (before.reverse.dropWhile (· == '/')).reverse = []
    · rw [root, List.nil_append] at trailing
      rw [root, List.isEmpty_nil, if_pos rfl, ofPath_slashes (n := n) (by simpa using trailing),
        ofPath_slashes (n := n + 1) (by rw [trailing, List.replicate_succ', String.toList_ofList])]
    · rw [if_neg (by simpa using root)]
      exact ofPath_append_slashes (n := n) (by simpa using trailing)

theorem isAbsolute_iff (path : String) :
    Path.isAbsolute path ↔ ∃ rest, path.toList = '/' :: rest := by
  rw [Path.isAbsolute, Text.hasStart, List.isPrefixOf_iff_prefix]
  constructor
  · rintro ⟨rest, whole⟩
    exact ⟨rest, by simpa using whole.symm⟩
  · rintro ⟨rest, whole⟩
    exact ⟨rest, by simp [whole]⟩

theorem rootSlashes_cases (absolute : Path.isAbsolute path) :
    Path.rootSlashes path = "/" ∨ Path.rootSlashes path = "//" := by
  obtain ⟨rest, whole⟩ := (isAbsolute_iff path).mp absolute
  rw [Path.rootSlashes, whole, List.takeWhile_cons_of_pos (by simp)]
  split
  · simp_all
  · exact .inr rfl
  · exact .inl rfl

theorem normalize_of_isAbsolute (absolute : Path.isAbsolute path) :
    Path.normalize path = Path.rootSlashes path ++ Text.join "/" (ofPath path).reverse := by
  have nonempty : Path.rootSlashes path ++ Text.join "/" (ofPath path).reverse ≠ "" := by
    rcases rootSlashes_cases absolute with root | root <;>
      · rw [root]
        intro empty
        have := congrArg String.toList empty
        simp at this
  simp only [Path.normalize, absolute]
  rw [← ofPath, if_neg nonempty]

private theorem toList_join (names : List String) :
    (Text.join "/" names).toList = ['/'].intercalate (names.map String.toList) := by
  simp [Text.join, String.toList_intercalate]

private theorem split_join_reverse {place : Place} (proper : ∀ n ∈ place, Proper n)
    (nonempty : place ≠ []) : Text.split '/' (Text.join "/" place.reverse) = place.reverse := by
  rw [Text.split, toList_join, Text.splitAt_intercalate]
  · simp [Function.comp_def]
  · simpa using nonempty
  · intro piece member
    obtain ⟨name, nameMember, rfl⟩ := List.mem_map.mp member
    exact (proper name (List.mem_reverse.mp nameMember)).2.2.2

theorem ofPath_normalize (absolute : Path.isAbsolute path) :
    ofPath (Path.normalize path) = ofPath path := by
  have proper := proper_ofPath path
  have rest : (Text.split '/' (Text.join "/" (ofPath path).reverse)).foldl (normalStep true) [] =
      ofPath path := by
    by_cases root : ofPath path = []
    · simp [root, Text.join, Text.split, Text.splitAt, normalStep_empty]
    · rw [split_join_reverse proper root,
        foldl_proper (fun n member => proper n (List.mem_reverse.mp member)), List.reverse_reverse,
        List.append_nil]
  rw [normalize_of_isAbsolute absolute]
  generalize Text.join "/" (ofPath path).reverse = names at rest
  rcases rootSlashes_cases absolute with root | root
  · have parts : ("/" ++ names).toList = "".toList ++ '/' :: names.toList := by simp
    rw [root, ofPath_append_sep parts]
    exact rest
  · have parts : ("//" ++ names).toList = "/".toList ++ '/' :: names.toList := by simp
    have slash : "/".toList = List.replicate 1 '/' := rfl
    rw [root, ofPath_append_sep parts, ofPath_slashes slash]
    exact rest

end Place

namespace Path

open Place (isAbsolute_iff)

def slashed (base : String) : String :=
  if base = "" || Text.hasEnding "/" base then base else base ++ "/"

variable {base path : String}

theorem join_eq (relative : isAbsolute path = false) : join base path = slashed base ++ path := by
  rw [join, relative, slashed, if_neg Bool.false_ne_true]
  split <;> rfl

theorem hasEnding_slash (base : String) :
    Text.hasEnding "/" base = true ↔ base.toList.getLast? = some '/' := by
  rw [Text.hasEnding, List.isSuffixOf_iff_suffix, List.getLast?_eq_some_iff]
  exact exists_congr fun _ => eq_comm

theorem slashed_append (filled : path ≠ "") : slashed (base ++ path) = base ++ slashed path := by
  have same : Text.hasEnding "/" (base ++ path) = Text.hasEnding "/" path := by
    rw [Bool.eq_iff_iff, hasEnding_slash, hasEnding_slash, String.toList_append,
      List.getLast?_append_of_ne_nil _ (by simpa using filled)]
  simp only [slashed, same, String.append_eq_empty_iff, filled, and_false]
  split
  · rfl
  · exact String.append_assoc ..

theorem slashed_cases (base : String) : base = "" ∨
    ∃ front, slashed base = front ++ "/" ∧ (base = front ∨ base = front ++ "/") := by
  by_cases empty : base = ""
  · exact .inl empty
  · refine .inr ?_
    by_cases ends : Text.hasEnding "/" base
    · obtain ⟨front, whole⟩ := List.getLast?_eq_some_iff.mp ((hasEnding_slash base).mp ends)
      have parts : base = String.ofList front ++ "/" := by
        rw [← String.toList_inj, whole]
        simp
      exact ⟨String.ofList front, by rw [slashed, ends, Bool.or_true, if_pos rfl, parts], .inr parts⟩
    · exact ⟨base, by simp [slashed, empty, ends], .inl rfl⟩

theorem slashed_slashed (base : String) : slashed (slashed base) = slashed base := by
  rcases slashed_cases base with rfl | ⟨front, ends, -⟩
  · rfl
  · rw [ends, slashed_append (by decide)]
    rfl

theorem isAbsolute_append (filled : base ≠ "") : isAbsolute (base ++ path) = isAbsolute base := by
  obtain ⟨c, rest, chars⟩ := List.exists_cons_of_ne_nil (l := base.toList) (by simpa using filled)
  rw [Bool.eq_iff_iff, isAbsolute_iff, isAbsolute_iff]
  simp [chars]

theorem isAbsolute_slashed_append (relative : isAbsolute path = false) :
    isAbsolute (slashed base ++ path) = isAbsolute base := by
  rcases eq_or_ne base "" with rfl | filled
  · exact (congrArg isAbsolute String.empty_append).trans relative
  · rw [slashed]
    split
    · exact isAbsolute_append filled
    · rw [String.append_assoc, isAbsolute_append filled]

theorem isAbsolute_join_eq (base path : String) :
    isAbsolute (join base path) = (isAbsolute base || isAbsolute path) := by
  by_cases absolute : isAbsolute path
  · rw [join, if_pos absolute, absolute, Bool.or_true]
  · rw [Bool.not_eq_true] at absolute
    rw [join_eq absolute, isAbsolute_slashed_append absolute, absolute, Bool.or_false]

theorem isAbsolute_join (rooted : isAbsolute base) (path : String) :
    isAbsolute (join base path) := by
  rw [isAbsolute_join_eq, rooted, Bool.true_or]

theorem join_assoc (base middle path : String) :
    join (join base middle) path = join base (join middle path) := by
  by_cases absolute : isAbsolute path
  · simp [join, absolute]
  by_cases rooted : isAbsolute middle
  · rw [join.eq_1 base, join.eq_1 base, if_pos rooted, if_pos (isAbsolute_join rooted path)]
  rw [Bool.not_eq_true] at absolute rooted
  rcases eq_or_ne middle "" with rfl | filled
  · have empty : join "" path = path := (join_eq absolute).trans String.empty_append
    rw [join_eq rooted, String.append_empty, empty, join_eq absolute, slashed_slashed,
      join_eq absolute]
  · have relative := (isAbsolute_slashed_append absolute).trans rooted
    rw [join_eq rooted, join_eq absolute, slashed_append filled, join_eq absolute, join_eq relative,
      String.append_assoc]

theorem ofPath_join (relative : isAbsolute path = false) :
    Place.ofPath (join base path) =
      (Text.split '/' path).foldl (normalStep true) (Place.ofPath base) := by
  rw [join_eq relative]
  rcases slashed_cases base with rfl | ⟨front, ends, parts⟩
  · exact congrArg Place.ofPath String.empty_append
  · have same : Place.ofPath base = Place.ofPath front := by
      rcases parts with rfl | rfl
      · rfl
      · exact Place.ofPath_append_slashes (n := 1) (by simp)
    have parts : (front ++ "/" ++ path).toList = front.toList ++ '/' :: path.toList := by simp
    rw [ends, same, Place.ofPath_append_sep parts]

end Path

end IdlGen
