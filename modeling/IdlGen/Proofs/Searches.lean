import IdlGen.Files.Search
import IdlGen.Proofs.Closure

/-!
Searches for documents. Paths are found and left out by their spelling. Where all of them are
spelled plainly, a file is found under one spelling only, and a directory under one more, with a
slash at its end (`search_tells_files_apart`).
-/
namespace IdlGen

open Place (Proper ofPath)

variable {name base directory path : String} {names : List String}

theorem Place.Proper.isAbsolute (proper : Proper name) : Path.isAbsolute name = false := by
  rw [← Bool.not_eq_true, isAbsolute_iff]
  rintro ⟨rest, whole⟩
  exact proper.2.2.2 (by simp [whole])

theorem Place.Proper.slashed (proper : Proper name) (before : String) :
    Path.slashed (before ++ name) = before ++ name ++ "/" := by
  have opened : Text.hasEnding "/" name = false := by
    rw [← Bool.not_eq_true, Path.hasEnding_slash]
    exact fun last => proper.2.2.2 (List.mem_of_getLast? last)
  rw [Path.slashed_append proper.1, Path.slashed, opened, if_neg (by simp [proper.1]),
    String.append_assoc]

namespace Path

variable {segments : List String}

theorem foldl_join (some : segments ≠ []) (base : String) :
    segments.foldl join base = join base (joinAll segments) := by
  obtain ⟨first, rest, rfl⟩ := List.exists_cons_of_ne_nil some
  have : Std.Associative join := ⟨join_assoc⟩
  exact List.foldl_assoc

theorem ofPath_foldl_join (proper : ∀ name ∈ segments, Place.Proper name) (base : String) :
    Place.ofPath (segments.foldl join base) = segments.reverse ++ Place.ofPath base := by
  induction segments generalizing base with
  | nil => rfl
  | cons name rest ih =>
    obtain ⟨here, later⟩ := List.forall_mem_cons.mp proper
    rw [List.foldl_cons, ih later, ofPath_join here.isAbsolute, Text.split_of_not_mem here.2.2.2,
      List.foldl_cons, List.foldl_nil, Place.normalStep_proper here, List.reverse_cons,
      List.append_assoc, List.singleton_append]

theorem join_empty (base : String) : join base "" = slashed base := by
  rw [join_eq rfl, String.append_empty]

theorem join_join_empty (base : String) : join (join base "") "" = join base "" :=
  join_assoc base "" ""

theorem join_congr {other : String} (same : join base "" = join other "")
    (relative : isAbsolute path = false) : join base path = join other path := by
  rw [join_empty, join_empty] at same
  rw [join_eq relative, join_eq relative, same]

theorem splitLast_join (named : name = "" ∨ Proper name) :
    splitLast (join base name) = (Path.directory (join base ""), name) := by
  have free : '/' ∉ name.toList := by
    rcases named with rfl | proper
    · simp
    · exact proper.2.2.2
  have relative : isAbsolute name = false := by
    rcases named with rfl | proper
    · rfl
    · exact proper.isAbsolute
  rw [join_eq relative, join_empty, Path.directory]
  rcases slashed_cases base with rfl | ⟨front, ends, -⟩
  · have alone : slashed "" ++ name = name := String.empty_append
    rcases Text.cutLast_cases '/' name.toList with ⟨cut, -⟩ | ⟨before, last, -, parts, -⟩
    · simp only [alone, splitLast, cut, String.ofList_toList]
      rfl
    · exact absurd (by simp [parts]) free
  · have parts : (front ++ "/" ++ name).toList = front.toList ++ '/' :: name.toList := by simp
    have whole : (front ++ "/").toList = front.toList ++ '/' :: [] := by simp
    simp only [ends, splitLast, parts, whole, Text.cutLast_append_sep free,
      Text.cutLast_append_sep List.not_mem_nil, String.ofList_toList]

theorem directory_join_name (proper : Proper name) (base : String) :
    Path.directory (join (join base name) "") = join base name := by
  have whole : join base name = slashed base ++ name := join_eq proper.isAbsolute
  have parts : (join (join base name) "").toList = (join base name).toList ++ '/' :: [] := by
    rw [join_empty, whole, proper.slashed]
    simp
  -- The path ends in a name, so no slash is dropped at its end.
  obtain ⟨c, more, ends⟩ := List.exists_cons_of_ne_nil (l := name.toList.reverse)
    (by simpa using proper.1)
  have inside : c ∈ name.toList := by
    rw [← List.mem_reverse, ends]
    exact List.mem_cons_self
  have other : c ≠ '/' := fun slash => proper.2.2.2 (slash ▸ inside)
  have kept : ((join base name).toList.reverse.dropWhile (· == '/')).reverse =
      (join base name).toList := by
    rw [whole, String.toList_append, List.reverse_append, ends, List.cons_append,
      List.dropWhile_cons_of_neg (by simpa using other), ← List.cons_append, ← ends,
      ← List.reverse_append, List.reverse_reverse]
  have filled : (join base name).toList.isEmpty = false := by simp [whole, proper.1]
  rw [Path.directory, splitLast, parts, Text.cutLast_append_sep List.not_mem_nil]
  simp only [kept, filled, Bool.false_eq_true, if_false, String.ofList_toList]

theorem isPattern_join_empty (base : String) :
    Pattern.isPattern (join base "") = Pattern.isPattern base := by
  rw [join_empty, slashed]
  split
  · rfl
  · simp [Pattern.isPattern]

/-- What lies in a directory is found under its spelling: it is no pattern, and has at most one
    slash at its end, unless it has nothing else. -/
def Fixed (base : String) : Prop :=
  Pattern.isPattern base = false ∧ join (Path.directory (join base "")) "" = join base ""

instance (base : String) : Decidable (Fixed base) := inferInstanceAs (Decidable (_ ∧ _))

/-- The path leads plainly from a base through some names. It may have a slash at its end. -/
def Plain (base path : String) : Prop :=
  ∃ names, (∀ n ∈ names, Proper n) ∧
    (path = joinAll (base :: names) ∨ path = join (joinAll (base :: names)) "")

/-- The directory leads plainly from a base through some names, apart from slashes at its end. -/
def Within (base directory : String) : Prop :=
  ∃ names, (∀ n ∈ names, Proper n) ∧ join directory "" = join (joinAll (base :: names)) ""

theorem Plain.within (plain : Plain base path) : Within base path := by
  obtain ⟨names, proper, rfl | rfl⟩ := plain
  · exact ⟨names, proper, rfl⟩
  · exact ⟨names, proper, join_join_empty _⟩

theorem joinAll_concat (base : String) (front : List String) (last : String) :
    joinAll (base :: (front ++ [last])) = join (joinAll (base :: front)) last := by
  simp [joinAll]

/-- What stands before the slash at the end, if it is put there. -/
theorem directory_joinAll (fixed : Fixed base) (proper : ∀ n ∈ names, Proper n) :
    join (Path.directory (join (joinAll (base :: names)) "")) "" =
        join (joinAll (base :: names)) "" ∧
      (Pattern.isPattern (Path.directory (join (joinAll (base :: names)) "")) →
        Path.directory (join (joinAll (base :: names)) "") = joinAll (base :: names)) := by
  induction names using List.reverseRecOn with
  | nil =>
    refine ⟨fixed.2, fun isPattern => ?_⟩
    have same : join (Path.directory (join (joinAll [base]) "")) "" = join base "" := fixed.2
    rw [← isPattern_join_empty, same, isPattern_join_empty, fixed.1] at isPattern
    cases isPattern
  | append_singleton front last _ =>
    have whole := directory_join_name (proper last (by simp)) (joinAll (base :: front))
    rw [← joinAll_concat] at whole
    exact ⟨by rw [whole], fun _ => whole⟩

theorem Plain.splitLast_of_isPattern (fixed : Fixed base) (plain : Plain base path)
    (isPattern : Pattern.isPattern path) :
    ∃ last, (last = "" ∨ Proper last) ∧ splitLast path = (Path.directory path, last) ∧
      Within base (Path.directory path) ∧
      (Pattern.isPattern (Path.directory path) → Plain base (Path.directory path)) := by
  suffices cut : ∃ last names, (last = "" ∨ Proper last) ∧ (∀ n ∈ names, Proper n) ∧
      path = join (joinAll (base :: names)) last by
    obtain ⟨last, names, spelled, proper, rfl⟩ := cut
    have parts : splitLast (join (joinAll (base :: names)) last) =
        (Path.directory (join (joinAll (base :: names)) ""), last) := splitLast_join spelled
    obtain ⟨within, whole⟩ := directory_joinAll fixed proper
    have outer : Path.directory (join (joinAll (base :: names)) last) =
        Path.directory (join (joinAll (base :: names)) "") := by rw [Path.directory, parts]
    rw [outer, parts]
    exact ⟨last, spelled, rfl, ⟨names, proper, within⟩,
      fun isPattern => ⟨names, proper, .inl (whole isPattern)⟩⟩
  obtain ⟨names, proper, rfl | rfl⟩ := plain
  · induction names using List.reverseRecOn with
    | nil =>
      have alone : Pattern.isPattern (joinAll [base]) = false := fixed.1
      rw [alone] at isPattern
      cases isPattern
    | append_singleton front last _ =>
      obtain ⟨outer, here⟩ := List.forall_mem_append.mp proper
      exact ⟨last, front, .inr (here last (List.mem_singleton_self _)), outer, joinAll_concat ..⟩
  · exact ⟨"", names, .inl rfl, proper, rfl⟩

end Path

/-! ### Found paths -/

namespace FileTree

open Path (Plain Within Fixed)

/-- Every node of a tree has a proper name. -/
def Named (tree : FileTree) : Prop := ∀ node ∈ tree.nodes, ∀ n ∈ node.1, Proper n

/-- The path leads plainly from a base through some names. A slash at its end shows a
    directory. -/
def Neat (tree : FileTree) (base path : String) : Prop :=
  ∃ names, (∀ n ∈ names, Proper n) ∧ (path = Path.joinAll (base :: names) ∨
    path = Path.join (Path.joinAll (base :: names)) "" ∧ tree.at? path = some .directory)

variable {tree : FileTree} {recursive only : Bool} {root : String} {paths excludes : List String}
  {p : String} {place : Place}

theorem Neat.within (neat : tree.Neat base p) : Within base p := by
  obtain ⟨names, proper, same | ⟨same, -⟩⟩ := neat
  · exact Plain.within ⟨names, proper, .inl same⟩
  · exact Plain.within ⟨names, proper, .inr same⟩

theorem follow_concat_empty (other : String) {here : Place} :
    tree.follow path here (names ++ [""]) = .ok place ↔
      tree.follow other here names = .ok place ∧ tree.node? place = some .directory := by
  induction names generalizing here with
  | nil =>
    simp only [List.nil_append, follow, Place.normalStep_empty]
    by_cases known : tree.node? here = some .directory
    · simp only [known, Option.isSome_some, if_true]
      exact ⟨fun same => ⟨same, Except.ok.inj same ▸ known⟩, And.left⟩
    · refine iff_of_false ?_ fun both => known (Except.ok.inj both.1 ▸ both.2)
      split
      · exact absurd ‹_› known
      · simp
  | cons name rest ih =>
    simp only [List.cons_append, follow]
    split
    · split
      · exact ih
      · simp
    · simp

theorem at?_join_empty (tree : FileTree) (path : String) :
    tree.at? (Path.join path "") = some .directory ↔ tree.at? path = some .directory := by
  rw [Path.join_empty]
  rcases Path.slashed_cases path with rfl | ⟨front, ends, rfl | rfl⟩
  · exact Iff.rfl
  · have pieces : Text.split '/' (path ++ "/") = Text.split '/' path ++ [""] := by
      have parts : (path ++ "/").toList = path.toList ++ '/' :: "".toList := by simp
      rw [Text.split_append_sep parts]
      rfl
    simp only [ends, at?, locate, pieces, Option.bind_eq_some_iff, Outcome.toOption_eq_some,
      follow_concat_empty path, and_assoc, and_self]
  · rw [ends]

theorem neat_join_names (within : Within base directory) (named : ∀ n ∈ names, Proper n)
    (some : names ≠ []) : tree.Neat base (Path.join directory (Path.joinAll names)) := by
  obtain ⟨outer, proper, same⟩ := within
  refine ⟨outer ++ names, List.forall_mem_append.mpr ⟨proper, named⟩, .inl ?_⟩
  obtain ⟨first, rest, rfl⟩ := List.exists_cons_of_ne_nil some
  have relative := (named first List.mem_cons_self).isAbsolute
  rw [← Path.foldl_join some, List.foldl_cons, Path.join_congr same relative]
  simp [Path.joinAll]

theorem neat_join_empty (within : Within base directory)
    (known : tree.at? directory = some .directory) : tree.Neat base (Path.join directory "") := by
  obtain ⟨names, proper, same⟩ := within
  exact ⟨names, proper, .inr ⟨same, (tree.at?_join_empty directory).mpr known⟩⟩

theorem proper_below (named : tree.Named) {node : FileNode}
    (member : (names, node) ∈ tree.below place) : (∀ n ∈ names, Proper n) ∧ names ≠ [] := by
  obtain ⟨⟨around, found⟩, inside, made⟩ := List.mem_filterMap.mp member
  dsimp only at made
  split at made
  · next deep =>
    cases made
    refine ⟨fun n known => named _ inside n ?_, ?_⟩
    · exact List.mem_of_mem_take (List.mem_reverse.mp known)
    · have longer : place.length < around.length := by simpa using (Bool.and_eq_true_iff.mp deep).2
      rw [ne_eq, List.reverse_eq_nil_iff, List.take_eq_nil_iff, not_or]
      exact ⟨by omega, fun root => by simp [root] at longer⟩
  · cases made

theorem proper_children (named : tree.Named) {node : FileNode}
    (member : (name, node) ∈ tree.children place) : Proper name := by
  obtain ⟨⟨around, found⟩, inside, made⟩ := List.mem_filterMap.mp member
  dsimp only at made
  split at made
  · split at made
    · cases made
      exact named _ inside name (by simp)
    · cases made
  · cases made

theorem neat_fitting (named : tree.Named) (within : Within base directory) {last : String}
    (spelled : last = "" ∨ Proper last) (fits : name ∈ tree.fitting recursive only directory last) :
    tree.Neat base (Path.join directory name) := by
  have neat_name {name : String} (proper : Proper name) :
      tree.Neat base (Path.join directory name) := by
    have all : ∀ n ∈ [name], Proper n := by simpa using proper
    exact neat_join_names within all (List.cons_ne_nil _ _)
  unfold fitting at fits
  dsimp only at fits
  split at fits
  · split at fits
    · split at fits
      · next known =>
        rw [List.mem_singleton.mp fits]
        exact neat_join_empty within (by simpa [isDirectory] using known)
      · cases fits
    · next filled =>
      split at fits
      · exact List.mem_singleton.mp fits ▸ neat_name (spelled.resolve_left filled)
      · cases fits
  · split at fits
    · next known located =>
      split at fits
      · rcases List.mem_cons.mp fits with rfl | below
        · exact neat_join_empty within known
        · obtain ⟨⟨names, node⟩, inside, made⟩ := List.mem_filterMap.mp below
          dsimp only at made
          split at made
          · cases made
            obtain ⟨all, some⟩ := proper_below named inside
            exact neat_join_names within all some
          · cases made
      · obtain ⟨⟨child, node⟩, inside, made⟩ := List.mem_filterMap.mp fits
        dsimp only at made
        split at made
        · cases made
          exact neat_name (proper_children named inside)
        · cases made
    · cases fits

theorem neat_of_plain (fixed : Fixed base) (plain : Plain base path)
    (found : p ∈ if (Path.splitLast path).2 = "" then
        if tree.isDirectory (Path.splitLast path).1 then [path] else []
      else if tree.holds path then [path] else []) : tree.Neat base p := by
  have same : p = path := by
    split at found <;> split at found <;> simp_all
  subst same
  obtain ⟨names, proper, spelled | rfl⟩ := plain
  · exact ⟨names, proper, .inl spelled⟩
  · rw [Path.splitLast_join (.inl rfl), if_pos rfl] at found
    split at found
    · next known =>
      have within := (Path.directory_joinAll fixed proper).1
      refine ⟨names, proper, .inr ⟨rfl, ?_⟩⟩
      rw [← within, at?_join_empty]
      simpa [isDirectory] using known
    · cases found

theorem neat_expandWithin (named : tree.Named) (fixed : Fixed base) {fuel : Nat}
    (plain : Plain base path) (found : p ∈ tree.expandWithin recursive fuel only path) :
    tree.Neat base p := by
  induction fuel generalizing only path p with
  | zero => cases found
  | succ fuel ih =>
    rw [expandWithin] at found
    dsimp only at found
    split at found
    · exact neat_of_plain fixed plain found
    · next isPattern =>
      rw [Bool.not_eq_true, Bool.not_eq_false'] at isPattern
      obtain ⟨last, spelled, cut, within, outer⟩ := plain.splitLast_of_isPattern fixed isPattern
      obtain ⟨directory, inside, joined⟩ := List.mem_flatMap.mp found
      obtain ⟨name, fits, rfl⟩ := List.mem_map.mp joined
      rw [cut] at inside fits
      refine neat_fitting named ?_ spelled fits
      split at inside
      · next isPattern => exact (ih (outer isPattern) inside).within
      · exact List.mem_singleton.mp inside ▸ within

theorem neat_documents (named : tree.Named) (within : Within base directory)
    (found : p ∈ tree.documents recursive directory) : tree.Neat base p := by
  unfold documents at found
  split at found
  · cases found
  · next around _ =>
    obtain ⟨⟨names, node⟩, inside, made⟩ := List.mem_filterMap.mp found
    dsimp only at made
    split at made
    · cases made
      have all : (∀ n ∈ names, Proper n) ∧ names ≠ [] := by
        split at inside
        · exact proper_below named inside
        · obtain ⟨⟨name, node⟩, child, same⟩ := List.mem_map.mp inside
          cases same
          simpa using proper_children named child
      have regrouped : tree.Neat base (Path.join directory (Path.joinAll names)) :=
        neat_join_names within all.1 all.2
      rwa [← Path.foldl_join all.2] at regrouped
    · cases made

theorem neat_searchOne (named : tree.Named) (fixed : Fixed base) (plain : Plain base path)
    (found : p ∈ tree.searchOne recursive path) : tree.Neat base p := by
  unfold searchOne at found
  split at found
  · exact neat_documents named plain.within found
  · exact neat_expandWithin named fixed plain found

/-- Both paths name one directory, once with a slash at the end. -/
def SlashApart (tree : FileTree) (p q : String) : Prop :=
  tree.at? p = some .directory ∧ (q = Path.join p "" ∨ p = Path.join q "")

theorem Neat.slashApart {q working : String} (rooted : Path.isAbsolute working)
    (neat : tree.Neat base p) (other : tree.Neat base q)
    (same : Path.absolute working q = Path.absolute working p) (away : q ≠ p) :
    tree.SlashApart p q := by
  have ofNames {names : List String} (proper : ∀ n ∈ names, Proper n) :
      ofPath (Path.absolute working (Path.joinAll (base :: names))) =
        names.reverse ++ ofPath (Path.join working base) := by
    have regrouped : Path.join working (Path.joinAll (base :: names)) =
        names.foldl Path.join (Path.join working base) := by
      have : Std.Associative Path.join := ⟨Path.join_assoc⟩
      exact List.foldl_assoc.symm
    rw [Path.absolute, Place.ofPath_normalize (Path.isAbsolute_join rooted _), regrouped,
      Path.ofPath_foldl_join proper]
  have slashed (path : String) : ofPath (Path.absolute working (Path.join path "")) =
      ofPath (Path.absolute working path) := by
    rw [Path.absolute, Path.absolute, Place.ofPath_normalize (Path.isAbsolute_join rooted _),
      Place.ofPath_normalize (Path.isAbsolute_join rooted _), ← Path.join_assoc]
    exact Path.ofPath_join rfl
  have places := congrArg ofPath same
  obtain ⟨names, proper, spelled⟩ := neat
  obtain ⟨others, alike, otherwise⟩ := other
  have one : others = names := by
    have reversed : others.reverse ++ ofPath (Path.join working base) =
        names.reverse ++ ofPath (Path.join working base) := by
      rcases spelled with rfl | ⟨rfl, -⟩ <;> rcases otherwise with rfl | ⟨rfl, -⟩ <;>
        simpa only [slashed, ofNames proper, ofNames alike] using places
    exact List.reverse_injective (List.append_cancel_right reversed)
  subst one
  rcases spelled with rfl | ⟨rfl, known⟩ <;> rcases otherwise with rfl | ⟨rfl, shown⟩
  · exact absurd rfl away
  · exact ⟨(tree.at?_join_empty _).mp shown, .inl rfl⟩
  · exact ⟨known, .inr rfl⟩
  · exact absurd rfl away

theorem mem_search :
    p ∈ tree.search root paths excludes recursive ↔
      (∃ path ∈ paths, p ∈ tree.searchOne recursive (Path.join root path)) ∧
        ¬∃ pattern ∈ excludes, p ∈ tree.expand recursive (Path.join root pattern) := by
  simp [search, firstOccurrences_eq]

theorem nodup_search : (tree.search root paths excludes recursive).Nodup := by
  rw [search, List.nodup_mergeSort, firstOccurrences_eq]
  exact (nodup_eraseDups _).filter _

/-- A search gives each path that is found and not left out, once. If all paths and patterns lead
    plainly from one base, such as the root, then it gives no path of a file that is given or left
    out under another spelling, and a directory at most once more, with a slash at its end. -/
theorem search_tells_files_apart {root working : String} {paths excludes : List String}
    (recursive : Bool) (rooted : Path.isAbsolute working) (named : tree.Named) (fixed : Fixed base)
    (plain : ∀ path ∈ paths ++ excludes, Plain base (Path.join root path)) :
    (tree.search root paths excludes recursive).Nodup ∧
    ∀ p, (p ∈ tree.search root paths excludes recursive ↔
      (∃ path ∈ paths, p ∈ tree.searchOne recursive (Path.join root path)) ∧
        ¬∃ pattern ∈ excludes, p ∈ tree.expand recursive (Path.join root pattern)) ∧
    (p ∈ tree.search root paths excludes recursive →
      (∀ pattern ∈ excludes, ∀ q ∈ tree.expand recursive (Path.join root pattern),
        Path.absolute working q = Path.absolute working p → tree.SlashApart p q) ∧
      ∀ q ∈ tree.search root paths excludes recursive, q ≠ p →
        Path.absolute working q = Path.absolute working p → tree.SlashApart p q) := by
  obtain ⟨plainly, excluded⟩ := List.forall_mem_append.mp plain
  have neat {q : String} (inside : q ∈ tree.search root paths excludes recursive) :
      tree.Neat base q := by
    obtain ⟨⟨path, given, found⟩, -⟩ := mem_search.mp inside
    exact neat_searchOne named fixed (plainly path given) found
  refine ⟨nodup_search, fun p => ⟨mem_search, fun inside => ⟨?_, ?_⟩⟩⟩
  · intro pattern given q found same
    refine (neat inside).slashApart rooted ?_ same ?_
    · exact neat_expandWithin named fixed (excluded pattern given) found
    · rintro rfl
      exact (mem_search.mp inside).2 ⟨pattern, given, found⟩
  · intro q other away same
    exact (neat inside).slashApart rooted (neat other) same away

def pairTree : FileTree :=
  ⟨[(["r"], .directory), (["a.json", "r"], .file "\x7b\x7d"), (["b.json", "r"], .file "\x7b\x7d"),
    (["x", "r"], .directory), (["c.json", "x", "r"], .file "\x7b\x7d")]⟩

def pairPaths : List String := ["x/", "*.json", "b.json"]

/-- Below a root with a detour, files are told apart, also where a directory has a slash at its
    end. -/
theorem pair_is_told_apart :
    (∀ p ∈ ["/r/../r/b.json", "/r/../r/x/c.json"],
      p ∈ pairTree.search "/r/../r" pairPaths ["a.json"] false) ∧
    ∀ p ∈ pairTree.search "/r/../r" pairPaths ["a.json"] false,
      Path.absolute "/" "/r/../r/a.json" ≠ Path.absolute "/" p ∧
      ∀ q ∈ pairTree.search "/r/../r" pairPaths ["a.json"] false, q ≠ p →
        Path.absolute "/" q ≠ Path.absolute "/" p := by
  have named : pairTree.Named := by
    simp only [Named, Proper]
    decide
  have proper : ∀ name ∈ ["x", "*.json", "b.json", "a.json"], ∀ n ∈ [name], Proper n := by
    simp only [Proper]
    decide
  have plain : ∀ path ∈ pairPaths ++ ["a.json"], Plain "/r/../r" (Path.join "/r/../r" path) := by
    simp only [pairPaths, List.forall_mem_cons, List.cons_append, List.nil_append]
    exact ⟨⟨["x"], proper _ (by decide), .inr rfl⟩, ⟨["*.json"], proper _ (by decide), .inl rfl⟩,
      ⟨["b.json"], proper _ (by decide), .inl rfl⟩, ⟨["a.json"], proper _ (by decide), .inl rfl⟩,
      by simp⟩
  have facts : (∀ p ∈ ["/r/../r/b.json", "/r/../r/x/c.json"],
        (∃ path ∈ pairPaths, p ∈ pairTree.searchOne false (Path.join "/r/../r" path)) ∧
        ¬∃ pattern ∈ ["a.json"], p ∈ pairTree.expand false (Path.join "/r/../r" pattern)) ∧
      (∀ path ∈ pairPaths, ∀ p ∈ pairTree.searchOne false (Path.join "/r/../r" path),
        pairTree.at? p ≠ some .directory) ∧
      "/r/../r/a.json" ∈ pairTree.expand false (Path.join "/r/../r" "a.json") ∧
      Path.Fixed "/r/../r" := by
    decide +kernel
  obtain ⟨found, files, excluded, fixed⟩ := facts
  obtain ⟨-, apart⟩ := search_tells_files_apart false (rfl : Path.isAbsolute "/") named fixed plain
  refine ⟨fun p known => (apart p).1.mpr (found p known), fun p inside => ?_⟩
  obtain ⟨⟨path, given, here⟩, -⟩ := (apart p).1.mp inside
  obtain ⟨left, others⟩ := (apart p).2 inside
  exact ⟨fun same => files path given p here (left _ (.head _) _ excluded same).1,
    fun q other away same => files path given p here (others q other away same).1⟩

/-- A directory is given twice: by its own name, and for what lies below it. -/
example : ∀ p ∈ ["/r/x", "/r/x/"], ∃ path ∈ ["x/**", "*"],
    p ∈ pairTree.searchOne true (Path.join "/r" path) := by decide +kernel

/-- A file that is found in `.` is not left out by its plain name. -/
theorem detour_is_not_excluded :
    ("/r/./a.json" ∈ pairTree.search "/r" ["."] ["a.json"] false) ∧
      "/r/a.json" ∈ pairTree.expand false (Path.join "/r" "a.json") ∧
      Path.absolute "/" "/r/./a.json" = Path.absolute "/" "/r/a.json" := by
  refine ⟨mem_search.mpr ?_, ?_, ?_⟩ <;> decide +kernel

end FileTree

end IdlGen
