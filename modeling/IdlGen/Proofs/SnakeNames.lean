import IdlGen.Proofs.Packages
import IdlGen.Proofs.Searches
import IdlGen.Proofs.WordBoundaries
import IdlGen.Proofs.WrittenTargets

/-!
Names of words in small letters, with underscores between them. If each word has two letters or
more, the capitals of the output name give the underscores back (`underscore_camelize`), so a
namespace of such names becomes the directories of the same names.
-/
namespace IdlGen

open Outcome
open Code.Token (of_ascii)

variable {c : Char} {name before : String}

theorem Text.exists_mem_splitAt {sep x : Char} (other : x ≠ sep) {chars : List Char}
    (known : x ∈ chars) : ∃ piece ∈ splitAt sep chars, x ∈ piece := by
  induction chars with
  | nil => cases known
  | cons c rest ih =>
    by_cases here : c = sep
    · obtain ⟨piece, listed, inside⟩ := ih ((List.mem_cons.mp known).resolve_left (here ▸ other))
      rw [here, splitAt_cons_sep]
      exact ⟨piece, List.mem_cons_of_mem _ listed, inside⟩
    · obtain ⟨first, pieces, split⟩ := List.exists_cons_of_ne_nil (splitAt_ne_nil sep rest)
      rw [split] at ih
      rw [splitAt, if_neg here, split]
      rcases List.mem_cons.mp known with rfl | later
      · exact ⟨_, List.mem_cons_self .., List.mem_cons_self ..⟩
      · obtain ⟨piece, listed, inside⟩ := ih later
        rcases List.mem_cons.mp listed with rfl | listed
        · exact ⟨_, List.mem_cons_self .., List.mem_cons_of_mem c inside⟩
        · exact ⟨piece, List.mem_cons_of_mem _ listed, inside⟩

namespace Name

/-- Two small letters or more, and nothing else. -/
def IsWord (word : String) : Prop := 2 ≤ word.toList.length ∧ ∀ c ∈ word.toList, isSmall c

instance (word : String) : Decidable (IsWord word) :=
  have := List.decidableBAll (fun c => isSmall c) word.toList
  inferInstanceAs (Decidable (_ ∧ _))

/-- Words of small letters with an underscore between any two. -/
def IsSnake (name : String) : Prop := ∀ word ∈ Text.split '_' name, IsWord word

instance (name : String) : Decidable (IsSnake name) :=
  inferInstanceAs (Decidable (∀ word ∈ Text.split '_' name, IsWord word))

theorem ascii_of_isSmall (small : isSmall c) : c.toNat < 0x80 := by
  simp only [isSmall, Bool.and_eq_true, decide_eq_true_eq] at small
  have bound : c.toNat ≤ 0x7A := UInt32.le_iff_toNat_le.mp small.2
  omega

structure SmallLetter (c : Char) : Prop where
  isCapital_toUpper : isCapital c.toUpper
  ascii_toUpper : c.toUpper.toNat < 0x80
  smallForm_toUpper : smallForm c.toUpper = c
  smallForm_eq : smallForm c = c
  ne_underscore : c ≠ '_'
  ne_slash : c ≠ '/'

theorem smallLetter_of_isSmall (small : isSmall c) : SmallLetter c := by
  have ascii := ascii_of_isSmall small
  revert small
  refine of_ascii (p := fun c => isSmall c = true → SmallLetter c) (fun n known small => ?_) ascii
  constructor
  all_goals
    revert n
    decide

theorem isSnake_join {words : List String} (nonempty : words ≠ [])
    (each : ∀ word ∈ words, IsWord word) : IsSnake (Text.join "_" words) := by
  have chars : (Text.join "_" words).toList = ['_'].intercalate (words.map String.toList) := by
    simp [Text.join, String.toList_intercalate]
  have free : ∀ piece ∈ words.map String.toList, '_' ∉ piece :=
    List.forall_mem_map.mpr fun word known mark =>
      (smallLetter_of_isSmall ((each word known).2 _ mark)).ne_underscore rfl
  have pieces : Text.split '_' (Text.join "_" words) = words := by
    rw [Text.split, chars, Text.splitAt_intercalate (by simpa using nonempty) free, List.map_map]
    simp [Function.comp_def]
  rwa [IsSnake, pieces]

section
variable {word rest : List Char}

theorem upperFirst_cons (small : isSmall c) (rest : List Char) :
    Text.upperFirst (c :: rest) = c.toUpper :: rest := by
  have ascii := ascii_of_isSmall small
  rw [Text.upperFirst, Text.upperChar, Text.sequenceOf, if_pos ascii, Option.getD_none,
    Text.mapSimple, if_pos ascii, List.singleton_append]

theorem separateWords_cons_of_not_isCapital {previous current : Char}
    (other : isCapital current = false) (rest : List Char) :
    separateWords (previous :: current :: rest) = previous :: separateWords (current :: rest) := by
  rw [separateWords, startsWord, other, Bool.false_and, if_neg Bool.false_ne_true]

theorem separateWords_append_capital (filled : word ≠ []) (small : ∀ d ∈ word, isSmall d)
    (capital : isCapital c) :
    separateWords (word ++ c :: rest) = word ++ '_' :: separateWords (c :: rest) := by
  induction word with
  | nil => exact absurd rfl filled
  | cons d more ih =>
    obtain ⟨first, later⟩ := List.forall_mem_cons.mp small
    cases more with
    | nil =>
      have starts : startsWord d c rest.head? := by simp [startsWord, capital, first]
      rw [List.singleton_append, separateWords, if_pos starts, List.singleton_append]
    | cons e others =>
      have other := not_isCapital_of_isSmall (later e (List.mem_cons_self ..))
      rw [List.cons_append, List.cons_append, separateWords_cons_of_not_isCapital other,
        ← List.cons_append, ih (List.cons_ne_nil _ _) later, ← List.cons_append]

end

variable {words : List (List Char)}

theorem map_separateWords_flatMap
    (letters : ∀ word ∈ words, 2 ≤ word.length ∧ ∀ c ∈ word, isSmall c) :
    (separateWords (words.flatMap Text.upperFirst)).map smallForm = ['_'].intercalate words := by
  induction words with
  | nil => rfl
  | cons word others ih =>
    obtain ⟨⟨long, small⟩, later⟩ := List.forall_mem_cons.mp letters
    obtain ⟨first, word, rfl⟩ := List.exists_cons_of_length_pos (Nat.lt_of_lt_of_le (by decide) long)
    obtain ⟨initial, tail⟩ := List.forall_mem_cons.mp small
    obtain ⟨second, more, rfl⟩ := List.exists_cons_of_length_pos (Nat.lt_of_succ_lt_succ long)
    have other := not_isCapital_of_isSmall (tail second (List.mem_cons_self ..))
    have settled : (first.toUpper :: second :: more).map smallForm = first :: second :: more := by
      have same (c : Char) (known : c ∈ second :: more) : smallForm c = id c :=
        (smallLetter_of_isSmall (tail c known)).smallForm_eq
      rw [List.map_cons, (smallLetter_of_isSmall initial).smallForm_toUpper,
        List.map_congr_left same, List.map_id]
    rw [List.flatMap_cons, upperFirst_cons initial]
    cases others with
    | nil =>
      have plain : separateWords (second :: more) = second :: more :=
        separateWords_of_not_isCapital fun c known => not_isCapital_of_isSmall (tail c known)
      rw [List.flatMap_nil, List.append_nil, separateWords_cons_of_not_isCapital other, plain,
        settled, List.intercalate_singleton]
    | cons next rest =>
      -- The next word starts with a capital.
      obtain ⟨capital, after, starts, isCapital⟩ : ∃ c after,
          (next :: rest).flatMap Text.upperFirst = c :: after ∧ isCapital c := by
        obtain ⟨⟨long, small⟩, -⟩ := List.forall_mem_cons.mp later
        obtain ⟨c, tail, rfl⟩ :=
          List.exists_cons_of_length_pos (Nat.lt_of_lt_of_le (by decide) long)
        have initial := small c (List.mem_cons_self ..)
        rw [List.flatMap_cons, upperFirst_cons initial]
        exact ⟨_, _, rfl, (smallLetter_of_isSmall initial).isCapital_toUpper⟩
      have separated := ih later
      rw [starts] at separated ⊢
      rw [List.cons_append, List.cons_append, separateWords_cons_of_not_isCapital other,
        ← List.cons_append, separateWords_append_capital (List.cons_ne_nil _ _) tail isCapital,
        ← List.cons_append, List.map_append, settled, List.map_cons, separated,
        List.intercalate_cons_cons, List.append_assoc]
      rfl

theorem isAscii_flatMap_upperFirst
    (letters : ∀ word ∈ words, 2 ≤ word.length ∧ ∀ c ∈ word, isSmall c) :
    Text.IsAscii (words.flatMap Text.upperFirst) := by
  intro x known
  obtain ⟨word, listed, known⟩ := List.mem_flatMap.mp known
  obtain ⟨-, small⟩ := letters word listed
  cases word with
  | nil => cases known
  | cons c rest =>
    obtain ⟨initial, later⟩ := List.forall_mem_cons.mp small
    rw [upperFirst_cons initial] at known
    rcases List.mem_cons.mp known with rfl | known
    · exact (smallLetter_of_isSmall initial).ascii_toUpper
    · exact ascii_of_isSmall (later x known)

theorem underscore_camelize (snake : IsSnake name) : underscore (camelize name) = name := by
  have letters : ∀ word ∈ Text.splitAt '_' name.toList,
      2 ≤ word.length ∧ ∀ c ∈ word, isSmall c := by
    rw [← Text.toList_split]
    exact List.forall_mem_map.mpr snake
  have camel : (camelize name).toList =
      (Text.splitAt '_' name.toList).flatMap Text.upperFirst := String.toList_ofList
  have ascii : Text.IsAscii (camelize name).toList := by
    rw [camel]
    exact isAscii_flatMap_upperFirst letters
  rw [← String.toList_inj, toList_underscore ascii, camel, map_separateWords_flatMap letters,
    Text.intercalate_splitAt]

theorem IsSnake.proper (snake : IsSnake name) : Place.Proper name := by
  refine ⟨?_, ?_, ?_, fun slash => ?_⟩
  iterate 3
    rintro rfl
    revert snake
    decide
  obtain ⟨piece, known, inside⟩ := Text.exists_mem_splitAt (by decide : '/' ≠ '_') slash
  rw [← Text.toList_split] at known
  obtain ⟨word, listed, rfl⟩ := List.mem_map.mp known
  exact (smallLetter_of_isSmall ((snake word listed).2 _ inside)).ne_slash rfl

end Name

namespace Path

variable {segments : List String}

theorem joinAll_append {others : List String} (some : segments ≠ []) (more : others ≠ []) :
    joinAll (segments ++ others) = join (joinAll segments) (joinAll others) := by
  obtain ⟨first, rest, rfl⟩ := List.exists_cons_of_ne_nil some
  rw [List.cons_append, joinAll, List.foldl_append, foldl_join more]
  rfl

theorem join_append {ending : String} (relative : isAbsolute ending = false) (base path : String) :
    join base path ++ ending = join base (path ++ ending) := by
  have same : isAbsolute (path ++ ending) = isAbsolute path := by
    rcases eq_or_ne path "" with rfl | filled
    · rw [String.empty_append, relative]
      rfl
    · exact isAbsolute_append filled
  by_cases absolute : isAbsolute path
  · rw [join, join, same, if_pos absolute, if_pos absolute]
  · rw [Bool.not_eq_true] at absolute
    rw [join_eq absolute, join_eq (same.trans absolute), String.append_assoc]

end Path

section
variable {s : Schema} {scope : String}

theorem map_underscore_scopeSegments (named : s.scope = .text scope)
    (snake : ∀ segment ∈ Text.split '.' scope, Name.IsSnake segment) :
    s.scopeSegments.map Name.underscore = Text.split '.' scope := by
  have filled : scope ≠ "" := by
    rintro rfl
    revert snake
    decide
  have same (segment : String) (known : segment ∈ Text.split '.' scope) :
      (Name.underscore ∘ Name.camelize) segment = id segment :=
    Name.underscore_camelize (snake segment known)
  simp only [Schema.scopeSegments, named, if_neg filled, List.map_map]
  rw [List.map_congr_left same, List.map_id]

theorem targetPath_scope (named : s.scope = .text scope)
    (snake : ∀ segment ∈ Text.split '.' scope, Name.IsSnake segment)
    (done : Group.scopePrefix (some s) = .ok before) (own : String) :
    Name.targetPath (before ++ own) =
      Path.join (Path.joinAll (Text.split '.' scope)) (Name.targetPath own) := by
  have ending : Path.isAbsolute Name.sourceEnding = false := by decide
  have segments : Text.split '.' (Name.modulePath (before ++ own)) =
      Text.split '.' scope ++ Text.split '.' (Name.modulePath own) := by
    rw [Name.split_modulePath, Group.split_scopePrefix done, Option.map_some, Option.getD_some,
      List.map_append, map_underscore_scopeSegments named snake, ← Name.split_modulePath]
  rw [Name.targetPath, segments,
    Path.joinAll_append (Text.split_ne_nil _ _) (Text.split_ne_nil _ _), Path.join_append ending]
  rfl

theorem scopePrefix_of_text (named : s.scope = .text scope) :
    ∃ before, Group.scopePrefix (some s) = .ok before := by
  simp only [Group.scopePrefix, named]
  split <;> exact ⟨_, rfl⟩

theorem placeOf_scope {own working : String} {entry : String × Named}
    (named : s.scope = .text scope)
    (snake : ∀ segment ∈ Text.split '.' scope, Name.IsSnake segment)
    (done : Group.scopePrefix (some s) = .ok before) (spelled : entry.2.1 = before ++ own) :
    Session.placeOf working entry = Place.ofPath (Path.join ((Text.split '.' scope).foldl Path.join
      (Path.join working entry.1)) (Name.targetPath own)) := by
  rw [Session.placeOf, Session.pathOf, spelled, targetPath_scope named snake done,
    Path.foldl_join (Text.split_ne_nil _ _), Path.join_assoc, Path.join_assoc]

end

/-- Words of two small letters or more, joined by underscores, stay as they are when capitals take
    the place of the underscores and are separated again. So where generation returns, what belongs
    to a namespace of such names has its file below the directories of the same names. -/
theorem snake_namespace_written :
    (∀ words : List String, words ≠ [] → (∀ word ∈ words, Name.IsWord word) →
      Name.underscore (Name.camelize (Text.join "_" words)) = Text.join "_" words) ∧
    ∀ {g : Group} {directories : List String} {format : Bool} {world : World}
      {written : List String} {module scope : String} {s : Schema},
      ((Session.generate g directories format).run world).1 = .ok written →
      g.schemaNamed? module = some s → s.scope = .text scope →
      (∀ segment ∈ Text.split '.' scope, Name.IsSnake segment) →
      ∃ streams mainDirectory companionDirectory before,
        directories = [mainDirectory, companionDirectory] ∧ Stream.resolved g = .ok streams ∧
        (∀ name rest, Name.split name = .ok (module, rest) →
          g.outputName name = .ok (before ++ Name.camelize rest)) ∧
        g.constantsOutput (.text module) = .ok (before ++ Name.camelize module) ∧
        ∀ entry ∈ streams.main.map (mainDirectory, ·) ++
            streams.companions.map (companionDirectory, ·),
          ∀ own, entry.2.1 = before ++ own →
            ∃ home, Place.ofPath home = (Text.split '.' scope).reverse ++
                Place.ofPath (Path.join world.working entry.1) ∧
              (((Session.generate g directories format).run world).2.tree.textAt
                (Place.ofPath (Path.join home (Name.targetPath own)))).isSome := by
  refine ⟨fun words nonempty each => Name.underscore_camelize (Name.isSnake_join nonempty each), ?_⟩
  intro g directories format world written module scope s returned declared named snake
  obtain ⟨streams, mainDirectory, companionDirectory, rfl, accepted, -, writes⟩ :=
    Session.writesAt_generate returned
  obtain ⟨before, done⟩ := scopePrefix_of_text named
  have proper : ∀ segment ∈ Text.split '.' scope, Place.Proper segment := fun segment known =>
    (snake segment known).proper
  refine ⟨streams, mainDirectory, companionDirectory, before, rfl, accepted.resolved,
    fun name rest parts => ?_, ?_, fun entry known own spelled => ?_⟩
  · exact bind_eq_ok.mpr ⟨_, parts, bind_eq_ok.mpr ⟨before, by rw [declared, done], rfl⟩⟩
  · exact bind_eq_ok.mpr ⟨before, by rw [← Group.schemaNamed?, declared, done], rfl⟩
  · refine ⟨_, Path.ofPath_foldl_join proper _, ?_⟩
    rw [← placeOf_scope named snake done spelled]
    refine writes.written _ ?_
    simpa only [List.map_append, List.map_map, Function.comp_def] using List.mem_map_of_mem
      (f := Session.placeOf world.working) known

def shelfSchema : Schema where
  module := .text "shelf"
  scope := .text "shop.back_room"
  constants := [("N", { name := "shelf.N", type := .primitive .i32, value := .int 1 })]

def shelfGroup : Group where
  schemas := [(.text "shelf", shelfSchema)]

def shelfStreams : Streams := shelfGroup.streams (by decide +kernel)

theorem shelf_written :
    Name.underscore (Name.camelize "back_room") = "back_room" ∧
    ∃ home, Place.ofPath home = ["back_room", "shop"] ∧
      (((Session.generate shelfGroup ["", ""] false).run { working := "/" }).2.tree.textAt
        (Place.ofPath (Path.join home (Name.targetPath (Name.camelize "shelf"))))).isSome := by
  have returns : ((Session.generate shelfGroup ["", ""] false).run
      { working := "/" }).1.toOption.isSome := by
    decide +kernel
  have declared : shelfGroup.schemaNamed? "shelf" = some shelfSchema := by
    simp [Group.schemaNamed?, Group.schema?, shelfGroup, Value.same, Value.equal]
  have resolved : Stream.resolved shelfGroup = .ok shelfStreams := Group.resolved_streams _
  have name : shelfGroup.constantsOutput (.text "shelf") = .ok "Shop.BackRoom.Shelf" :=
    toOption_eq_some.mp (by decide +kernel)
  have known : ∃ unit ∈ shelfStreams.main, unit.1 = "Shop.BackRoom.Shelf" := by decide +kernel
  refine ⟨snake_namespace_written.1 ["back", "room"] (by decide) (by decide), ?_⟩
  obtain ⟨written, returned⟩ := isSome_toOption.mp returns
  obtain ⟨_, _, _, before, same, ended, -, constants, placed⟩ :=
    snake_namespace_written.2 returned declared rfl (by decide)
  cases same
  cases ended.symm.trans resolved
  obtain ⟨unit, member, spelled⟩ := known
  obtain ⟨home, place, text⟩ := placed ("", unit)
    (List.mem_append_left _ (List.mem_map_of_mem member)) _
    (spelled.trans (Except.ok.inj (name.symm.trans constants)))
  have directories : (Text.split '.' "shop.back_room").reverse ++
      Place.ofPath (Path.join "/" "") = ["back_room", "shop"] := by decide +kernel
  exact ⟨home, place.trans directories, text⟩

end IdlGen
